import BuildLang.Tree.Literal

/-!
# Load statements

A load statement imports symbols from another file, each under its own name or
under a new one.
-/

set_option autoImplicit false

namespace BuildLang

inductive LoadedSymbol (π : Type) where
  | plain (symbol : String) (position : Option π)
  | renamed (name symbol : String) (position : Option π)
  deriving DecidableEq, Repr

namespace LoadedSymbol

variable {π ρ : Type}

/-- The name the symbol has in the file it comes from. -/
def symbol : LoadedSymbol π → String
  | .plain symbol _ => symbol
  | .renamed _ symbol _ => symbol

def localName : LoadedSymbol π → String
  | .plain symbol _ => symbol
  | .renamed name _ _ => name

def position : LoadedSymbol π → Option π
  | .plain _ position => position
  | .renamed _ _ position => position

def mapPosition (f : π → ρ) : LoadedSymbol π → LoadedSymbol ρ
  | .plain symbol position => .plain symbol (position.map f)
  | .renamed name symbol position => .renamed name symbol (position.map f)

end LoadedSymbol

/-- An import; `source` is the label between the quotes. -/
structure Load (π : Type) where
  source : String
  symbols : List (LoadedSymbol π)
  position : Option π := none
  deriving DecidableEq, Repr

def Load.mapPosition {π ρ : Type} (f : π → ρ) (load : Load π) : Load ρ :=
  ⟨load.source, load.symbols.map (LoadedSymbol.mapPosition f), load.position.map f⟩

end BuildLang
