import BuildLang.Layout.File
import BuildLang.Parse

/-!
# Formatting

A source is formatted by printing its tree, so only sources without any
diagnostic have a canonical form.
-/

set_option autoImplicit false

namespace BuildLang

def formatWith (recovery : Recovery) (options : PrintOptions) (source : String) :
    Except (List Diagnostic) String :=
  (parseWith recovery source).map (BuildFile.print options)

def format (source : String) : Except (List Diagnostic) String :=
  formatWith .on {} source

end BuildLang
