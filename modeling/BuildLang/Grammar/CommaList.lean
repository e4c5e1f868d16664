import BuildLang.Grammar.Combinator

/-!
# Comma lists

Every list of a BUILD file parts its items by commas.  Some lists admit one more
comma behind the last item; in the others it is a fault, but one that reading
gets past, so that the rest of the list is not lost.
-/

set_option autoImplicit false

namespace BuildLang

/-- Whether a comma may stand behind the last item of a list. -/
inductive TrailingComma where
  | allowed
  | rejected (list : StrictList)
  deriving DecidableEq, Repr

namespace Parser

variable {α : Type}

/-- What follows an item: a comma and the next item, again and again.  A comma
with no item behind it is given back. -/
def commaItems (item : Parser α) : Nat → Option Fault → Parser (List α)
  | 0, hint, cursor => ⟨[], .ok ⟨[], hint, cursor⟩⟩
  | fuel + 1, hint, cursor =>
      match cursor.rest with
      | .comma :: rest =>
          let reply := item ⟨cursor.index + 1, rest⟩
          match reply.outcome with
          | .error fault => ⟨reply.faults, .ok ⟨[], Fault.latest hint (some fault), cursor⟩⟩
          | .ok success =>
              ((commaItems item fuel (Fault.latest hint success.hint) success.next).after
                reply.faults).mapValue (success.value :: ·)
      | _ =>
          ⟨[], .ok ⟨[], Fault.latest hint (some (cursor.unexpected [.token .comma])), cursor⟩⟩

/-- Items parted by commas, possibly none.  Faults of an item that failed in the
end are kept. -/
def separated (item : Parser α) : Parser (List α) :=
  fun cursor =>
    let reply := item cursor
    match reply.outcome with
    | .error fault => ⟨reply.faults, .ok ⟨[], some fault, cursor⟩⟩
    | .ok success =>
        ((commaItems item cursor.rest.length success.hint success.next).after
          reply.faults).mapValue (success.value :: ·)

/-- The fault of a comma at `comma` behind the items of a list, found out at
`reach`: without an item in front no comma is expected anywhere. -/
def commaFault (trailing : TrailingComma) (reach comma : Nat) (noItem : Bool) : Option Fault :=
  if noItem then
    some ⟨reach, comma, .unexpected, [], some .comma, .unknown⟩
  else
    match trailing with
    | .allowed => none
    | .rejected list => some ⟨reach, comma, .trailingComma list, [], none, .unknown⟩

/-- Items parted by commas, and an optional comma behind them that is judged by
`trailing`. -/
def commaList (trailing : TrailingComma) (item : Parser α) : Parser (List α) :=
  fun cursor =>
    let reply := (separated item).seq (optional (mapAt (fun index _ => index) (exactly .comma)))
      cursor
    match reply.outcome with
    | .error fault => ⟨reply.faults, .error fault⟩
    | .ok success =>
        let (items, comma) := success.value
        let fault := comma.bind fun index =>
          commaFault trailing success.next.index index items.isEmpty
        ⟨reply.faults ++ fault.toList, .ok ⟨items, success.hint, success.next⟩⟩

def callArguments (arguments : Parser α) : Parser α :=
  arguments.between .leftParen .rightParen

end Parser

end BuildLang
