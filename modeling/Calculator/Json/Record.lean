import Calculator.Json.Tree

/-!
# `Json.Record` — finding things in a document

A record is written by the names of its fields, in any order and among others, or as a list of its
fields in their order. Nothing is converted: a number is no text, and `null` is a value only where a
value may be missing.

## Contents

* `Json.text?`, `Json.natural?`, `Json.float?`, `Json.list?`, `Json.optional?` — values of one kind
* `Json.fields?` — the fields of a record
* `required`, `defaulted` — a field that must be there, and one that may be left out
* `Json.choice?` — one of several words
-/

namespace Calculator.Json

/-! ## Values -/

/-- A text. -/
def text? : Json → Option String
  | .string pieces => (textOf? pieces).map String.ofList
  | _ => none

/-- An unsigned integer of at most `bits` bits. -/
def natural? (bits : Nat) : Json → Option Nat
  | .number numeral => numeral.toNatural? bits
  | _ => none

/-- A real number. -/
def float? : Json → Option Float
  | .number numeral => numeral.toFloat?
  | _ => none

/-- A list whose elements are all of one kind. -/
def list? (element? : Json → Option α) : Json → Option (List α)
  | .array elements => elements.mapM element?
  | _ => none

/-- A value that may be `null`. -/
def optional? (value? : Json → Option α) : Json → Option (Option α)
  | .null => some none
  | json => (value? json).map some

/-! ## Fields -/

/-- A member whose name is a text. -/
def readable? (member : List Piece × Json) : Option (String × Json) :=
  (textOf? member.1).map fun name => (String.ofList name, member.2)

/-- The value of the member of a name: `some none` if there is none, and `none` if there are two. -/
def member? (members : List (String × Json)) (name : String) : Option (Option Json) :=
  match members.filter fun member => member.1 == name with
  | [] => some none
  | [member] => some (some member.2)
  | _ => none

/-- The fields of a record in the order of their names, those left out as `none`. Names that are not
asked for are passed over, but they must be texts; a list may leave out its last fields only. -/
def fields? (names : List String) : Json → Option (List (Option Json))
  | .object members =>
    (members.mapM readable?).bind fun members => names.mapM (member? members)
  | .array elements =>
    if elements.length ≤ names.length then
      some (elements.map some ++ List.replicate (names.length - elements.length) none)
    else none
  | _ => none

/-- A field that must be there. -/
def required (value? : Json → Option α) (field : Option Json) : Option α := field.bind value?

/-- A field that has a value also where it is left out. -/
def defaulted (value? : Json → Option α) (default : α) : Option Json → Option α
  | none => some default
  | some json => value? json

/-! ## Choices -/

/-- A word, or a record that holds `null` under that word alone. -/
def word? : Json → Option String
  | .string pieces => (textOf? pieces).map String.ofList
  | .object [(name, .null)] => (textOf? name).map String.ofList
  | _ => none

/-- The choice that a word stands for. -/
def choice? (choices : List (String × α)) (json : Json) : Option α :=
  json.word?.bind fun word => choices.lookup word

end Calculator.Json
