import Calculator.Json.Numeral
import Calculator.Json.Quoted
import Calculator.Text.Affix

/-!
# `Json.Tree` — documents as trees

A document is read whole before anything is looked for in it. Its strings and numbers are kept as they
are written, for what nobody asks for need not have a text or a value.

## Contents

* `Json` — the tree
* `Json.parse?` — the tree of a document
* `Json.source` — a document of a tree
-/

namespace Calculator

open Json (Numeral Piece)

/-- A document. Members keep their order, and several of them may have one name. -/
inductive Json where
  | null
  | bool (value : Bool)
  | number (numeral : Numeral)
  | string (pieces : List Piece)
  | array (elements : List Json)
  | object (members : List (List Piece × Json))

namespace Json

/-! ## Reading -/

/-- Drops the blanks at the start of a text. -/
def skipBlanks (text : List Char) : List Char :=
  text.dropWhile fun c => c == ' ' || c == '\t' || c == '\n' || c == '\r'

/-- The pieces of a string behind its opening quote, and what follows it. -/
def readString? (text : List Char) : Option (List Piece × List Char) :=
  spanPieces? (text.length + 1) text

/-- A value that is neither list nor record, and what follows it. -/
def readScalar? : List Char → Option (Json × List Char)
  | '"' :: rest => (readString? rest).map fun (pieces, rest) => (.string pieces, rest)
  | 'n' :: rest => (Text.afterStart? ['u', 'l', 'l'] rest).map fun rest => (.null, rest)
  | 't' :: rest => (Text.afterStart? ['r', 'u', 'e'] rest).map fun rest => (.bool true, rest)
  | 'f' :: rest => (Text.afterStart? ['a', 'l', 's', 'e'] rest).map fun rest => (.bool false, rest)
  | text => (spanNumeral? text).map fun (numeral, rest) => (.number numeral, rest)

/-- The name of a member with its colon, and what follows them. -/
def readName? (text : List Char) : Option (List Piece × List Char) :=
  match skipBlanks text with
  | '"' :: rest =>
    (readString? rest).bind fun (name, rest) =>
      match skipBlanks rest with
      | ':' :: rest => some (name, rest)
      | _ => none
  | _ => none

mutual

/-- The value at the start of a text and what follows it; `steps` bounds the values and their
nesting. -/
def readValue? : (steps : Nat) → List Char → Option (Json × List Char)
  | 0, _ => none
  | steps + 1, text =>
    match skipBlanks text with
    | '[' :: rest =>
      match skipBlanks rest with
      | ']' :: rest => some (.array [], rest)
      | rest => (readElements? steps rest).map fun (elements, rest) => (.array elements, rest)
    | '{' :: rest =>
      match skipBlanks rest with
      | '}' :: rest => some (.object [], rest)
      | rest => (readMembers? steps rest).map fun (members, rest) => (.object members, rest)
    | text => readScalar? text

/-- The elements of a list, at least one, up to its bracket, and what follows that. -/
def readElements? : (steps : Nat) → List Char → Option (List Json × List Char)
  | 0, _ => none
  | steps + 1, text =>
    match readValue? steps text with
    | none => none
    | some (element, rest) =>
      match skipBlanks rest with
      | ']' :: rest => some ([element], rest)
      | ',' :: rest =>
        (readElements? steps rest).map fun (elements, rest) => (element :: elements, rest)
      | _ => none

/-- The members of a record, at least one, up to its brace, and what follows that. -/
def readMembers? : (steps : Nat) → List Char → Option (List (List Piece × Json) × List Char)
  | 0, _ => none
  | steps + 1, text =>
    match readName? text with
    | none => none
    | some (name, rest) =>
      match readValue? steps rest with
      | none => none
      | some (value, rest) =>
        match skipBlanks rest with
        | '}' :: rest => some ([(name, value)], rest)
        | ',' :: rest =>
          (readMembers? steps rest).map fun (members, rest) => ((name, value) :: members, rest)
        | _ => none

end

/-- The tree of a document: one value with nothing but blanks around it. Two steps are taken for a
bracket at most and one for a comma, so twice the length of the document suffices. -/
def parse? (document : List Char) : Option Json :=
  match readValue? (2 * document.length + 1) document with
  | some (value, rest) => if skipBlanks rest = [] then some value else none
  | none => none

/-! ## Writing -/

/-- A string in its quotes. -/
def quoted (pieces : List Piece) : List Char := '"' :: pieces.flatMap Piece.source ++ ['"']

mutual

/-- A document of a tree, without blanks. -/
def source : Json → List Char
  | .null => ['n', 'u', 'l', 'l']
  | .bool true => ['t', 'r', 'u', 'e']
  | .bool false => ['f', 'a', 'l', 's', 'e']
  | .number numeral => numeral.source
  | .string pieces => quoted pieces
  | .array [] => ['[', ']']
  | .array (element :: rest) => '[' :: element.source ++ elementsSource rest
  | .object [] => ['{', '}']
  | .object ((name, value) :: rest) =>
    '{' :: quoted name ++ ':' :: value.source ++ membersSource rest

/-- The elements behind the first one, and the bracket. -/
def elementsSource : List Json → List Char
  | [] => [']']
  | element :: rest => ',' :: element.source ++ elementsSource rest

/-- The members behind the first one, and the brace. -/
def membersSource : List (List Piece × Json) → List Char
  | [] => ['}']
  | (name, value) :: rest => ',' :: quoted name ++ ':' :: value.source ++ membersSource rest

end

/-- A text. -/
def ofText (text : String) : Json := .string (text.toList.map Piece.ofChar)

/-- An unsigned integer. -/
def ofNat (n : Nat) : Json := .number (Numeral.ofNat n)

/-- A real number, or `null` if it is not finite. -/
def ofFloat (x : Float) : Json :=
  match Numeral.ofFloat? x with
  | some numeral => .number numeral
  | none => .null

/-- A record. -/
def ofFields (fields : List (String × Json)) : Json :=
  .object (fields.map fun (name, value) => (name.toList.map Piece.ofChar, value))

end Json

end Calculator
