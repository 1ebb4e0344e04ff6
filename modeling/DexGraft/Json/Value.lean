import DexGraft.Text.Cut
import DexGraft.Text.Numeral

/-!
# JSON values

Values of JSON texts, and the text of a value with two blanks of indentation for each level.
-/

namespace DexGraft

open Text

inductive Json where
  | null
  | bool (value : Bool)
  /-- A number written without fraction and exponent; not the negative zero. -/
  | int (value : Int)
  /-- Any other number. -/
  | real
  | str (value : String)
  /-- A string with half a surrogate pair in it, or an object with such a key. -/
  | torn
  | arr (items : List Json)
  /-- The members in order, those with equal keys among them. -/
  | obj (members : List (String × Json))
deriving Repr

namespace Json

/-- A character as it stands in a string. -/
def escapeChar (c : Char) : List Char :=
  match c with
  | '"' => ['\\', '"']
  | '\\' => ['\\', '\\']
  | '\n' => ['\\', 'n']
  | '\r' => ['\\', 'r']
  | '\t' => ['\\', 't']
  | '\x08' => ['\\', 'b']
  | '\x0c' => ['\\', 'f']
  | c =>
    if c.toNat < 0x20 then
      ['\\', 'u', '0', '0', Numeral.digitChar (c.toNat / 16), Numeral.digitChar (c.toNat % 16)]
    else [c]

/-- A string between its quotes. -/
def quote (s : String) : String := String.ofList ('"' :: s.toList.flatMap escapeChar ++ ['"'])

/-- A new line, indented. -/
def newLine (depth : Nat) : String := "\n" ++ String.ofList (List.replicate (2 * depth) ' ')

mutual

/-- The text of a value inside `depth` arrays and objects. -/
def pretty (depth : Nat) : Json → String
  | null | real | torn => "null"
  | bool value => if value then "true" else "false"
  | int value => Numeral.signedDecimal value
  | str value => quote value
  | arr [] => "[]"
  | arr (item :: rest) =>
    "[" ++ newLine (depth + 1) ++ pretty (depth + 1) item ++ prettyItems (depth + 1) rest ++
      newLine depth ++ "]"
  | obj [] => "\x7b\x7d"
  | obj ((key, value) :: rest) =>
    "\x7b" ++ newLine (depth + 1) ++ quote key ++ ": " ++ pretty (depth + 1) value ++
      prettyMembers (depth + 1) rest ++ newLine depth ++ "\x7d"

/-- The items behind the first one. -/
def prettyItems (depth : Nat) : List Json → String
  | [] => ""
  | item :: rest => "," ++ newLine depth ++ pretty depth item ++ prettyItems depth rest

/-- The members behind the first one. -/
def prettyMembers (depth : Nat) : List (String × Json) → String
  | [] => ""
  | (key, value) :: rest =>
    "," ++ newLine depth ++ quote key ++ ": " ++ pretty depth value ++ prettyMembers depth rest

end

/-- The text of a value as it is stored. -/
def text (json : Json) : String := pretty 0 json

end Json

end DexGraft
