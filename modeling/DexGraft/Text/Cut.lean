/-!
# Cutting texts

Splitting a text at a mark: at the first or the last character of a kind, at the first place where
a given text stands, at every comma, at the ends of lines.
-/

namespace DexGraft.Text

universe u

variable {α : Type u}

/-- What stands in front of the first element that satisfies `p`, and what stands behind it. -/
def cut? (p : α → Bool) : List α → Option (List α × List α)
  | [] => none
  | c :: cs => if p c then some ([], cs) else (cut? p cs).map fun (a, b) => (c :: a, b)

/-- What stands in front of the last element that satisfies `p`, and what stands behind it. -/
def cutLast? (p : α → Bool) : List α → Option (List α × List α)
  | [] => none
  | c :: cs =>
    match cutLast? p cs with
    | some (a, b) => some (c :: a, b)
    | none => if p c then some ([], cs) else none

/-- What stands in front of the first occurrence of `mark`, and what stands behind it. -/
def cutOn? (mark : List Char) : List Char → Option (List Char × List Char)
  | [] => if mark.isEmpty then some ([], []) else none
  | c :: cs =>
    if mark.isPrefixOf (c :: cs) then some ([], (c :: cs).drop mark.length)
    else (cutOn? mark cs).map fun (a, b) => (c :: a, b)

/-- The text without its last character, where that is `c`. -/
def before? (c : Char) (cs : List Char) : Option (List Char) :=
  if cs.getLast? = some c then some cs.dropLast else none

/-- The parts between the elements that satisfy `p`: one more than there are such elements. -/
def parts (p : α → Bool) : List α → List (List α)
  | [] => [[]]
  | c :: cs =>
    if p c then [] :: parts p cs
    else match parts p cs with
      | [] => [[c]]
      | part :: rest => (c :: part) :: rest

/-- The texts with `sep` between each two of them. -/
def join (sep : String) : List String → String
  | [] => ""
  | [s] => s
  | s :: t :: rest => s ++ sep ++ join sep (t :: rest)

/-- The lines of a text whose first line begins with the characters of `line`, last one first. -/
def linesFrom (line : List Char) : List Char → List (List Char)
  | [] => if line.isEmpty then [] else [line.reverse]
  | c :: cs =>
    if c = '\n' then
      (match line with
        | '\r' :: rest => rest.reverse
        | _ => line.reverse) :: linesFrom [] cs
    else linesFrom (c :: line) cs

/--
The lines of a text. A line ends with a line feed, or with a carriage return and a line feed, and
neither belongs to it; the last line may be left open.
-/
def lines (cs : List Char) : List (List Char) := linesFrom [] cs

end DexGraft.Text
