import DexGraft.Error
import DexGraft.Markup.Event

/-!
# Attributes

The attributes of a tag: names with quoted values, in which characters may be written as references.
-/

namespace DexGraft.Markup

open Text

/-- The characters that have names of their own. -/
def namedReferences : List (List Char × Char) :=
  [(['l', 't'], '<'), (['g', 't'], '>'), (['a', 'm', 'p'], '&'), (['a', 'p', 'o', 's'], '\''),
   (['q', 'u', 'o', 't'], '"')]

/-- The character with a number, which is not zero and no half of a surrogate pair. -/
def charOfNumber? (n : Nat) : Option Char :=
  if n ≠ 0 ∧ n.isValidChar then some (Char.ofNat n) else none

/-- The character that a reference stands for, by number or by name. -/
def resolveReference? : List Char → Option Char
  | '#' :: 'x' :: digits => (Numeral.digits? 16 digits).bind charOfNumber?
  | '#' :: digits => (Numeral.digits? 10 digits).bind charOfNumber?
  | name => namedReferences.lookup name

/-- The text with characters in the place of references; the option holds an open reference. -/
def unescapeFrom? : Option (List Char) → List Char → Option (List Char)
  | none, [] => some []
  | some _, [] => none
  | none, c :: cs =>
    if c = '&' then unescapeFrom? (some []) cs else (unescapeFrom? none cs).map (c :: ·)
  | some begun, c :: cs =>
    if c = ';' then do
      let character ← resolveReference? begun.reverse
      (unescapeFrom? none cs).map (character :: ·)
    else if c = '&' then none
    else unescapeFrom? (some (c :: begun)) cs

/-- The text with characters in the place of references. -/
def unescape? (cs : List Char) : Option (List Char) := unescapeFrom? none cs

/-- Where between the attributes of a tag a character stands. -/
inductive AttributePlace where
  | between
  /-- In a name: its characters so far, last one first. -/
  | name (begun : List Char)
  | behindName (name : List Char)
  | behindEquals (name : List Char)
  /-- In a value: its quote, and its characters so far, last one first. -/
  | value (name : List Char) (quote : Char) (begun : List Char)
deriving DecidableEq, Repr

/-- The attribute that a character completes, and the place behind it. -/
def AttributePlace.next? : AttributePlace → Char →
    Option (Option (List Char × List Char) × AttributePlace)
  | between, c => some (none, if isSpace c then between else name [c])
  | name begun, c =>
    if c = '=' then some (none, behindEquals begun.reverse)
    else if isSpace c then some (none, behindName begun.reverse)
    else some (none, name (c :: begun))
  | behindName key, c =>
    if c = '=' then some (none, behindEquals key)
    else if isSpace c then some (none, behindName key)
    else none
  | behindEquals key, c =>
    if c = '"' ∨ c = '\'' then some (none, value key c [])
    else if isSpace c then some (none, behindEquals key)
    else none
  | value key quote begun, c =>
    if c = quote then some (some (key, begun.reverse), between)
    else some (none, value key quote (c :: begun))

/--
The attributes behind those that are known. They are read from left to right, and the first fault is
the one that counts: an attribute without a quoted value, a name that is known, a value with a false
reference.
-/
def attributesFrom (known : List (List Char × List Char)) (place : AttributePlace) :
    List Char → Except TableFault (List (List Char × List Char))
  | [] => if place = .between then .ok known else .error .badAttribute
  | c :: cs =>
    match place.next? c with
    | none => .error .badAttribute
    | some (none, place) => attributesFrom known place cs
    | some (some (name, value), place) =>
      if (known.lookup name).isSome then .error .badAttribute
      else match unescape? value with
        | none => .error .badAttributeValue
        | some value => attributesFrom (known ++ [(name, value)]) place cs

/-- The names of the attributes with their values. -/
def attributes (cs : List Char) : Except TableFault (List (List Char × List Char)) :=
  attributesFrom [] .between cs

end DexGraft.Markup
