import DexGraft.Error
import DexGraft.Json.Reader

/-!
# Records in JSON

Records are written as objects, and read from objects or from arrays of their fields in order. Fields
that a record does not have are passed over; a field that stands twice is an error.
-/

namespace DexGraft.Json

/-- The fields with the given names, in their order. -/
def fields? (names : List String) : Json → Option (List (Option Json))
  | obj members =>
    names.mapM fun name =>
      match members.filter (·.1 == name) with
      | [] => some none
      | [(_, value)] => some (some value)
      | _ => none
  | arr items =>
    if items.length ≤ names.length then
      some (items.map some ++ List.replicate (names.length - items.length) none)
    else none
  | _ => none

variable {α : Type}

/-- A field that has to be there. -/
def required (read : Json → Option α) (field : Option Json) : Option α := field.bind read

/-- A field that has a value if it is absent. -/
def defaulted (value : α) (read : Json → Option α) : Option Json → Option α
  | none => some value
  | some json => read json

/-- A field that may be absent or null. -/
def nullable (read : Json → Option α) : Option Json → Option (Option α)
  | none | some null => some none
  | some json => (read json).map some

def readBool? : Json → Option Bool
  | bool value => some value
  | _ => none

def readString? : Json → Option String
  | str value => some value
  | _ => none

def readList? (read : Json → Option α) : Json → Option (List α)
  | arr items => items.mapM read
  | _ => none

/-- A number from `low` up to `high - 1`. -/
def intBetween? (low high : Int) : Json → Option Int
  | int value => if low ≤ value ∧ value < high then some value else none
  | _ => none

def readUInt16? (json : Json) : Option UInt16 :=
  (intBetween? 0 UInt16.size json).map fun n => .ofNat n.toNat

def readInt64? (json : Json) : Option Int64 :=
  (intBetween? (-Nat.pow 2 63) (Nat.pow 2 63) json).map .ofInt

/-- A number that fits 64 bits without a sign. -/
def readIndex? (json : Json) : Option Nat := (intBetween? 0 UInt64.size json).map Int.toNat

/-- The value of a text, of the form that `read` reads. -/
def decode (read : Json → Option α) (text : String) : Except Error α :=
  match (parse? text).bind read with
  | some value => .ok value
  | none => .error .json

/-- A record of those fields that have a value. -/
def record (fields : List (String × Option Json)) : Json :=
  obj (fields.filterMap fun (name, value) => value.map (name, ·))

def ofNat (n : Nat) : Json := int n

def ofStrings (values : List String) : Json := arr (values.map str)

/-- A list as a field that is left out if there is nothing in it. -/
def unlessEmpty (write : α → Json) (values : List α) : Option Json :=
  if values.isEmpty then none else some (arr (values.map write))

end DexGraft.Json
