/-!
# Values by name

A finite map from names to values that lists its names in order.
-/

namespace DexGraft

universe u

/-- Names with their values, each name once and in increasing order if all were put in one by one. -/
structure NameMap (α : Type u) where
  entries : List (String × α) := []
deriving Repr

namespace NameMap

variable {α : Type u}

def empty : NameMap α := {}

def get? (map : NameMap α) (name : String) : Option α := map.entries.lookup name

def contains (map : NameMap α) (name : String) : Bool := (map.get? name).isSome

def size (map : NameMap α) : Nat := map.entries.length

def isEmpty (map : NameMap α) : Bool := map.entries.isEmpty

/-- The entries with one put in at its place, or in the place of the one of its name. -/
def insertEntry (name : String) (value : α) : List (String × α) → List (String × α)
  | [] => [(name, value)]
  | (other, old) :: rest =>
    if name < other then (name, value) :: (other, old) :: rest
    else if name = other then (name, value) :: rest
    else (other, old) :: insertEntry name value rest

def insert (map : NameMap α) (name : String) (value : α) : NameMap α :=
  ⟨insertEntry name value map.entries⟩

def erase (map : NameMap α) (name : String) : NameMap α :=
  ⟨map.entries.filter (·.1 != name)⟩

def names (map : NameMap α) : List String := map.entries.map (·.1)

end NameMap

end DexGraft
