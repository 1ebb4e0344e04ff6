import DexGraft.NameMap
import DexGraft.Resource.Table
import Std.Data.HashMap

/-!
# Resource numbers by name

An index of a resource table, and the numbers that patches share under keys of their own.
-/

namespace DexGraft

/-- The number that stands for a resource that is not there. -/
def missingId : Int64 := -1

/-- The number for each type and name in a table. -/
structure ResourceMapping where
  /-- The names of each type with their numbers. -/
  ids : Std.HashMap ResourceType (Std.HashMap String Int64) := ∅
  /-- How many numbers there are, counted as they are put in. -/
  count : Nat := 0

namespace ResourceMapping

/-- Puts the number of an entry in, if its type has none under its name. -/
def add (mapping : ResourceMapping) (entry : ResourceEntry) : ResourceMapping :=
  let names := mapping.ids.getD entry.type ∅
  if entry.name ∈ names then mapping
  else
    { ids := mapping.ids.insert entry.type (names.insert entry.name entry.id)
      count := mapping.count + 1 }

/-- Of several entries with one type and name, the first counts. -/
def ofTable (table : ResourceTable) : ResourceMapping := table.entries.foldl add {}

def size (mapping : ResourceMapping) : Nat := mapping.count

def isEmpty (mapping : ResourceMapping) : Bool := mapping.count == 0

def get? (mapping : ResourceMapping) (type : ResourceType) (name : String) : Option Int64 := do
  let names ← mapping.ids[type]?
  names[name]?

/-- The number of a resource, or the one for a missing resource. -/
def lookup (mapping : ResourceMapping) (type : ResourceType) (name : String) : Int64 :=
  (mapping.get? type name).getD missingId

/-- The number of a resource, which has to be there. -/
def require (mapping : ResourceMapping) (type : ResourceType) (name : String) :
    Except Error Int64 :=
  match mapping.get? type name with
  | some id => .ok id
  | none => .error (.resourceNotFound type.name name)

end ResourceMapping

/-- A resource that was looked up once for all patches. -/
structure SharedResource where
  type : ResourceType
  name : String
  /-- The number, which is the one for a missing resource if the table has none. -/
  id : Int64
deriving DecidableEq, Repr

def SharedResource.isFound (resource : SharedResource) : Bool := resource.id != missingId

/-- Shared resources by key. -/
structure ResourceIds where
  shared : NameMap SharedResource := {}
deriving Repr

namespace ResourceIds

def get? (ids : ResourceIds) (key : String) : Option SharedResource := ids.shared.get? key

def id? (ids : ResourceIds) (key : String) : Option Int64 := (ids.get? key).map (·.id)

def size (ids : ResourceIds) : Nat := ids.shared.size

/-- Looks a resource up, and keeps what was found under the key. -/
def resolve (ids : ResourceIds) (mapping : ResourceMapping) (key : String) (type : ResourceType)
    (name : String) : SharedResource × ResourceIds :=
  let resource := ⟨type, name, mapping.lookup type name⟩
  (resource, ⟨ids.shared.insert key resource⟩)

/-- The keys and resources of which none was found, in the order of the keys. -/
def missing (ids : ResourceIds) : List (String × SharedResource) :=
  ids.shared.entries.filter (!·.2.isFound)

end ResourceIds

end DexGraft
