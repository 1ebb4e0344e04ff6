import DexGraft.Json.Record
import DexGraft.Resource.Mapping

/-!
# Stored resources

Resource tables and shared resources as JSON.
-/

namespace DexGraft

open Json

namespace ResourceType

def toJson (type : ResourceType) : Json := str type.name

/-- The name of a type, alone or as the only key of an object with nothing behind it. -/
def ofJson? : Json → Option ResourceType
  | str name | obj [(name, null)] => ofName? name
  | _ => none

end ResourceType

namespace ResourceEntry

def toJson (entry : ResourceEntry) : Json :=
  obj [("type", entry.type.toJson), ("name", str entry.name), ("id", int entry.id.toInt)]

def ofJson? (json : Json) : Option ResourceEntry := do
  match ← json.fields? ["type", "name", "id"] with
  | [type, name, id] =>
    some {
      type := ← required ResourceType.ofJson? type
      name := ← required readString? name
      id := ← required readInt64? id }
  | _ => none

end ResourceEntry

namespace ResourceTable

def toJson (table : ResourceTable) : Json :=
  obj [("entries", arr (table.entries.map ResourceEntry.toJson))]

def ofJson? (json : Json) : Option ResourceTable := do
  match ← json.fields? ["entries"] with
  | [entries] => some ⟨← required (readList? ResourceEntry.ofJson?) entries⟩
  | _ => none

/-- The text of the file that holds the table. -/
def save (table : ResourceTable) : String := table.toJson.text

def load (text : String) : Except Error ResourceTable := decode ofJson? text

end ResourceTable

def SharedResource.toJson (resource : SharedResource) : Json :=
  obj [("type", resource.type.toJson), ("name", str resource.name),
    ("id", int resource.id.toInt)]

def ResourceIds.toJson (ids : ResourceIds) : Json :=
  obj [("ids", obj (ids.shared.entries.map fun (key, resource) => (key, resource.toJson)))]

end DexGraft
