import DexGraft.Patch.Config
import DexGraft.Toml.Document

/-!
# Configuration files
-/

namespace DexGraft.PatchConfig

open Toml

/-- A part that may be absent; what stands there must be a value of the right sort. -/
def part? {α : Type} (members : Members) (key : String) (standard : α)
    (read : Value → Option α) : Option α :=
  match members.lookup key with
  | none => some standard
  | some (.value value) => read value
  | some _ => none

def stringOf? : Value → Option String
  | .string s => some s
  | _ => none

def boolOf? : Value → Option Bool
  | .bool b => some b
  | _ => none

/-- The configuration in a file; unknown keys are passed over. -/
def ofFile? (text : String) : Option PatchConfig := do
  let members ← Toml.parse? text
  let standard : PatchConfig := {}
  some {
    generalClass := ← part? members "general_class" standard.generalClass stringOf?
    videoClass := ← part? members "video_class" standard.videoClass stringOf?
    strictResources := ← part? members "strict_resources" standard.strictResources boolOf? }

end DexGraft.PatchConfig
