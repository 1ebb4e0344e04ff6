import DexGraft.Json.Record

/-!
# Configuration

What the patches of a run have in common.
-/

namespace DexGraft

structure PatchConfig where
  /-- The class whose general hooks are called. -/
  generalClass : String := "Lapp/revanced/integrations/youtube/patches/general/GeneralPatch;"
  /-- The class that is told about videos. -/
  videoClass : String := "Lapp/revanced/integrations/music/video/VideoInformation;"
  /-- Whether a patch fails if a resource it needs is missing. -/
  strictResources : Bool := true
deriving DecidableEq, Repr

namespace PatchConfig

/-- The configuration with some of its parts given. -/
def ofParts (generalClass videoClass : Option String) (strictResources : Option Bool) :
    PatchConfig :=
  let standard : PatchConfig := {}
  { generalClass := generalClass.getD standard.generalClass
    videoClass := videoClass.getD standard.videoClass
    strictResources := strictResources.getD standard.strictResources }

def toJson (config : PatchConfig) : Json :=
  .obj [("general_class", .str config.generalClass), ("video_class", .str config.videoClass),
    ("strict_resources", .bool config.strictResources)]

def ofJson? (json : Json) : Option PatchConfig := do
  let standard : PatchConfig := {}
  match ← json.fields? ["general_class", "video_class", "strict_resources"] with
  | [generalClass, videoClass, strictResources] =>
    some {
      generalClass := ← Json.defaulted standard.generalClass Json.readString? generalClass
      videoClass := ← Json.defaulted standard.videoClass Json.readString? videoClass
      strictResources := ← Json.defaulted standard.strictResources Json.readBool? strictResources }
  | _ => none

def load (text : String) : Except Error PatchConfig := Json.decode ofJson? text

end PatchConfig

end DexGraft
