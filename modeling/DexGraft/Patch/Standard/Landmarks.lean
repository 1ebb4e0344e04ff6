import DexGraft.Fingerprint.Basic

/-!
# Landmarks

The fingerprints that the standard patches search. Those that depend on the number of a resource take
it as an argument.
-/

namespace DexGraft.Patch.Standard

namespace Landmark

/-- Loads the layout of the action bar; the "You" tab is set up in the same class. -/
def setActionBarRingo (layout : Int64) : Fingerprint where
  name := "SetActionBarRingo"
  returnType := some "V"
  literal := some layout

/-- The pattern ends on the branch over the flag of the "You" tab. -/
def youActionBar : Fingerprint where
  name := "YouActionBar"
  returnType := some "V"
  parameters := some ["Landroid/view/View;"]
  pattern := some [some .invokeVirtual, some .moveResult, some .ifEqz]
  parent := some "SetActionBarRingo"

/-- The call right behind the first instruction of the pattern checks for a tablet. -/
def setWordMarkHeader : Fingerprint where
  name := "SetWordMarkHeader"
  returnType := some "V"
  parameters := some ["Landroid/widget/ImageView;"]
  pattern := some [some .igetObject, some .invokeStatic, some .moveResult, some .ifNez]

def layoutSwitch : Fingerprint where
  name := "LayoutSwitch"
  returnType := some "I"
  flags := some (.exactly (AccessFlags.publicFlag.union .staticFlag))
  parameters := some ["Landroid/content/Context;"]
  pattern :=
    some [some .invokeStatic, some .moveResult, some .ifNez, none, some .returnValue]

/-- Seeks in the player controller; the second parameter says what asked for it. -/
def videoEnd : Fingerprint where
  name := "VideoEnd"
  returnType := some "Z"
  flags := some (.exactly (AccessFlags.publicFlag.union .finalFlag))
  parameters := some ["J", "L"]
  pattern := some [some .invokeVirtual, some .moveResult, some .returnValue]

def seekBarConstructor (markerColor : Int64) : Fingerprint where
  name := "SeekBarConstructor"
  returnType := some "V"
  flags := some (.exactly (AccessFlags.publicFlag.union .constructorFlag))
  literal := some markerColor

/-- The second instruction of the pattern takes the length. -/
def videoLength : Fingerprint where
  name := "VideoLength"
  returnType := some "V"
  pattern := some [some .invokeVirtual, some .moveResultWide, some .iputWide]
  parent := some "SeekBarConstructor"

/-- The call at the beginning of the pattern updates the time. -/
def playerControllerSetTimeReference : Fingerprint where
  name := "PlayerControllerSetTimeReference"
  pattern := some [some .invokeDirectRange, some .igetObject]
  strings := ["Media progress reported outside media playback: "]

/-- The pattern ends on reading the field whose type handles the stages of a video. -/
def videoIdParent : Fingerprint where
  name := "VideoIdParent"
  returnType := some "V"
  flags := some (.exactly (AccessFlags.publicFlag.union .finalFlag))
  parameters := some ["[L", "Ljava/lang/Object;"]
  pattern := some [some .invokeInterface, some .moveResultObject, some .igetObject]

/-- Reads what is to be watched next; the video id is handed on in the same class. -/
def backgroundPlaybackVideoIdParent : Fingerprint where
  name := "BackgroundPlaybackVideoIdParent"
  returnType := some "V"
  flags := some (.exactly (AccessFlags.publicFlag.union .finalFlag))
  parameters := some ["Ljava/lang/Object;"]
  strings := ["currentWatchNextResponse"]

/-- The pattern ends on taking the video id. -/
def backgroundPlaybackVideoId : Fingerprint where
  name := "BackgroundPlaybackVideoId"
  returnType := some "V"
  flags := some (.exactly (AccessFlags.publicFlag.union .finalFlag))
  pattern := some [some .igetObject, some .invokeInterface, some .moveResultObject]
  parent := some "BackgroundPlaybackVideoIdParent"

end Landmark

end DexGraft.Patch.Standard
