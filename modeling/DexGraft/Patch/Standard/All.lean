import DexGraft.Patch.Standard.VideoInformation
import DexGraft.Patch.Standard.WideSearchBar

/-!
# The standard patches
-/

namespace DexGraft.Patch.Standard

/-- The standard patches, in the order in which they are registered. -/
def all : List Patch := [sharedResourceIds, wideSearchBar, videoInformation]

def runner : Runner := ⟨all⟩

end DexGraft.Patch.Standard
