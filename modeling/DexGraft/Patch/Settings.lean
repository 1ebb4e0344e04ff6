import DexGraft.Json.Record

/-!
# Settings

Lines for the settings screen, and the names of the patches that have been applied. Neither holds
anything twice.
-/

namespace DexGraft

structure SettingsRegistry where
  preferences : List String := []
  patchStatus : List String := []
deriving DecidableEq, Repr

namespace SettingsRegistry

/-- The list with an entry behind it, unless it is there. -/
def addNew (entries : List String) (entry : String) : List String :=
  if entries.contains entry then entries else entries ++ [entry]

def addPreferences (settings : SettingsRegistry) (entries : List String) : SettingsRegistry :=
  { settings with preferences := entries.foldl addNew settings.preferences }

def addStatus (settings : SettingsRegistry) (patch : String) : SettingsRegistry :=
  { settings with patchStatus := addNew settings.patchStatus patch }

def toJson (settings : SettingsRegistry) : Json :=
  .obj [("preferences", .ofStrings settings.preferences),
    ("patch_status", .ofStrings settings.patchStatus)]

end SettingsRegistry

end DexGraft
