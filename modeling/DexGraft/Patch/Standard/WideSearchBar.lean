import DexGraft.Patch.Standard.Landmarks
import DexGraft.Patch.Standard.SharedResources

/-!
# Wide search bar

The patch that makes the search bar ask the integrations, and not the kind of device, how wide it is.
-/

namespace DexGraft.Patch.Standard

namespace WideSearchBar

/-- Text that puts the integrations' answer into the first parameter register. -/
def toggleText (general : String) : String :=
  s!"invoke-static \x7b\x7d, {general}->enableWideSearchBar()Z\nmove-result p0"

/-- Text that puts the integrations' answer to the flag in a register back into it. -/
def tabToggleText (general : String) (register : Register) : String :=
  let flag := register.text
  s!"invoke-static \x7b{flag}\x7d, {general}->enableWideSearchBarInYouTab(Z)Z\nmove-result {flag}"

/-- Overwrites the first parameter register right in front of the last instruction. -/
def insertToggle (general : String) : Editing Method Unit := do
  let method ← get
  match method.body.length with
  | 0 => throw (.invalidMethod (.noBody method.descriptor))
  | last + 1 => Method.insertTextM last (toggleText general)

/-- Overwrites the flag that the instruction at `index` tests. -/
def insertTabToggle (general : String) (index : Nat) : Editing Method Unit := do
  let register ← Editing.look (·.registerAt index)
  Method.insertTextM index (tabToggleText general register)

/-- The method that checks for a tablet. -/
def tabletCheck : Patching MethodId := do
  let header ← Patching.resolution Landmark.setWordMarkHeader.name
  Editing.look fun context => do
    let walker ← (context.walker header.method).followAt ((← header.window).first + 1)
    .ok walker.current

def execute : Patching Unit := do
  let general := (← get).config.generalClass
  let check ← tabletCheck
  let switch ← Patching.resolution Landmark.layoutSwitch.name
  Patching.edit check (insertToggle general)
  Patching.edit switch.method (insertToggle general)
  let tab ← Patching.resolution Landmark.youActionBar.name
  let window ← Editing.look fun _ => tab.window
  Patching.edit tab.method (insertTabToggle general window.last)
  Patching.addPreferences
    ["PREFERENCE: GENERAL_SETTINGS", "SETTINGS: ENABLE_WIDE_SEARCH_BAR"]
  Patching.addStatus "Enable wide search bar"

end WideSearchBar

def wideSearchBar : Patch where
  name := "wide-search-bar"
  dependencies := [sharedResourceIds.name]
  fingerprints := fun context => do
    let layout ← context.sharedResourceId "ActionBarRingo"
    .ok [Landmark.layoutSwitch, Landmark.setActionBarRingo layout, Landmark.setWordMarkHeader,
      Landmark.youActionBar]
  execute := WideSearchBar.execute

end DexGraft.Patch.Standard
