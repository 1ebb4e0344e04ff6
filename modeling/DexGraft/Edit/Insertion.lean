import DexGraft.Smali.Assembly

/-!
# Editing methods with assembly text

Every edit assembles its text for the method that is edited, so that parameter registers and labels
come out right for it. An edit that fails leaves nothing behind.
-/

namespace DexGraft.Method

/--
Puts the instructions of a text in at `index`. The text may branch to external labels, whose indices
are those of the method before the edit.
-/
def insertLabelledM (index : Nat) (text : String) (labels : List ExternalLabel) :
    Editing Method Unit := do
  let method ← get
  let length := method.body.length
  if length < index then throw (method.outOfBounds index)
  else match labels.find? (length ≤ ·.index) with
    | some label => throw (method.outOfBounds label.index)
    | none => insertM index (← Editing.look (Smali.assembleAt text · index labels))

/-- Puts the instructions of a text in at `index`. -/
def insertTextM (index : Nat) (text : String) : Editing Method Unit := insertLabelledM index text []

/-- The one instruction of a text for the given index. -/
def assembleOne (method : Method) (index : Nat) (text : String) : Except Error Instruction := do
  match ← Smali.assembleAt text method index [] with
  | [instruction] => .ok instruction
  | items => .error (.assembly 1 (.oneInstructionExpected items.length))

/-- Puts the one instruction of a text in at `index`. -/
def insertOneM (index : Nat) (text : String) : Editing Method Unit := do
  insertM index [← Editing.look (·.assembleOne index text)]

/-- Puts the one instruction of a text in the place of the one at `index`. -/
def replaceTextM (index : Nat) (text : String) : Editing Method Unit := do
  let _ ← Editing.look (·.instruction index)
  replaceM index (← Editing.look (·.assembleOne index text))

/-! ## Edited methods -/

def insertLabelled (method : Method) (index : Nat) (text : String)
    (labels : List ExternalLabel) : Except Error Method :=
  (insertLabelledM index text labels).result method

def insertText (method : Method) (index : Nat) (text : String) : Except Error Method :=
  (insertTextM index text).result method

def insertOne (method : Method) (index : Nat) (text : String) : Except Error Method :=
  (insertOneM index text).result method

def replaceText (method : Method) (index : Nat) (text : String) : Except Error Method :=
  (replaceTextM index text).result method

end DexGraft.Method
