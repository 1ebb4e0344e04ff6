import DexGraft.Edit.Insertion

/-!
# Editors

An editor changes a method and keeps marks in it. A mark stays with the instruction it was put on,
whatever is put in or taken out around it; it means nothing to any other editor.
-/

namespace DexGraft

/-- The number of an editor, and the number of the mark among those of the editor. -/
structure Mark where
  editor : Nat
  slot : Nat
deriving DecidableEq, Repr

structure Editor where
  /-- Tells the editors apart that are in use at the same time. -/
  id : Nat
  method : Method
  /-- Where the marks stand, the oldest one first. -/
  marks : List Nat := []
deriving DecidableEq, Repr

namespace Editor

/-- An editor of a method, with the number that is next; the counter moves on. -/
def new (method : Method) : StateM Nat Editor :=
  modifyGet fun next => ({ id := next, method }, next + 1)

/-- Edits the method in place. -/
def editMethod (edit : Editing Method Unit) : Editing Editor Unit :=
  Editing.zoom (fun editor => .ok editor.method) (fun method editor => { editor with method }) edit

/-- Moves all marks. -/
def moveMarks (move : Nat → Nat) : Editing Editor Unit :=
  modify fun editor => { editor with marks := editor.marks.map move }

/-- Puts a mark on an instruction, or behind the last one. -/
def markM (index : Nat) : Editing Editor Mark := do
  let editor ← get
  if editor.method.body.length < index then throw (editor.method.outOfBounds index)
  else do
    modify fun editor => { editor with marks := editor.marks ++ [index] }
    pure ⟨editor.id, editor.marks.length⟩

/-- Where a mark stands now. -/
def position (editor : Editor) (mark : Mark) : Except Error Nat :=
  match editor.marks[mark.slot]? with
  | some position =>
    if mark.editor = editor.id then .ok position else .error (.foreignMark mark.slot)
  | none => .error (.foreignMark mark.slot)

/-- The first register of the marked instruction. -/
def registerAt (editor : Editor) (mark : Mark) : Except Error Register := do
  editor.method.registerAt (← editor.position mark)

/-- Puts instructions in at `index`, and gives their number. -/
def insertLabelledM (index : Nat) (text : String) (labels : List ExternalLabel) :
    Editing Editor Nat := do
  let before := (← get).method.body.length
  editMethod (Method.insertLabelledM index text labels)
  let added := (← get).method.body.length - before
  moveMarks fun place => if index ≤ place then place + added else place
  pure added

def insertM (index : Nat) (text : String) : Editing Editor Nat := insertLabelledM index text []

/-- Puts instructions in front of the marked one. -/
def insertAtM (mark : Mark) (text : String) : Editing Editor Nat := do
  insertM (← Editing.look (·.position mark)) text

/-- Puts instructions in right behind the marked one. -/
def insertAfterM (mark : Mark) (text : String) : Editing Editor Nat := do
  insertM ((← Editing.look (·.position mark)) + 1) text

/-- Takes out the instruction at `index`. -/
def removeM (index : Nat) : Editing Editor Unit := do
  editMethod (Method.removeM index 1)
  moveMarks fun place => if index < place then place - 1 else place

end Editor

end DexGraft
