import DexGraft.Edit.Insertion
import DexGraft.Proofs.Code.Method

/-!
# Edits by text

What an edit of a body by text comes to as a whole.  The text is assembled before anything is moved,
so a text that is refused leaves the method as it was.
-/

namespace DexGraft.Method

open Editing Outcome

theorem insertLabelledM_comesTo (index : Nat) (text : String) (labels : List ExternalLabel)
    (method : Method) : (insertLabelledM index text labels).ComesTo method (Except.map ((), ·) (
      if method.body.length < index then .error (method.outOfBounds index)
      else match labels.find? (method.body.length ≤ ·.index) with
        | some label => .error (method.outOfBounds label.index)
        | none => Smali.assembleAt text method index labels >>= method.insert index)) := by
  refine .get_bind ?_
  dsimp only
  split
  · exact comesTo_throw _
  · cases labels.find? (method.body.length ≤ ·.index) with
    | some label => exact comesTo_throw _
    | none =>
        dsimp only
        rw [Outcome.map_bind]
        exact .look_bind fun items _ => (insertM_comesTo index items method).made

theorem insertTextM_comesTo (index : Nat) (text : String) (method : Method) :
    (insertTextM index text).ComesTo method (Except.map ((), ·) (
      if method.body.length < index then .error (method.outOfBounds index)
      else Smali.assembleAt text method index [] >>= method.insert index)) :=
  insertLabelledM_comesTo index text [] method

theorem insertOneM_comesTo (index : Nat) (text : String) (method : Method) :
    (insertOneM index text).ComesTo method (Except.map ((), ·) (
      method.assembleOne index text >>= fun item => method.insert index [item])) := by
  rw [Outcome.map_bind]
  exact .look_bind fun item _ => (insertM_comesTo index [item] method).made

theorem replaceTextM_comesTo (index : Nat) (text : String) (method : Method) :
    (replaceTextM index text).ComesTo method (Except.map ((), ·) (
      method.instruction index >>= fun _ =>
        method.assembleOne index text >>= method.replace index)) := by
  rw [Outcome.map_bind]
  refine .look_bind fun _ _ => ?_
  rw [Outcome.map_bind]
  exact .look_bind fun item _ => (replaceM_comesTo index item method).made

/-! ## Edited methods -/

theorem insertLabelled_eq (method : Method) (index : Nat) (text : String)
    (labels : List ExternalLabel) : method.insertLabelled index text labels =
      if method.body.length < index then .error (method.outOfBounds index)
      else match labels.find? (method.body.length ≤ ·.index) with
        | some label => .error (method.outOfBounds label.index)
        | none => Smali.assembleAt text method index labels >>= method.insert index :=
  (insertLabelledM_comesTo index text labels method).result_eq

theorem insertText_eq (method : Method) (index : Nat) (text : String) :
    method.insertText index text =
      if method.body.length < index then .error (method.outOfBounds index)
      else Smali.assembleAt text method index [] >>= method.insert index :=
  (insertTextM_comesTo index text method).result_eq

theorem insertOne_eq (method : Method) (index : Nat) (text : String) :
    method.insertOne index text =
      method.assembleOne index text >>= fun item => method.insert index [item] :=
  (insertOneM_comesTo index text method).result_eq

theorem replaceText_eq (method : Method) (index : Nat) (text : String) :
    method.replaceText index text = method.instruction index >>= fun _ =>
      method.assembleOne index text >>= method.replace index :=
  (replaceTextM_comesTo index text method).result_eq

end DexGraft.Method
