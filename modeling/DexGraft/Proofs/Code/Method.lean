import DexGraft.Code.Method
import DexGraft.Proofs.Editing

/-!
# Instructions put in, taken out and replaced

What an edit of a body by index comes to as a whole.  Each checks its index before it moves any
target, so one that fails leaves the method as it was.
-/

namespace DexGraft

@[simp] theorem Instruction.retarget_id (instruction : Instruction) :
    instruction.retarget id = instruction := by
  simp [retarget]

@[simp] theorem Target.afterInsert_zero (index : Nat) : Target.afterInsert index 0 = id := by
  funext target
  rw [afterInsert, Nat.add_zero, ite_self, id]

namespace Method

open Editing

variable {method : Method} {index count : Nat}

theorem insertM_comesTo (index : Nat) (items : List Instruction) (method : Method) :
    (insertM index items).ComesTo method (Except.map ((), ·) (
      if method.body.length < index then .error (method.outOfBounds index)
      else
        let moved := method.body.map (.retarget (Target.afterInsert index items.length))
        .ok { method with body := moved.take index ++ items ++ moved.drop index })) := by
  refine .get_bind ?_
  split
  · exact comesTo_throw _
  · split
    · -- putting nothing in moves no target either
      rename_i hempty
      have hsame : method.body.map (.retarget (Target.afterInsert index items.length)) =
          method.body := by
        rw [List.isEmpty_iff.mp hempty, List.length_nil, Target.afterInsert_zero]
        exact (List.map_congr_left fun item _ => item.retarget_id).trans (List.map_id _)
      dsimp only
      rw [hsame, List.isEmpty_iff.mp hempty, List.append_nil, List.take_append_drop]
      exact comesTo_pure ()
    · exact rfl

theorem removeM_comesTo (index count : Nat) (method : Method) :
    (removeM index count).ComesTo method (Except.map ((), ·) (
      if method.body.length < index + count then
        .error (method.outOfBounds (min (index + count) (UInt64.size - 1)))
      else
        let kept := method.body.take index ++ method.body.drop (index + count)
        .ok { method with body := kept.map (.retarget (Target.afterRemove index count)) })) := by
  refine .get_bind ?_
  split
  · exact comesTo_throw _
  · exact rfl

theorem replaceM_comesTo (index : Nat) (item : Instruction) (method : Method) :
    (replaceM index item).ComesTo method (Except.map ((), ·) (
      if index < method.body.length then .ok { method with body := method.body.set index item }
      else .error (method.outOfBounds index))) := by
  refine .get_bind ?_
  split
  · exact comesTo_modify _
  · exact comesTo_throw _

/-! ## Edited methods -/

theorem insert_eq (method : Method) (index : Nat) (items : List Instruction) :
    method.insert index items =
      if method.body.length < index then .error (method.outOfBounds index)
      else
        let moved := method.body.map (.retarget (Target.afterInsert index items.length))
        .ok { method with body := moved.take index ++ items ++ moved.drop index } :=
  (insertM_comesTo index items method).result_eq

theorem remove_eq (method : Method) (index count : Nat) :
    method.remove index count =
      if method.body.length < index + count then
        .error (method.outOfBounds (min (index + count) (UInt64.size - 1)))
      else
        let kept := method.body.take index ++ method.body.drop (index + count)
        .ok { method with body := kept.map (.retarget (Target.afterRemove index count)) } :=
  (removeM_comesTo index count method).result_eq

theorem replace_eq (method : Method) (index : Nat) (item : Instruction) :
    method.replace index item =
      if index < method.body.length then .ok { method with body := method.body.set index item }
      else .error (method.outOfBounds index) :=
  (replaceM_comesTo index item method).result_eq

end Method

end DexGraft
