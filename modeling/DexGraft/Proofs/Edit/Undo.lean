import DexGraft.Proofs.Edit.Labels

/-!
# Insertions undone

What has been put into a body can be taken out of it again: the removal of as many instructions at
the same index gives the body as it was, with the targets of its branches.  The main statement says
so of instructions and of texts; a run of insertions is undone by the removals in the opposite
order.
-/

namespace DexGraft

open Smali Outcome

/-- A target that was moved behind what is put in moves back, and none leads into the span that is
taken out. -/
@[simp] theorem Target.afterRemove_afterInsert (index count target : Nat) :
    Target.afterRemove index count (Target.afterInsert index count target) = target := by
  by_cases h : index ≤ target
  · rw [Target.afterInsert, if_pos h, Target.afterRemove, if_pos (Nat.add_le_add_right h count),
      Nat.add_sub_cancel]
  · rw [Target.afterInsert, if_neg h, Target.afterRemove, if_neg (by omega), if_neg (by omega)]

theorem Instruction.retarget_afterRemove_afterInsert (index count : Nat)
    (instruction : Instruction) :
    (instruction.retarget (Target.afterInsert index count)).retarget
      (Target.afterRemove index count) = instruction := by
  rw [Weave.retarget_retarget]
  simp only [Target.afterRemove_afterInsert]
  exact instruction.retarget_id

namespace Splice

/-- What an insertion has put into a list is the span that the removal takes out. -/
theorem edit_remove_edit_insert {α : Type} (fill fill' : Instruction → α) {index : Nat}
    {items : List Instruction} {l : List α} (fits : index ≤ l.length) :
    (remove index items.length).edit fill ((insert index items).edit fill' l) = l := by
  have hfront : (l.take index).length = index := List.length_take_of_le fits
  have hspan : (l.take index ++ items.map fill').length = index + items.length := by
    rw [List.length_append, hfront, List.length_map]
  rw [edit, edit, List.drop_left' hspan, List.append_assoc, List.take_left' hfront,
    List.take_append_drop]

end Splice

namespace Method

variable {method next : Method} {index : Nat}

/-- Taking out what was put in gives the method as it was. -/
theorem remove_of_insert {items : List Instruction} (h : method.insert index items = .ok next) :
    next.remove index items.length = .ok method := by
  have happly : (Splice.insert index items).apply method = .ok next := h
  obtain ⟨fits, rfl⟩ := Splice.apply_eq_ok_iff.mp happly
  have fits' : index ≤ method.body.length := fits
  show (Splice.remove index items.length).apply _ = .ok method
  refine Splice.apply_eq_ok_iff.mpr ⟨?_, ?_⟩
  · rw [Splice.length_of_apply happly]
    exact Nat.add_le_add_right fits' _
  · have hback : (method.body.map (.retarget (Target.afterInsert index items.length))).map
        (.retarget (Target.afterRemove index items.length)) = method.body := by
      rw [List.map_map, funext (f := _ ∘ _) (Instruction.retarget_afterRemove_afterInsert _ _)]
      exact List.map_id' _
    rw [Splice.map_edit]
    simp only [Splice.move]
    rw [hback, Splice.edit_remove_edit_insert _ _ fits']

/-- Insertions, one after the other. -/
def insertAll (method : Method) (puts : List (Nat × List Instruction)) : Except Error Method :=
  puts.foldlM (fun method put => method.insert put.1 put.2) method

/-- Removals of as many instructions, one after the other. -/
def removeAll (method : Method) (puts : List (Nat × List Instruction)) : Except Error Method :=
  puts.foldlM (fun method put => method.remove put.1 put.2.length) method

/-- Insertions are undone from the last one to the first. -/
theorem removeAll_reverse_of_insertAll {puts : List (Nat × List Instruction)}
    (h : method.insertAll puts = .ok next) : next.removeAll puts.reverse = .ok method := by
  induction puts generalizing method with
  | nil =>
      cases h
      rfl
  | cons put puts ih =>
      rw [insertAll, List.foldlM_cons] at h
      obtain ⟨middle, hmiddle, h⟩ := bind_eq_ok_iff.mp h
      have hrest : next.removeAll puts.reverse = .ok middle := ih h
      rw [removeAll] at hrest ⊢
      rw [List.reverse_cons, List.foldlM_append, hrest, ok_bind, List.foldlM_cons,
        remove_of_insert hmiddle]
      rfl

/-- At every position of a body, instructions can be put in, and taking out as many at the same
index gives the method as it was, with every target.  So does taking out as many instructions as the
lines of a text hold, wherever the text was put in. -/
theorem remove_undoes_insert (method : Method) :
    (∀ index ≤ method.body.length, ∀ items, ∃ next, method.insert index items = .ok next ∧
      next.body.length = method.body.length + items.length ∧
      next.remove index items.length = .ok method) ∧
    ∀ index text labels next, method.insertLabelled index text labels = .ok next →
      ∃ lines, Smali.lines text = .ok lines ∧
        next.body.length = method.body.length + instructionCount lines ∧
        next.remove index (instructionCount lines) = .ok method := by
  refine ⟨fun index fits items => ?_, fun index text labels next h => ?_⟩
  · obtain ⟨body, hlength, hnext⟩ := exists_insert fits items
    exact ⟨_, hnext, hlength, remove_of_insert hnext⟩
  · obtain ⟨-, -, items, hitems, happly⟩ := of_insertLabelled h
    obtain ⟨lines, hlines, hitems⟩ := bind_eq_ok_iff.mp hitems
    obtain ⟨_, -, hitems⟩ := bind_eq_ok_iff.mp hitems
    have hcount : items.length = instructionCount lines := length_of_instructions hitems
    refine ⟨lines, hlines, ?_, ?_⟩
    · rw [← hcount]
      exact Splice.length_of_apply happly
    · rw [← hcount]
      exact remove_of_insert happly

/-- Branches in front of the insertion, to where it is made and to the end of the body; the text
that is put in has a branch of its own and one to an instruction of the body. -/
theorem remove_undoes_insert_fourBranches :
    let method : Method := ⟨"La;", "b", [], "V", .empty, 1,
      [⟨.ifEqz, [0], none, none, some 0, none⟩, ⟨.ifNez, [0], none, none, some 1, none⟩,
        ⟨.goto, [], none, none, some 4, none⟩, { opcode := .returnVoid }]⟩
    let text := "if-eqz v0, :end\ngoto :out\n:end"
    let next : Method := { method with body :=
      [⟨.ifEqz, [0], none, none, some 0, none⟩, ⟨.ifEqz, [0], none, none, some 3, none⟩,
        ⟨.goto, [], none, none, some 5, none⟩, ⟨.ifNez, [0], none, none, some 3, none⟩,
        ⟨.goto, [], none, none, some 6, none⟩, { opcode := .returnVoid }] }
    method.insertLabelled 1 text [⟨"out", 3⟩] = .ok next ∧ next.remove 1 2 = .ok method ∧
      1 ≤ method.body.length ∧
      ∃ other, method.insert 1 [{ opcode := .nop }] = .ok other ∧ other.body.length = 5 ∧
        other.remove 1 1 = .ok method := by
  intro method text next
  have hinsert : method.insertLabelled 1 text [⟨"out", 3⟩] = .ok next := by decide +kernel
  obtain ⟨hitems, htext⟩ := remove_undoes_insert method
  obtain ⟨lines, -, hlength, hremove⟩ := htext 1 text _ next hinsert
  have hcount : instructionCount lines = 2 := Nat.add_left_cancel (n := 4) hlength.symm
  rw [hcount] at hremove
  have hindex : 1 ≤ method.body.length := by decide
  exact ⟨hinsert, hremove, hindex, hitems 1 hindex [{ opcode := .nop }]⟩

end Method

end DexGraft
