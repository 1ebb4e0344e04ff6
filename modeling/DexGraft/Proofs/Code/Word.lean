import DexGraft.Proofs.Code.Splice

/-!
# Indices of 64 bits

The index of an instruction is a number of 64 bits.  Indices are counted here without a bound; after a
splice the branches lead to such numbers, unless there are more instructions than can be counted, or a
branch had to be moved past them.
-/

namespace DexGraft

/-- The target, if there is one, is a number of 64 bits. -/
def Instruction.IsWord (instruction : Instruction) : Prop :=
  ∀ target ∈ instruction.target, target < UInt64.size

namespace Method

variable {method next : Method}

def IsWord (method : Method) : Prop := ∀ instruction ∈ method.body, instruction.IsWord

/-- The index of an instruction, or a target moved behind as many as were put in, is past 64 bits. -/
inductive Overflows (method next : Method) : Prop
  | length (long : UInt64.size ≤ next.body.length)
  | target {instruction : Instruction} {target : Nat} (mem : instruction ∈ method.body)
      (leads : instruction.target = some target)
      (far : UInt64.size ≤ target + (next.body.length - method.body.length))

theorem isWord_of_targetsBounded (bounded : method.TargetsBounded)
    (h : method.body.length < UInt64.size) : method.IsWord :=
  fun instruction hmem target htarget => (bounded instruction hmem target htarget).trans_lt h

/-- Indices that a body is too long for do not fit a longer one either. -/
theorem Overflows.mono {longer : Method} (h : method.Overflows next)
    (hlength : next.body.length ≤ longer.body.length) : method.Overflows longer := by
  cases h with
  | length long => exact .length (long.trans hlength)
  | target mem leads far => exact .target mem leads (by omega)

end Method

namespace Splice

variable {splice : Splice} {method next : Method}

/-- A target is moved by no more than what is put in. -/
theorem move_le (splice : Splice) (length target : Nat) :
    splice.move target ≤ target + (splice.size length - length) := by
  cases splice with
  | insert index items =>
      rw [move, size, Target.afterInsert]
      split <;> omega
  | remove index count =>
      rw [move, Target.afterRemove]
      split <;> [omega; (split <;> omega)]

/-- What stands in a spliced body was put in, or is an instruction of the old one with its target
moved. -/
theorem of_mem_body_of_apply (h : splice.apply method = .ok next) {instruction : Instruction}
    (hmem : instruction ∈ next.body) :
    instruction ∈ splice.items ∨
      ∃ old ∈ method.body, instruction = old.retarget splice.move := by
  obtain ⟨fits, rfl⟩ := apply_eq_ok_iff.mp h
  obtain ⟨place, hplace⟩ := List.mem_iff_getElem?.mp hmem
  rcases of_getElem?_edit (by simpa using fits) hplace with
    ⟨item, hitem, rfl⟩ | ⟨source, hsource, -, -⟩
  · exact .inl hitem
  · rw [List.getElem?_map, Option.map_eq_some_iff] at hsource
    obtain ⟨old, hold, rfl⟩ := hsource
    exact .inr ⟨old, List.mem_of_getElem? hold, rfl⟩

theorem isWord_of_apply (applied : splice.apply method = .ok next)
    (aims : splice.Aims next.body.length) (fits : ¬ method.Overflows next) : next.IsWord := by
  have hlength : next.body.length < UInt64.size := Nat.lt_of_not_le fun long => fits (.length long)
  intro instruction hmem target htarget
  rcases of_mem_body_of_apply applied hmem with hitem | ⟨old, hold, rfl⟩
  · exact (aims instruction hitem target htarget).trans_lt hlength
  · obtain ⟨before, hbefore, rfl⟩ := Option.map_eq_some_iff.mp htarget
    refine lt_of_le_of_lt (splice.move_le method.body.length before) (Nat.lt_of_not_le ?_)
    rw [← length_of_apply applied]
    exact fun hpast => fits (.target hold hbefore hpast)

end Splice

end DexGraft
