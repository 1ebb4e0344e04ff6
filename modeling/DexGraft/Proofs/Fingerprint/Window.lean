import DexGraft.Fingerprint.Basic
import DexGraft.Proofs.Outcome

/-!
# Windows

What a fingerprint has found is there: the run of its window holds the opcodes of its pattern.
-/

namespace DexGraft

open Outcome

namespace OpcodePattern

variable {pattern : OpcodePattern} {body : List Instruction}

/-- Instructions that begin with a run that fits have the opcodes of the pattern, one by one. -/
theorem of_fits (h : pattern.fits body) {i : Nat} {opcode : Opcode}
    (hplace : pattern[i]? = some (some opcode)) :
    ∃ instruction, body[i]? = some instruction ∧ instruction.opcode = opcode := by
  induction pattern generalizing body i with
  | nil => cases hplace
  | cons place pattern ih =>
      cases body with
      | nil => cases h
      | cons instruction body =>
          rw [fits, Bool.and_eq_true] at h
          cases i with
          | zero =>
              cases hplace
              exact ⟨instruction, rfl, (beq_iff_eq.mp h.1).symm⟩
          | succ i => exact ih h.2 hplace

theorem fits_of_findFit? {first : Nat} (h : pattern.findFit? body = some first) :
    pattern.fits (body.drop first) := by
  induction body generalizing first with
  | nil => cases h
  | cons instruction body ih =>
      rw [findFit?] at h
      split at h
      · cases h
        assumption
      · obtain ⟨first, hfirst, rfl⟩ := Option.map_eq_some_iff.mp h
        exact ih hfirst

/-- The window that is found for a pattern is as long as the pattern and has its opcodes. -/
theorem of_scan {window : Window} (h : pattern.scan body = some window) :
    window.last + 1 = window.first + pattern.length ∧
      ∀ i opcode, pattern[i]? = some (some opcode) →
        ∃ instruction, body[window.first + i]? = some instruction ∧
          instruction.opcode = opcode := by
  rw [scan] at h
  split at h
  · cases h
  rename_i hne
  obtain ⟨first, hfirst, rfl⟩ := Option.map_eq_some_iff.mp h
  have hlength : 0 < pattern.length := List.length_pos_iff.mpr (by simpa using hne)
  refine ⟨by dsimp only; omega, fun i opcode hplace => ?_⟩
  obtain ⟨instruction, hinstruction, hopcode⟩ := of_fits (fits_of_findFit? hfirst) hplace
  rw [List.getElem?_drop] at hinstruction
  exact ⟨instruction, hinstruction, hopcode⟩

end OpcodePattern

/-- A fingerprint with a pattern is found in a method that has its opcodes where the window says. -/
theorem Fingerprint.of_resolveAt? {fingerprint : Fingerprint} {pattern : OpcodePattern}
    {pool : ClassPool} {id : MethodId} {resolution : Resolution} {window : Window}
    (hpattern : fingerprint.pattern = some pattern)
    (h : fingerprint.resolveAt? pool id = some resolution)
    (hwindow : resolution.window = .ok window) :
    ∃ method, pool.method? id = some method ∧ window.last + 1 = window.first + pattern.length ∧
      ∀ i opcode, pattern[i]? = some (some opcode) →
        ∃ instruction, method.body[window.first + i]? = some instruction ∧
          instruction.opcode = opcode := by
  rw [resolveAt?] at h
  obtain ⟨cls, hcls, h⟩ := Option.bind_eq_some_iff.mp h
  obtain ⟨method, hmethod, h⟩ := Option.bind_eq_some_iff.mp h
  obtain ⟨scan, hscan, h⟩ := Option.bind_eq_some_iff.mp h
  cases h
  rw [scan?] at hscan
  split at hscan
  · obtain ⟨strings, -, hscan⟩ := Option.bind_eq_some_iff.mp hscan
    rw [hpattern] at hscan
    obtain ⟨found, hfound, hscan⟩ := Option.bind_eq_some_iff.mp hscan
    cases hscan
    cases hwindow
    refine ⟨method, ?_, OpcodePattern.of_scan hfound⟩
    rw [ClassPool.method?, hcls, Option.bind_some, hmethod]
  · cases hscan

end DexGraft
