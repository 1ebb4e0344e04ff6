import DexGraft.Proofs.Code.Widening
import DexGraft.Proofs.Patch.Inject

/-!
# One call and nothing else

What has changed when a call was added at a hook point, whatever characters its descriptor is made of:
one method has one instruction more, and this is the call that the descriptor names.
-/

namespace DexGraft

open Outcome

/-! ## The method -/

/-- The method has one instruction more, at the index.  All others are still there, in order, and what
led to one of them leads to it now. -/
structure Method.Gains (index : Nat) (item : Instruction) (old new : Method) : Prop
    extends Method.Moved (Target.afterInsert index 1) old new where
  bound : index ≤ old.body.length
  added : new.body[index]? = some item
  length : new.body.length = old.body.length + 1

theorem Method.gains_of_insert {method changed : Method} {index : Nat} {item : Instruction}
    (h : method.insert index [item] = .ok changed) : method.Gains index item changed := by
  have applied : (Splice.insert index [item]).apply method = .ok changed := h
  exact {
    toMoved := moved_of_insert h
    bound := (Splice.apply_eq_ok_iff.mp applied).1
    added := Splice.getElem?_of_insert h
    length := Splice.length_of_apply applied }

/-! ## The call -/

namespace HookPoint

/-- A call is accepted if its parameters take the registers of the point, and there are not too many. -/
theorem fits_of_readCall {point : HookPoint} {name descriptor : String} {target : MethodRef}
    (h : point.readCall name descriptor = .ok target) :
    Descriptor.totalWidth target.parameters = point.registers.length ∧
      point.registers.length ≤ maxRegisters := by
  obtain ⟨target', -, hfits⟩ := bind_eq_ok_iff.mp h
  dsimp only at hfits
  split at hfits
  · cases hfits
  · rename_i hwidth
    cases hfits
    rw [not_or, not_not, Nat.not_lt] at hwidth
    exact ⟨hwidth.1, hwidth.1 ▸ hwidth.2⟩

end HookPoint

namespace HookRegistry

/-- A call that is added was accepted by its point. -/
theorem readCall_of_inject {hooks : HookRegistry} {pool : ClassPool} {name descriptor : String}
    {index : Nat} (h : (hooks.inject pool name descriptor).1 = .ok index) :
    ∃ point target, hooks.get? name = some point ∧ point.readCall name descriptor = .ok target := by
  rw [inject_eq] at h
  split at h
  · cases h
  · rename_i target _ _ hplaced
    obtain ⟨point, hprepare, -⟩ := of_place hplaced
    exact ⟨point, target, of_prepare hprepare⟩

/-- A call that is added is the one instruction that its method has more: it calls what the descriptor
reads as, with the registers of the point, which are as many as the parameters take and five at most.
A call that is not added changes no method, and no point counts it. -/
theorem inject_adds_one_call (hooks : HookRegistry) (pool : ClassPool) (name descriptor : String) :
    match hooks.inject pool name descriptor with
    | (.ok index, hooks', pool') =>
      ∃ point now target method changed,
        hooks.get? name = some point ∧ MethodRef.parse descriptor = .ok target ∧
        Descriptor.totalWidth target.parameters = point.registers.length ∧
        point.registers.length ≤ 5 ∧
        pool.method? point.method = some method ∧
        method.Gains index
          ⟨.invokeStatic, point.registers, none, some (.method target), none, none⟩ changed ∧
        pool' = pool.setMethod point.method changed ∧
        (∀ other, other ≠ point.method → pool'.method? other = pool.method? other) ∧
        hooks'.get? name = some now ∧ now.spot = point.spot ∧ now.registers = point.registers ∧
        now.injected = point.injected + 1 ∧
        ∀ other, other ≠ name → hooks'.get? other = hooks.get? other
    | (.error _, hooks', pool') =>
      pool' = pool ∧
        ∀ other, (hooks'.get? other).map (·.injected) = (hooks.get? other).map (·.injected) := by
  have injects := hooks.injects_inject pool name descriptor
  have accepted := @readCall_of_inject hooks pool name descriptor
  generalize hooks.inject pool name descriptor = outcome at injects accepted ⊢
  cases injects with
  | refused e => exact ⟨rfl, fun other => rfl⟩
  | @kept point located e found same =>
      refine ⟨rfl, fun other => ?_⟩
      rw [get?_register]
      split
      · rename_i heq
        rw [heq, found, Option.map_some, Option.map_some, same.injected]
      · rfl
  | @added point located target method changed found parsed body locates inserted =>
      obtain ⟨point', target', found', hread⟩ := accepted rfl
      cases found.symm.trans found'
      cases parsed.symm.trans (HookPoint.parse_of_readCall hread)
      obtain ⟨hwidth, hcount⟩ := HookPoint.fits_of_readCall hread
      have same := (HookPoint.of_locate locates).1
      refine ⟨point, { located with injected := point.injected + 1 }, target, method, changed, found,
        parsed, hwidth, hcount, body, Method.gains_of_insert inserted, rfl, fun other hne => ?_, ?_,
        same.spot, same.registers, rfl, fun other hne => ?_⟩
      · exact ClassPool.method?_setMethod_of_ne hne pool changed
      · rw [get?_register, if_pos rfl]
      · rw [get?_register, if_neg hne]

/-- A name with a comment mark, a comma and a brace between quotes is called, in front of a branch to
the beginning.  The same name without the quotes is refused. -/
theorem inject_adds_one_call_quoted :
    let branch : Instruction := { opcode := .ifEqz, registers := [0], target := some 0 }
    let target : MethodRef := ⟨"La;", "f\"#,\x7b\"", ["I"], "V"⟩
    let call : Instruction := ⟨.invokeStatic, [0], none, some (.method target), none, none⟩
    let hooks := register {} "h" (.atEntry ⟨0, 0⟩ [0])
    let pool := ClassPool.ofBody [branch]
    let added := hooks.inject pool "h" " La;->f\"#,\x7b\"(I)V\n"
    let refused := hooks.inject pool "h" "La;->f#,\x7b(I)V"
    added.1 = .ok 0 ∧
      (∃ changed, (Method.ofBody [branch]).Gains 0 call changed ∧
        added.2.2 = pool.setMethod ⟨0, 0⟩ changed) ∧
    refused.1 = .error (.assembly 1 (.invalidReference "Invalid descriptor: La;->f")) ∧
      refused.2.2 = pool := by
  intro branch target call hooks pool added refused
  have hadded : added = (.ok 0, added.2.1, added.2.2) := by
    have hok : added.1 = .ok 0 := by decide +kernel
    rw [← hok]
  have hrefused : refused =
      (.error (.assembly 1 (.invalidReference "Invalid descriptor: La;->f")), refused.2.1,
        refused.2.2) := by
    have herror : refused.1 =
        .error (.assembly 1 (.invalidReference "Invalid descriptor: La;->f")) := by decide +kernel
    rw [← herror]
  have hparsed : MethodRef.parse " La;->f\"#,\x7b\"(I)V\n" = .ok target := by decide +kernel
  have hpoint : hooks.get? "h" = some (.atEntry ⟨0, 0⟩ [0]) := by decide +kernel
  have hcall := inject_adds_one_call hooks pool "h" " La;->f\"#,\x7b\"(I)V\n"
  have hkept := inject_adds_one_call hooks pool "h" "La;->f#,\x7b(I)V"
  rw [show hooks.inject pool "h" " La;->f\"#,\x7b\"(I)V\n" = _ from hadded] at hcall
  rw [show hooks.inject pool "h" "La;->f#,\x7b(I)V" = _ from hrefused] at hkept
  obtain ⟨point, now, target', method, changed, hpoint', hparsed', -, -, hmethod, gains, hset, -⟩ :=
    hcall
  cases hpoint.symm.trans hpoint'
  cases hparsed.symm.trans hparsed'
  cases hmethod
  exact ⟨congrArg Prod.fst hadded, ⟨changed, gains, hset⟩, congrArg Prod.fst hrefused, hkept.1⟩

end HookRegistry

end DexGraft
