import DexGraft.Proofs.Code.Splice
import DexGraft.Proofs.Patch.Attempt
import Mathlib.Order.Monotone.Basic

/-!
# Where calls get to

A call is put in at an index, and every later call that is put in into the same method at this index or
in front of it moves it.  This file follows each call to where it stands in the end, for any points and
any pool: calls never change places with each other, so the calls of a point are in order exactly if
each was put in behind those before it.
-/

namespace DexGraft

open Outcome

/-- The attempt with the number succeeded at the point with the name. -/
def Succeeds (attempts : List Attempt) (name : String) (number index : Nat) : Prop :=
  ∃ descriptor, attempts[number]? = some ⟨name, descriptor, .ok index⟩

namespace Succeeds

variable {attempts : List Attempt} {name : String} {number index : Nat}

theorem lt_length (h : Succeeds attempts name number index) : number < attempts.length := by
  obtain ⟨descriptor, hattempt⟩ := h
  exact (List.getElem?_eq_some_iff.mp hattempt).1

theorem append (h : Succeeds attempts name number index) (others : List Attempt) :
    Succeeds (attempts ++ others) name number index := by
  obtain ⟨descriptor, hattempt⟩ := h
  refine ⟨descriptor, ?_⟩
  rw [List.getElem?_append_left (List.getElem?_eq_some_iff.mp hattempt).1, hattempt]

theorem take (h : Succeeds attempts name number index) {count : Nat} (hlt : number < count) :
    Succeeds (attempts.take count) name number index := by
  obtain ⟨descriptor, hattempt⟩ := h
  exact ⟨descriptor, by rw [List.getElem?_take_of_lt hlt, hattempt]⟩

end Succeeds

namespace HookRegistry

/-- Where a place in a method gets to when an attempt is made. -/
def carry (hooks : HookRegistry) (id : MethodId) (place : Nat) (attempt : Attempt) : Nat :=
  match attempt.result with
  | .ok index =>
    if (hooks.get? attempt.name).map (·.method) = some id then Target.afterInsert index 1 place
    else place
  | .error _ => place

/-- Where a place in a method gets to when attempts are made. -/
def carries (hooks : HookRegistry) (id : MethodId) (attempts : List Attempt) (place : Nat) : Nat :=
  attempts.foldl (hooks.carry id) place

/-- Where the call of the attempt with the number stands after all attempts, if it succeeded. -/
def standing? (hooks : HookRegistry) (attempts : List Attempt) (number : Nat) : Option Nat := do
  let attempt ← attempts[number]?
  let index ← attempt.result.toOption
  let point ← hooks.get? attempt.name
  some (hooks.carries point.method (attempts.drop (number + 1)) index)

/-- The calls of a point stand in the order in which they were put in. -/
def InOrder (hooks : HookRegistry) (attempts : List Attempt) (name : String) : Prop :=
  ∀ {i j index index' place place' : Nat}, i < j → Succeeds attempts name i index →
    Succeeds attempts name j index' → hooks.standing? attempts i = some place →
      hooks.standing? attempts j = some place' → place < place'

variable {hooks : HookRegistry} {attempts others : List Attempt} {name : String} {point : HookPoint}
  {number index : Nat}

/-! ## Places keep their order -/

theorem strictMono_carry (hooks : HookRegistry) (id : MethodId) (attempt : Attempt) :
    StrictMono (hooks.carry id · attempt) := by
  intro a b hlt
  dsimp only [carry]
  split
  · split
    · rw [Target.afterInsert, Target.afterInsert]
      split <;> split <;> omega
    · exact hlt
  · exact hlt

theorem strictMono_carries (hooks : HookRegistry) (id : MethodId) (attempts : List Attempt) :
    StrictMono (hooks.carries id attempts) := by
  induction attempts with
  | nil => exact strictMono_id
  | cons attempt attempts ih => exact ih.comp (strictMono_carry hooks id attempt)

/-- A call that is put in into the method moves the place, and no other call does. -/
theorem carry_ok (hpoint : hooks.get? name = some point) (id : MethodId) (place index : Nat)
    (descriptor : String) :
    hooks.carry id place ⟨name, descriptor, .ok index⟩ =
      if point.method = id then Target.afterInsert index 1 place else place := by
  simp only [carry, hpoint, Option.map_some, Option.some.injEq]

theorem standing?_of_succeeds (hpoint : hooks.get? name = some point)
    (h : Succeeds attempts name number index) :
    hooks.standing? attempts number =
      some (hooks.carries point.method (attempts.drop (number + 1)) index) := by
  obtain ⟨descriptor, hattempt⟩ := h
  simp only [standing?, hattempt, hpoint, Except.toOption, Option.bind_some, bind]

theorem exists_of_standing? {place : Nat} (hstanding : hooks.standing? attempts number = some place)
    (h : Succeeds attempts name number index) : ∃ point, hooks.get? name = some point := by
  obtain ⟨descriptor, hattempt⟩ := h
  rw [standing?, hattempt] at hstanding
  cases hpoint : hooks.get? name with
  | none => simp [hpoint, Except.toOption] at hstanding
  | some point => exact ⟨point, rfl⟩

/-- Later attempts move a call from where it stood before them. -/
theorem standing?_append (hpoint : hooks.get? name = some point)
    (h : Succeeds attempts name number index) (others : List Attempt) :
    hooks.standing? (attempts ++ others) number =
      (hooks.standing? attempts number).map (hooks.carries point.method others) := by
  rw [standing?_of_succeeds hpoint h, standing?_of_succeeds hpoint (h.append others),
    List.drop_append_of_le_length h.lt_length, Option.map_some, carries, List.foldl_append, carries,
    carries]

/-- The call of the last attempt stands where it was put in. -/
theorem standing?_concat_length (hpoint : hooks.get? name = some point) (attempts : List Attempt)
    (descriptor : String) (index : Nat) :
    hooks.standing? (attempts ++ [⟨name, descriptor, .ok index⟩]) attempts.length = some index := by
  rw [standing?_of_succeeds hpoint ⟨descriptor, List.getElem?_concat_length⟩,
    List.drop_eq_nil_of_le (by simp), carries, List.foldl_nil]

/-- Which of two calls of a point stands in front was decided when the second was put in. -/
theorem standing?_lt_iff {i j index index' place : Nat} (hlt : i < j)
    (hpoint : hooks.get? name = some point) (hi : Succeeds attempts name i index)
    (hj : Succeeds attempts name j index')
    (hplace : hooks.standing? (attempts.take j) i = some place) :
    ∃ final final', hooks.standing? attempts i = some final ∧
      hooks.standing? attempts j = some final' ∧ (final < final' ↔ place < index') := by
  have hfirst := standing?_append hpoint (hi.take hlt) (attempts.drop j)
  rw [List.take_append_drop, hplace, Option.map_some] at hfirst
  refine ⟨_, _, hfirst, standing?_of_succeeds hpoint hj, ?_⟩
  obtain ⟨descriptor, hattempt⟩ := hj
  obtain ⟨hlength, hget⟩ := List.getElem?_eq_some_iff.mp hattempt
  have hsplit : hooks.carries point.method (attempts.drop j) place =
      hooks.carries point.method (attempts.drop (j + 1)) (Target.afterInsert index' 1 place) := by
    rw [List.drop_eq_getElem_cons hlength, hget, carries, List.foldl_cons, carry_ok hpoint, if_pos rfl,
      carries]
  rw [hsplit, (strictMono_carries hooks point.method _).lt_iff_lt, Target.afterInsert]
  split <;> omega

/-- In general, the calls of a point are in order exactly if each was put in behind where those before
it stood then. -/
theorem inOrder_iff_behind (hooks : HookRegistry) (attempts : List Attempt) (name : String) :
    hooks.InOrder attempts name ↔ ∀ {i j index index' place : Nat}, i < j →
      Succeeds attempts name i index → Succeeds attempts name j index' →
        hooks.standing? (attempts.take j) i = some place → place < index' := by
  constructor
  · intro h i j index index' place hlt hi hj hplace
    obtain ⟨point, hpoint⟩ := exists_of_standing? hplace (hi.take hlt)
    obtain ⟨final, final', hfinal, hfinal', hiff⟩ := standing?_lt_iff hlt hpoint hi hj hplace
    exact hiff.mp (h hlt hi hj hfinal hfinal')
  · intro h i j index index' final final' hlt hi hj hfinal hfinal'
    obtain ⟨point, hpoint⟩ := exists_of_standing? hfinal hi
    have hplace := standing?_of_succeeds hpoint (hi.take hlt)
    obtain ⟨_, _, hfirst, hsecond, hiff⟩ := standing?_lt_iff hlt hpoint hi hj hplace
    rw [hfinal, Option.some.injEq] at hfirst
    rw [hfinal', Option.some.injEq] at hsecond
    rw [hfirst, hsecond]
    exact hiff.mpr (h hlt hi hj hplace)

/-! ## Calls stand where they are followed to -/

/-- Every point is one of those that there were, with its method and its registers. -/
def Retains (hooks hooks' : HookRegistry) : Prop :=
  ∀ name point', hooks'.get? name = some point' → ∃ point, hooks.get? name = some point ∧
    point'.method = point.method ∧ point'.registers = point.registers

/-- What the attempts so far have made of the points and the pool: every call that was put in stands
where it is followed to. -/
structure Followed (hooks : HookRegistry) (attempts : List Attempt) (hooks' : HookRegistry)
    (pool' : ClassPool) : Prop where
  points : hooks.Retains hooks'
  calls : ∀ {name descriptor number index},
    attempts[number]? = some ⟨name, descriptor, .ok index⟩ → ∃ point target place method,
      hooks.get? name = some point ∧ MethodRef.parse descriptor = .ok target ∧
      hooks.standing? attempts number = some place ∧ pool'.method? point.method = some method ∧
      method.body[place]? = some (point.call target)

variable {hooks' hooks'' : HookRegistry} {pool' pool'' : ClassPool}

theorem followed_nil (hooks : HookRegistry) (pool : ClassPool) : Followed hooks [] hooks pool :=
  ⟨fun _ point hpoint => ⟨point, hpoint, rfl, rfl⟩, nofun⟩

/-- A point may be registered again if it keeps its method and its registers. -/
theorem Retains.register (h : hooks.Retains hooks') {point' : HookPoint}
    (hfound : hooks'.get? name = some point') {located : HookPoint}
    (hmethod : located.method = point'.method) (hregisters : located.registers = point'.registers) :
    hooks.Retains (hooks'.register name located) := by
  intro other found hother
  rw [get?_register] at hother
  split at hother
  · rename_i heq
    cases hother
    obtain ⟨point, hpoint, hmethod', hregisters'⟩ := h _ _ hfound
    exact ⟨point, heq ▸ hpoint, hmethod.trans hmethod', hregisters.trans hregisters'⟩
  · exact h _ _ hother

/-- An attempt that fails moves nothing. -/
theorem Followed.concat_error (h : Followed hooks attempts hooks' pool') {descriptor : String}
    {e : Error} (hpoints : hooks.Retains hooks'') :
    Followed hooks (attempts ++ [⟨name, descriptor, .error e⟩]) hooks'' pool' := by
  refine ⟨hpoints, fun {other descriptor' number index} hattempt => ?_⟩
  rw [List.getElem?_append] at hattempt
  split at hattempt
  · obtain ⟨point, target, place, method, hpoint, hparsed, hstanding, hmethod, hcall⟩ :=
      h.calls hattempt
    refine ⟨point, target, place, method, hpoint, hparsed, ?_, hmethod, hcall⟩
    rw [standing?_append hpoint ⟨descriptor', hattempt⟩, hstanding]
    rfl
  · rw [List.getElem?_singleton] at hattempt
    split at hattempt <;> cases hattempt

/-- A call that is put in stands where it was put in, and the others where it has moved them. -/
theorem Followed.concat_ok (h : Followed hooks attempts hooks' pool') {descriptor : String}
    {target : MethodRef} {method changed : Method} (hpoint : hooks.get? name = some point)
    (hparsed : MethodRef.parse descriptor = .ok target)
    (hmethod : pool'.method? point.method = some method)
    (hinserted : method.insert index [point.call target] = .ok changed)
    (hpoints : hooks.Retains hooks'') :
    Followed hooks (attempts ++ [⟨name, descriptor, .ok index⟩]) hooks''
      (pool'.setMethod point.method changed) := by
  refine ⟨hpoints, fun {other descriptor' number index'} hattempt => ?_⟩
  rw [List.getElem?_append] at hattempt
  split at hattempt
  · obtain ⟨point', target', place, method', hpoint', hparsed', hstanding, hmethod', hcall⟩ :=
      h.calls hattempt
    have happended := standing?_append hpoint' ⟨descriptor', hattempt⟩ [⟨name, descriptor, .ok index⟩]
    rw [hstanding, Option.map_some, carries, List.foldl_cons, List.foldl_nil,
      carry_ok hpoint] at happended
    by_cases hsame : point.method = point'.method
    · rw [if_pos hsame] at happended
      rw [← hsame, hmethod] at hmethod'
      cases hmethod'
      have hmoved := Splice.getElem?_afterInsert_of_insert hinserted place
      rw [hcall, Option.map_some, Weave.retarget_of_target_eq_none rfl] at hmoved
      refine ⟨point', target', _, changed, hpoint', hparsed', happended, ?_, hmoved⟩
      rw [← hsame, ClassPool.method?_setMethod hmethod]
    · rw [if_neg hsame] at happended
      refine ⟨point', target', place, method', hpoint', hparsed', happended, ?_, hcall⟩
      rw [ClassPool.method?_setMethod_of_ne (Ne.symm hsame), hmethod']
  · rename_i hlength
    have hnumber : number = attempts.length := by
      have := (List.getElem?_eq_some_iff.mp hattempt).1
      rw [List.length_singleton] at this
      omega
    subst hnumber
    rw [Nat.sub_self] at hattempt
    cases hattempt
    exact ⟨point, target, index, changed, hpoint, hparsed,
      standing?_concat_length hpoint attempts descriptor index,
      ClassPool.method?_setMethod hmethod changed, Splice.getElem?_of_insert hinserted⟩

/-- What one more attempt preserves. -/
theorem Followed.inject (h : Followed hooks attempts hooks' pool') {descriptor : String}
    {result : Except Error Nat}
    (hinject : hooks'.inject pool' name descriptor = (result, hooks'', pool'')) :
    Followed hooks (attempts ++ [⟨name, descriptor, result⟩]) hooks'' pool'' := by
  have hinjects := injects_inject hooks' pool' name descriptor
  rw [hinject] at hinjects
  cases hinjects with
  | refused e => exact h.concat_error h.points
  | kept e hfound hsame =>
      exact h.concat_error (h.points.register hfound hsame.method hsame.registers)
  | @added point' located target method changed hfound hparsed hbody hlocates hinserted =>
      have hsame := (HookPoint.of_locate hlocates).1
      obtain ⟨point, hpoint, hmethod, hregisters⟩ := h.points _ _ hfound
      rw [hmethod] at hbody ⊢
      rw [HookPoint.call_congr hregisters] at hinserted
      exact h.concat_ok hpoint hparsed hbody hinserted
        (h.points.register hfound hsame.method hsame.registers)

/-- What any number of attempts preserves. -/
theorem followed_injectAll {pool : ClassPool} {requests : List (String × String)}
    (hrun : hooks.injectAll pool requests = (attempts, hooks', pool')) :
    Followed hooks attempts hooks' pool' :=
  injectAll_preserves (P := fun attempts hooks' pool' => Followed hooks attempts hooks' pool')
    (fun h hinject => h.inject hinject) (followed_nil hooks pool) hrun

end HookRegistry

end DexGraft
