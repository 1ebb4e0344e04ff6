import DexGraft.Proofs.Code.Pool
import DexGraft.Proofs.Outcome
import DexGraft.Walk

/-!
# Chains of references

A walk follows a chain of methods, in which each step leads to the method that one instruction of the
method before it refers to.  The main statement is that a walk ends where the chain of its steps
ends, and otherwise fails with the fault of the first step that leads nowhere.
-/

namespace DexGraft

open Outcome

/-! ## What a step counts -/

/-- The instruction refers to a method, and is one of those that are counted. -/
def StepFilter.Counts (filter : StepFilter) (instruction : Instruction) (reference : MethodRef) :
    Prop :=
  instruction.reference = some (.method reference) ∧
    match filter with
    | .anyMethod => True
    | .invoke opcode => instruction.opcode = opcode
    | .definedIn owner => reference.owner = owner

theorem Instruction.methodRef?_eq_some_iff {instruction : Instruction} {reference : MethodRef} :
    instruction.methodRef? = some reference ↔ instruction.reference = some (.method reference) := by
  rw [Instruction.methodRef?]
  split <;> simp_all

theorem StepFilter.accepts_of_counts {filter : StepFilter} {instruction : Instruction}
    {reference : MethodRef} (h : filter.Counts instruction reference) :
    filter.accepts instruction = true := by
  obtain ⟨href, hfilter⟩ := h
  rw [accepts, Instruction.methodRef?_eq_some_iff.mpr href]
  cases filter with
  | anyMethod => rfl
  | invoke opcode => exact beq_iff_eq.mpr hfilter
  | definedIn owner => exact beq_iff_eq.mpr hfilter

theorem StepFilter.exists_counts_of_accepts {filter : StepFilter} {instruction : Instruction}
    (h : filter.accepts instruction = true) :
    ∃ reference, filter.Counts instruction reference := by
  rw [accepts] at h
  split at h
  · cases h
  · rename_i reference href
    refine ⟨reference, Instruction.methodRef?_eq_some_iff.mp href, ?_⟩
    cases filter with
    | anyMethod => trivial
    | invoke opcode => exact beq_iff_eq.mp h
    | definedIn owner => exact beq_iff_eq.mp h

/-- The step follows the reference: there are fewer instructions by one in front of the one that
holds it, among those that are counted, than the number of the step says. -/
def WalkStep.Picks (step : WalkStep) (body : List Instruction) (reference : MethodRef) : Prop :=
  ∃ front instruction back, body = front ++ instruction :: back ∧
    step.filter.Counts instruction reference ∧
    front.countP step.filter.accepts + 1 = step.nth

/-- An item of a filtered list stands behind as many items of the list as there are in front. -/
theorem getElem?_filter_eq_some_iff {α : Type} {p : α → Bool} {l : List α} {i : Nat} {a : α} :
    (l.filter p)[i]? = some a ↔
      ∃ front back, l = front ++ a :: back ∧ p a = true ∧ front.countP p = i := by
  constructor
  · intro h
    have hsplit : l.filter p = (l.filter p).take i ++ a :: (l.filter p).drop (i + 1) := by
      obtain ⟨hlt, rfl⟩ := List.getElem?_eq_some_iff.mp h
      rw [← List.drop_eq_getElem_cons hlt, List.take_append_drop]
    have hlength : ((l.filter p).take i).length = i :=
      List.length_take_of_le (Nat.le_of_lt (List.getElem?_eq_some_iff.mp h).1)
    obtain ⟨front, rest, rfl, hfront, hrest⟩ := List.filter_eq_append_iff.mp hsplit
    obtain ⟨skipped, back, rfl, hskipped, ha, -⟩ := List.filter_eq_cons_iff.mp hrest
    refine ⟨front ++ skipped, back, by simp, ha, ?_⟩
    rw [List.countP_append, List.countP_eq_zero.mpr hskipped, Nat.add_zero,
      List.countP_eq_length_filter, hfront, hlength]
  · rintro ⟨front, back, rfl, ha, rfl⟩
    rw [List.filter_append, List.filter_cons_of_pos ha, List.countP_eq_length_filter,
      List.getElem?_append_right (Nat.le_refl _), Nat.sub_self]
    rfl

/-- The reference that a step follows is that of the instruction with its number. -/
theorem WalkStep.picks_iff {step : WalkStep} {body : List Instruction} {reference : MethodRef} :
    step.Picks body reference ↔ step.nth ≠ 0 ∧
      (body.filter step.filter.accepts)[step.nth - 1]?.bind (·.methodRef?) = some reference := by
  constructor
  · rintro ⟨front, instruction, back, hbody, hcounts, hnth⟩
    have hitem := getElem?_filter_eq_some_iff.mpr
      ⟨front, back, hbody, StepFilter.accepts_of_counts hcounts, rfl⟩
    refine ⟨by omega, ?_⟩
    rw [← hnth, Nat.add_sub_cancel, hitem, Option.bind_some]
    exact Instruction.methodRef?_eq_some_iff.mpr hcounts.1
  · rintro ⟨hnth, h⟩
    obtain ⟨instruction, hitem, href⟩ := Option.bind_eq_some_iff.mp h
    obtain ⟨front, back, hbody, haccepts, hcount⟩ := getElem?_filter_eq_some_iff.mp hitem
    obtain ⟨other, hcounts⟩ := StepFilter.exists_counts_of_accepts haccepts
    rw [Instruction.methodRef?_eq_some_iff.mpr hcounts.1, Option.some.injEq] at href
    subst href
    exact ⟨front, instruction, back, hbody, hcounts, by omega⟩

/-- There is no such instruction if too few are counted. -/
theorem WalkStep.eq_none_iff {step : WalkStep} {body : List Instruction} (h : step.nth ≠ 0) :
    (body.filter step.filter.accepts)[step.nth - 1]?.bind (·.methodRef?) = none ↔
      body.countP step.filter.accepts < step.nth := by
  rw [List.countP_eq_length_filter]
  constructor
  · intro hnone
    by_contra hlt
    obtain ⟨instruction, hitem⟩ : ∃ instruction,
        (body.filter step.filter.accepts)[step.nth - 1]? = some instruction :=
      ⟨_, List.getElem?_eq_getElem (by omega)⟩
    obtain ⟨-, -, -, haccepts, -⟩ := getElem?_filter_eq_some_iff.mp hitem
    obtain ⟨reference, hcounts⟩ := StepFilter.exists_counts_of_accepts haccepts
    rw [hitem, Option.bind_some, Instruction.methodRef?_eq_some_iff.mpr hcounts.1] at hnone
    cases hnone
  · intro hlt
    rw [List.getElem?_eq_none_iff.mpr (by omega), Option.bind_none]

/-! ## One step -/

namespace ClassPool

/-- The method that is found for a reference is a method of the pool. -/
theorem exists_of_findMethod? {pool : ClassPool} {reference : MethodRef} {id : MethodId}
    (h : pool.findMethod? reference = some id) :
    ∃ method, pool.method? id = some method ∧ method.ref.sameSignature reference = true := by
  obtain ⟨inClass, -, h⟩ := Option.bind_eq_some_iff.mp h
  obtain ⟨cls, hcls, h⟩ := Option.bind_eq_some_iff.mp h
  obtain ⟨index, hindex, h⟩ := Option.bind_eq_some_iff.mp h
  cases h
  obtain ⟨hlt, hsame, -⟩ := List.findIdx?_eq_some_iff_getElem.mp hindex
  refine ⟨cls.methods[index], ?_, hsame⟩
  rw [method?, hcls, Option.bind_some, List.getElem?_eq_getElem hlt]

end ClassPool

/-- The step leads from one method of the pool to another. -/
def WalkStep.Leads (step : WalkStep) (pool : ClassPool) (id next : MethodId) : Prop :=
  ∃ method reference, pool.method? id = some method ∧ step.Picks method.body reference ∧
    pool.findMethod? reference = some next

/-- Why the step, which has the given number in a walk, leads nowhere from a method. -/
inductive WalkStep.Strays (step : WalkStep) (pool : ClassPool) (number : Nat) (id : MethodId) :
    Error → Prop
  | zeroth (zero : step.nth = 0) : step.Strays pool number id .zerothOccurrence
  | tooFew {method : Method} (current : pool.method? id = some method)
      (few : method.body.countP step.filter.accepts < step.nth) :
      step.Strays pool number id (.referenceNotFound method.descriptor number step.nth)
  | unresolved {method : Method} {reference : MethodRef}
      (current : pool.method? id = some method) (picks : step.Picks method.body reference)
      (missing : pool.findMethod? reference = none) :
      step.Strays pool number id (.unresolvableReference reference.text)

/-- The same error with the numbers of steps counted from further in front. -/
def Error.later (count : Nat) : Error → Error
  | .referenceNotFound method step nth => .referenceNotFound method (count + step) nth
  | e => e

theorem WalkStep.Strays.later {step : WalkStep} {pool : ClassPool} {number : Nat} {id : MethodId}
    {e : Error} (h : step.Strays pool number id e) (count : Nat) :
    step.Strays pool (count + number) id (e.later count) := by
  cases h with
  | zeroth zero => exact .zeroth zero
  | tooFew current few => exact .tooFew current few
  | unresolved current picks missing => exact .unresolved current picks missing

variable {pool : ClassPool} {start middle id next last : MethodId} {step : WalkStep} {e : Error}

theorem WalkStep.Leads.isSome (h : step.Leads pool id next) : (pool.method? next).isSome := by
  obtain ⟨_, _, -, -, hfound⟩ := h
  obtain ⟨method, hmethod, -⟩ := ClassPool.exists_of_findMethod? hfound
  rw [hmethod]
  rfl

/-- From a method of the pool, a step leads to another one or strays. -/
theorem WalkStep.leads_or_strays (hid : (pool.method? id).isSome) (step : WalkStep) (number : Nat) :
    (∃ next, step.Leads pool id next) ∨ ∃ e, step.Strays pool number id e := by
  obtain ⟨method, hmethod⟩ := Option.isSome_iff_exists.mp hid
  by_cases hzero : step.nth = 0
  · exact .inr ⟨_, .zeroth hzero⟩
  cases href : (method.body.filter step.filter.accepts)[step.nth - 1]?.bind (·.methodRef?) with
  | none => exact .inr ⟨_, .tooFew hmethod ((eq_none_iff hzero).mp href)⟩
  | some reference =>
      have hpicks := picks_iff.mpr ⟨hzero, href⟩
      cases hfound : pool.findMethod? reference with
      | none => exact .inr ⟨_, .unresolved hmethod hpicks hfound⟩
      | some next => exact .inl ⟨next, method, reference, hmethod, hpicks, hfound⟩

namespace Walker

/-- A step with a number other than zero, in the method that the walker has reached. -/
theorem step_eq {method : Method} (hmethod : pool.method? id = some method) (hnth : step.nth ≠ 0)
    (steps : Nat) : Walker.step ⟨pool, id, steps⟩ step =
      match (method.body.filter step.filter.accepts)[step.nth - 1]?.bind (·.methodRef?) with
      | some reference => Walker.follow ⟨pool, id, steps⟩ reference
      | none => .error (.referenceNotFound method.descriptor (steps + 1) step.nth) := by
  have hcurrent : Walker.method ⟨pool, id, steps⟩ = .ok method := by
    rw [Walker.method, ClassPool.method, hmethod]
  rw [Walker.step, if_neg hnth, hcurrent]
  rfl

theorem step_of_leads (h : step.Leads pool id next) (steps : Nat) :
    Walker.step ⟨pool, id, steps⟩ step = .ok ⟨pool, next, steps + 1⟩ := by
  obtain ⟨method, reference, hmethod, hpicks, hfound⟩ := h
  obtain ⟨hnth, href⟩ := WalkStep.picks_iff.mp hpicks
  simp only [step_eq hmethod hnth, href, follow, hfound]

theorem step_of_strays {steps : Nat} (h : step.Strays pool (steps + 1) id e) :
    Walker.step ⟨pool, id, steps⟩ step = .error e := by
  cases h with
  | zeroth zero => rw [Walker.step, if_pos zero]
  | tooFew current few =>
      have hnth : step.nth ≠ 0 := by omega
      simp only [step_eq current hnth, (WalkStep.eq_none_iff hnth).mpr few]
  | unresolved current picks missing =>
      obtain ⟨hnth, href⟩ := WalkStep.picks_iff.mp picks
      simp only [step_eq current hnth, href, follow, missing]

end Walker

/-- A step that strays leads nowhere. -/
theorem WalkStep.Strays.not_leads {steps : Nat} (h : step.Strays pool (steps + 1) id e) :
    ¬ ∃ next, step.Leads pool id next := by
  rintro ⟨next, hleads⟩
  have hstep := Walker.step_of_leads hleads steps
  rw [Walker.step_of_strays h] at hstep
  cases hstep

/-! ## Chains -/

/-- The steps lead, one behind the other, from one method of the pool to another. -/
inductive Chain (pool : ClassPool) : List WalkStep → MethodId → MethodId → Prop
  | done (id : MethodId) : Chain pool [] id id
  | step {step : WalkStep} {steps : List WalkStep} {id next last : MethodId}
      (leads : step.Leads pool id next) (rest : Chain pool steps next last) :
      Chain pool (step :: steps) id last

theorem Chain.append {front back : List WalkStep} (h : Chain pool front id middle)
    (h' : Chain pool back middle last) : Chain pool (front ++ back) id last := by
  induction h with
  | done id => exact h'
  | step leads _ ih => exact .step leads (ih h')

/-- All methods of a chain are methods of the pool if the first one is. -/
theorem Chain.isSome {steps : List WalkStep} (h : Chain pool steps id last)
    (hid : (pool.method? id).isSome) : (pool.method? last).isSome := by
  induction h with
  | done id => exact hid
  | step leads _ ih => exact ih leads.isSome

/-- The chain of the steps breaks off: the first of them that leads nowhere strays with the error. -/
def BreaksOff (pool : ClassPool) (steps : List WalkStep) (start : MethodId) (e : Error) : Prop :=
  ∃ front step back stop, steps = front ++ step :: back ∧ Chain pool front start stop ∧
    (¬ ∃ next, step.Leads pool stop next) ∧ step.Strays pool (front.length + 1) stop e

theorem BreaksOff.append {steps : List WalkStep} (h : BreaksOff pool steps start e)
    (more : List WalkStep) : BreaksOff pool (steps ++ more) start e := by
  obtain ⟨front, step, back, stop, rfl, hchain, hnot, hstrays⟩ := h
  exact ⟨front, step, back ++ more, stop, by simp, hchain, hnot, hstrays⟩

/-- Behind a chain, a break has a number that counts the steps of the chain as well. -/
theorem Chain.breaksOff {front steps : List WalkStep} (h : Chain pool front start middle)
    (h' : BreaksOff pool steps middle e) :
    BreaksOff pool (front ++ steps) start (e.later front.length) := by
  obtain ⟨front', step, back, stop, rfl, hchain, hnot, hstrays⟩ := h'
  refine ⟨front ++ front', step, back, stop, by simp, h.append hchain, hnot, ?_⟩
  rw [List.length_append, Nat.add_assoc]
  exact hstrays.later front.length

/-- From a method of the pool, the steps make a chain or break off. -/
theorem chain_or_breaksOff (hstart : (pool.method? start).isSome) (steps : List WalkStep) :
    (∃ last, Chain pool steps start last) ∨ ∃ e, BreaksOff pool steps start e := by
  induction steps generalizing start with
  | nil => exact .inl ⟨start, .done start⟩
  | cons step steps ih =>
      rcases step.leads_or_strays hstart 1 with ⟨next, hleads⟩ | ⟨e, hstrays⟩
      · have hchain : Chain pool [step] start next := .step hleads (.done next)
        rcases ih hleads.isSome with ⟨last, hrest⟩ | ⟨e, hrest⟩
        · exact .inl ⟨last, .step hleads hrest⟩
        · exact .inr ⟨_, hchain.breaksOff hrest⟩
      · exact .inr ⟨e, [], step, steps, start, rfl, .done start, hstrays.not_leads, hstrays⟩

namespace Walker

variable {steps : List WalkStep}

theorem foldlM_of_chain (h : Chain pool steps start last) (count : Nat) :
    steps.foldlM Walker.step ⟨pool, start, count⟩ = .ok ⟨pool, last, count + steps.length⟩ := by
  induction h generalizing count with
  | done id => rfl
  | step leads _ ih =>
      rw [List.foldlM_cons, step_of_leads leads, ok_bind, ih, List.length_cons, Nat.add_assoc,
        Nat.add_comm 1]

theorem walk_of_chain (h : Chain pool steps start last) :
    walk ⟨pool, start, 0⟩ steps = .ok last := by
  rw [walk, foldlM_of_chain h]
  rfl

theorem walk_of_breaksOff (h : BreaksOff pool steps start e) :
    walk ⟨pool, start, 0⟩ steps = .error e := by
  obtain ⟨front, step, back, stop, rfl, hchain, -, hstrays⟩ := h
  rw [← Nat.zero_add (front.length + 1), ← Nat.add_assoc] at hstrays
  rw [walk, List.foldlM_append, foldlM_of_chain hchain, ok_bind, List.foldlM_cons,
    step_of_strays hstrays]
  rfl

theorem walk_eq_ok_iff (hstart : (pool.method? start).isSome) :
    walk ⟨pool, start, 0⟩ steps = .ok last ↔ Chain pool steps start last := by
  refine ⟨fun h => ?_, walk_of_chain⟩
  rcases chain_or_breaksOff hstart steps with ⟨other, hchain⟩ | ⟨e, hbreaks⟩
  · rw [walk_of_chain hchain] at h
    cases h
    exact hchain
  · rw [walk_of_breaksOff hbreaks] at h
    cases h

theorem walk_eq_error_iff (hstart : (pool.method? start).isSome) :
    walk ⟨pool, start, 0⟩ steps = .error e ↔ BreaksOff pool steps start e := by
  refine ⟨fun h => ?_, walk_of_breaksOff⟩
  rcases chain_or_breaksOff hstart steps with ⟨last, hchain⟩ | ⟨other, hbreaks⟩
  · rw [walk_of_chain hchain] at h
    cases h
  · rw [walk_of_breaksOff hbreaks] at h
    cases h
    exact hbreaks

/-- A walk may stop on its way and be taken up again, but for the numbers of the steps. -/
theorem walk_append (hstart : (pool.method? start).isSome) (front back : List WalkStep) :
    walk ⟨pool, start, 0⟩ (front ++ back) = walk ⟨pool, start, 0⟩ front >>= fun middle =>
      (walk ⟨pool, middle, 0⟩ back).mapError (.later front.length) := by
  rcases chain_or_breaksOff hstart front with ⟨middle, hfront⟩ | ⟨e, hfront⟩
  · rw [walk_of_chain hfront, ok_bind]
    rcases chain_or_breaksOff (hfront.isSome hstart) back with ⟨last, hback⟩ | ⟨e, hback⟩
    · rw [walk_of_chain hback, walk_of_chain (hfront.append hback)]
      rfl
    · rw [walk_of_breaksOff hback, walk_of_breaksOff (hfront.breaksOff hback)]
      rfl
  · rw [walk_of_breaksOff hfront, walk_of_breaksOff (hfront.append back)]
    rfl

/-- A walk from a method of the pool ends exactly where the chain of its steps ends, and fails exactly
with the error of the first step that leads nowhere, whose number it holds.  A walk of two parts is a
walk of the first and, from where it ends, one of the second, with the steps of the first counted in
its errors.  All methods on the way are methods of the pool. -/
theorem walk_follows_chain (hstart : (pool.method? start).isSome) (steps : List WalkStep) :
    (∀ last, walk ⟨pool, start, 0⟩ steps = .ok last ↔ Chain pool steps start last) ∧
    (∀ e, walk ⟨pool, start, 0⟩ steps = .error e ↔ BreaksOff pool steps start e) ∧
    ∀ front back, steps = front ++ back →
      (walk ⟨pool, start, 0⟩ steps = walk ⟨pool, start, 0⟩ front >>= fun middle =>
        (walk ⟨pool, middle, 0⟩ back).mapError (.later front.length)) ∧
      ∀ middle, Chain pool front start middle → (pool.method? middle).isSome := by
  refine ⟨fun last => walk_eq_ok_iff hstart, fun e => walk_eq_error_iff hstart, ?_⟩
  rintro front back rfl
  exact ⟨walk_append hstart front back, fun middle hchain => hchain.isSome hstart⟩

/-- Two methods that call each other: two steps lead back to where they began, and the third of three
asks for a second call of a sort that there is once. -/
theorem walk_follows_chain_cyclic :
    let call (opcode : Opcode) (owner name : String) : Instruction :=
      { opcode, reference := some (.method ⟨owner, name, [], "V"⟩) }
    let pool : ClassPool := ⟨[
      { ClassDef.ofDescriptor "La;" with methods := [⟨"La;", "a", [], "V", .publicFlag, 1,
        [call .invokeVirtual "Lx;" "y", call .invokeStatic "Lb;" "b", { opcode := .returnVoid }]⟩] },
      { ClassDef.ofDescriptor "Lb;" with methods := [⟨"Lb;", "b", [], "V", .publicFlag, 1,
        [{ opcode := .nop }, call .invokeStatic "La;" "a"]⟩] }]⟩
    let around : List WalkStep := [⟨.anyMethod, 2⟩, ⟨.definedIn "La;", 1⟩]
    let steps := around ++ [⟨.invoke .invokeStatic, 2⟩]
    (pool.method? ⟨0, 0⟩).isSome ∧ Chain pool around ⟨0, 0⟩ ⟨0, 0⟩ ∧
      BreaksOff pool steps ⟨0, 0⟩ (.referenceNotFound "La;->a()V" 3 2) ∧
      walk ⟨pool, ⟨0, 0⟩, 0⟩ steps =
        (walk ⟨pool, ⟨0, 0⟩, 0⟩ [⟨.invoke .invokeStatic, 2⟩]).mapError (.later 2) := by
  intro call pool around steps
  have hstart : (pool.method? ⟨0, 0⟩).isSome := by decide
  have haround : walk ⟨pool, ⟨0, 0⟩, 0⟩ around = .ok ⟨0, 0⟩ := by decide +kernel
  have hsteps : walk ⟨pool, ⟨0, 0⟩, 0⟩ steps =
      .error (.referenceNotFound "La;->a()V" 3 2) := by decide +kernel
  obtain ⟨hends, -, -⟩ := walk_follows_chain hstart around
  obtain ⟨-, hfails, hparts⟩ := walk_follows_chain hstart steps
  obtain ⟨htwo, -⟩ := hparts around _ rfl
  rw [haround, ok_bind] at htwo
  exact ⟨hstart, (hends _).mp haround, (hfails _).mp hsteps, htwo⟩

end Walker

end DexGraft
