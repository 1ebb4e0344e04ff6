import DexGraft.Proofs.Code.Splice
import DexGraft.Proofs.Code.Weave
import DexGraft.Proofs.Patch.Inject
import Mathlib.Logic.Relation

/-!
# Points behind instructions that move

A point behind an instruction keeps a copy of the instruction and the index at which it was last
found, and looks for the copy when something else stands there.  This file watches the instruction
while calls are added at the point and other instructions are put in in front.  The main statement
says exactly when the next call goes behind the instruction: not when a branch of the instruction has
been moved, since it differs from its copy then, and not when something was put in since the last call
and an equal instruction stands in front.
-/

namespace DexGraft

open Outcome

/-! ## Watching an instruction -/

/-- A point and its pool, with what has become of the instruction that the point was registered
behind. -/
structure Watch where
  hooks : HookRegistry
  pool : ClassPool
  /-- Where the instruction stands. -/
  place : Nat
  /-- The calls that were added at the point. -/
  calls : List Instruction := []
  /-- Whether each call was put in right behind the instruction and the calls before. -/
  lawful : Bool := true
  /-- What else was put in. -/
  others : List Instruction := []
  /-- Whether some of this was put in since the last call. -/
  disturbed : Bool := false

namespace Watch

/-- What can happen: a call is added at the point, or instructions are put in that do not come behind
the one that is watched. -/
inductive Step (name : String) (point : HookPoint) (watch : Watch) : Watch → Prop
  | call {descriptor : String} {target : MethodRef} {index : Nat} {hooks : HookRegistry}
      {pool : ClassPool} (parsed : MethodRef.parse descriptor = .ok target)
      (added : watch.hooks.inject watch.pool name descriptor = (.ok index, hooks, pool)) :
      Step name point watch { watch with
        hooks, pool
        place := Target.afterInsert index 1 watch.place
        calls := watch.calls ++ [point.call target]
        lawful := watch.lawful && index == watch.place + 1 + watch.calls.length
        disturbed := false }
  | insert {method changed : Method} {index : Nat} {items : List Instruction}
      (body : watch.pool.method? point.method = some method) (front : index ≤ watch.place)
      (inserted : method.insert index items = .ok changed) :
      Step name point watch { watch with
        pool := watch.pool.setMethod point.method changed
        place := watch.place + items.length
        others := watch.others ++ items
        disturbed := watch.disturbed || !items.isEmpty }

/-- What is known of the instruction that is watched, given what stood in front of it at first. -/
structure Stands (name : String) (point : HookPoint) (anchor : Instruction)
    (first : List Instruction) (watch : Watch) (index : Nat) (method : Method) (move : Nat → Nat)
    (front rest : List Instruction) : Prop where
  found : watch.hooks.get? name =
    some { point with anchor := .after anchor index, injected := watch.calls.length }
  within : watch.pool.method? point.method = some method
  body : method.body = front ++ anchor.retarget move :: rest
  place : front.length = watch.place
  untargeted : Weave.Untargeted watch.calls
  behind : watch.lawful → watch.calls <+: rest
  index_le : watch.lawful → index ≤ front.length
  settled : watch.lawful → (watch.disturbed = false ↔ index = front.length)
  /-- An instruction without a target that has no equal in front is found each time. -/
  plain : anchor.target = none → anchor ∉ first → anchor ∉ watch.others →
    watch.lawful ∧ anchor ∉ front
  /-- The target of a branch forward is moved by the first call. -/
  forward : watch.lawful → ∀ target, anchor.target = some target → first.length < target →
    front.length < move target ∧ target ≤ move target ∧ (watch.calls ≠ [] → target < move target)

variable {name : String} {point : HookPoint} {anchor : Instruction}
  {first front rest : List Instruction} {watch next : Watch} {index : Nat} {method : Method}
  {move : Nat → Nat}

theorem stands_start (name : String) (hooks : HookRegistry) {pool : ClassPool}
    (hwithin : pool.method? point.method = some method)
    (hbody : method.body = front ++ anchor :: rest)
    (hanchor : point.anchor = .after anchor front.length) (hunused : point.injected = 0) :
    Stands name point anchor front
      ⟨hooks.register name point, pool, front.length, [], true, [], false⟩
      front.length method id front rest := by
  have hid : anchor.retarget id = anchor := by
    rw [Instruction.retarget, Option.map_id]
    rfl
  have hpoint : point = { point with anchor := .after anchor front.length, injected := 0 } := by
    rw [← hanchor, ← hunused]
  constructor
  case found =>
    rw [HookRegistry.get?_register, if_pos rfl]
    exact congrArg some hpoint
  case within => exact hwithin
  case body => rw [hid, hbody]
  case place => rfl
  case untargeted => exact List.forall_mem_nil _
  case behind => exact fun _ => List.nil_prefix
  case index_le => exact fun _ => Nat.le_refl _
  case settled => simp
  case plain => exact fun _ hfirst _ => ⟨rfl, hfirst⟩
  case forward => exact fun _ target _ hlt => ⟨hlt, Nat.le_refl _, fun hne => absurd rfl hne⟩

theorem Stands.untargeted_concat
    (h : Stands name point anchor first watch index method move front rest) (target : MethodRef) :
    Weave.Untargeted (watch.calls ++ [point.call target]) := by
  refine Weave.untargeted_append.mpr ⟨h.untargeted, fun call hcall => ?_⟩
  rw [List.mem_singleton.mp hcall]
  rfl

/-- An instruction at its place is found if it is its copy's equal, and has none of its kind in front
or was found there before. -/
theorem Stands.place?_eq_iff (h : Stands name point anchor first watch index method move front rest)
    (hlawful : watch.lawful) :
    HookPoint.place? anchor index method.body = some front.length ↔
      anchor.retarget move = anchor ∧ (watch.disturbed = false ∨ anchor ∉ front) := by
  rw [h.body, HookPoint.place?_eq_length_iff (h.index_le hlawful), h.settled hlawful]

/-! ## One step -/

/-- Instructions that are put in at the instruction or in front of it move it. -/
theorem Stands.insert (h : Stands name point anchor first watch index method move front rest)
    {at' : Nat} {items : List Instruction} {changed : Method} (hfront : at' ≤ watch.place)
    (hinserted : method.insert at' items = .ok changed) :
    let shift := Target.afterInsert at' items.length
    Stands name point anchor first { watch with
        pool := watch.pool.setMethod point.method changed
        place := watch.place + items.length
        others := watch.others ++ items
        disturbed := watch.disturbed || !items.isEmpty }
      index changed (shift ∘ move)
      ((front.take at').map (Instruction.retarget shift) ++ items ++
        (front.drop at').map (Instruction.retarget shift))
      (rest.map (.retarget shift)) := by
  intro shift
  rw [← h.place] at hfront
  have hlength : (front.take at').length = at' := List.length_take_of_le hfront
  have hsplit : method.body = front.take at' ++ (front.drop at' ++ anchor.retarget move :: rest) := by
    rw [h.body, ← List.append_assoc, List.take_append_drop]
  have hinsert := Weave.insert_between hsplit items
  rw [hlength, hinserted] at hinsert
  cases hinsert
  have hfrontLength : ((front.take at').map (Instruction.retarget shift) ++ items ++
      (front.drop at').map (Instruction.retarget shift)).length = front.length + items.length := by
    simp only [List.length_append, List.length_map, hlength, List.length_drop]
    omega
  constructor
  case found => exact h.found
  case within => exact ClassPool.method?_setMethod h.within _
  case body =>
    simp only [List.map_append, List.map_cons, Weave.retarget_retarget, List.append_assoc]
    rfl
  case place => rw [hfrontLength, h.place]
  case untargeted => exact h.untargeted
  case behind =>
    intro hlawful
    rw [← Weave.map_retarget_of_untargeted h.untargeted shift]
    exact (h.behind hlawful).map _
  case index_le =>
    intro hlawful
    rw [hfrontLength]
    exact Nat.le_add_right_of_le (h.index_le hlawful)
  case settled =>
    intro hlawful
    have hle := h.index_le hlawful
    have hsettled := h.settled hlawful
    rw [hfrontLength]
    cases items with
    | nil => simpa using hsettled
    | cons item items =>
        simp only [List.isEmpty_cons, Bool.not_false, Bool.or_true, Bool.true_eq_false,
          List.length_cons, false_iff]
        omega
  case plain =>
    intro htarget hfirst hothers
    rw [List.mem_append, not_or] at hothers
    obtain ⟨hlawful, hnot⟩ := h.plain htarget hfirst hothers.1
    refine ⟨hlawful, ?_⟩
    rw [List.mem_append, List.mem_append, Weave.mem_map_retarget_iff htarget,
      Weave.mem_map_retarget_iff htarget, not_or, not_or]
    exact ⟨⟨fun hmem => hnot (List.mem_of_mem_take hmem), hothers.2⟩,
      fun hmem => hnot (List.mem_of_mem_drop hmem)⟩
  case forward =>
    intro hlawful target htarget hlt
    obtain ⟨hahead, hle, hcalled⟩ := h.forward hlawful target htarget hlt
    have hshift : shift (move target) = move target + items.length := if_pos (by omega)
    rw [hfrontLength, Function.comp_apply, hshift]
    refine ⟨by omega, by omega, fun hne => ?_⟩
    have := hcalled hne
    omega

/-- A call that is put in right behind the instruction and the calls before it stays there. -/
theorem Stands.call (h : Stands name point anchor first watch index method move front rest)
    {hooks : HookRegistry} {target : MethodRef} {changed : Method} (hlawful : watch.lawful)
    (hfound : hooks.get? name = some { point with
      anchor := .after anchor front.length, injected := watch.calls.length + 1 })
    (hinserted : method.insert (watch.place + 1 + watch.calls.length) [point.call target] =
      .ok changed) :
    let shift := Target.afterInsert (watch.place + 1 + watch.calls.length) 1
    Stands name point anchor first { watch with
        hooks
        pool := watch.pool.setMethod point.method changed
        place := shift watch.place
        calls := watch.calls ++ [point.call target]
        lawful := true
        disturbed := false }
      front.length changed (shift ∘ move) (front.map (.retarget shift))
      (watch.calls ++ [point.call target] ++
        (rest.drop watch.calls.length).map (.retarget shift)) := by
  intro shift
  obtain ⟨tail, rfl⟩ := h.behind hlawful
  have hplace : shift watch.place = watch.place := if_neg (by omega)
  have hsplit : method.body = (front ++ anchor.retarget move :: watch.calls) ++ tail := by
    rw [h.body, List.append_assoc, List.cons_append]
  have hlength : (front ++ anchor.retarget move :: watch.calls).length =
      watch.place + 1 + watch.calls.length := by
    rw [List.length_append, h.place, List.length_cons]
    omega
  have hinsert := Weave.insert_between hsplit [point.call target]
  rw [hlength, hinserted] at hinsert
  cases hinsert
  constructor
  case found => rwa [List.length_append, List.length_singleton]
  case within => exact ClassPool.method?_setMethod h.within _
  case body =>
    simp only [List.map_append, List.map_cons, Weave.retarget_retarget, List.append_assoc,
      List.cons_append, List.length_singleton, List.drop_left]
    rw [Weave.map_retarget_of_untargeted h.untargeted]
    rfl
  case place => rw [List.length_map, h.place, hplace]
  case untargeted => exact h.untargeted_concat target
  case behind => exact fun _ => List.prefix_append _ _
  case index_le => exact fun _ => (List.length_map _).ge
  case settled => exact fun _ => by simp
  case plain =>
    intro htarget hfirst hothers
    rw [Weave.mem_map_retarget_iff htarget]
    exact ⟨rfl, (h.plain htarget hfirst hothers).2⟩
  case forward =>
    intro _ target' htarget hlt
    obtain ⟨hahead, hle, hcalled⟩ := h.forward hlawful target' htarget hlt
    rw [List.length_map, Function.comp_apply]
    have hshift : move target' ≤ shift (move target') := by
      simp only [shift, Target.afterInsert]
      split <;> omega
    refine ⟨by omega, by omega, fun _ => ?_⟩
    by_cases hcalls : watch.calls = []
    · -- the first call goes between the branch and its target
      have hfirst : shift (move target') = move target' + 1 := by
        refine if_pos ?_
        rw [hcalls, List.length_nil, ← h.place]
        exact hahead
      omega
    · exact lt_of_lt_of_le (hcalled hcalls) hshift

/-- A call that goes elsewhere moves the instruction at most. -/
theorem Stands.stray (h : Stands name point anchor first watch index method move front rest)
    {hooks : HookRegistry} {target : MethodRef} {changed : Method} {at' index' : Nat}
    (hstray : ¬ (anchor.target = none ∧ anchor ∉ first ∧ anchor ∉ watch.others))
    (hfound : hooks.get? name = some { point with
      anchor := .after anchor index', injected := watch.calls.length + 1 })
    (hinserted : method.insert at' [point.call target] = .ok changed) :
    let shift := Target.afterInsert at' 1
    ∃ front' rest', Stands name point anchor first { watch with
        hooks
        pool := watch.pool.setMethod point.method changed
        place := shift watch.place
        calls := watch.calls ++ [point.call target]
        lawful := false
        disturbed := false } index' changed (shift ∘ move) front' rest' := by
  intro shift
  have hitem : method.body[watch.place]? = some (anchor.retarget move) := by
    rw [h.body, ← h.place]
    simp
  have hmoved := Splice.getElem?_afterInsert_of_insert hinserted watch.place
  rw [hitem, Option.map_some, Weave.retarget_retarget] at hmoved
  obtain ⟨front', rest', hbody, hplace⟩ := Weave.split_of_getElem? hmoved
  refine ⟨front', rest', ?_⟩
  constructor
  case found => rwa [List.length_append, List.length_singleton]
  case within => exact ClassPool.method?_setMethod h.within _
  case body => exact hbody
  case place => exact hplace
  case untargeted => exact h.untargeted_concat target
  case plain => exact fun htarget hfirst hothers => absurd ⟨htarget, hfirst, hothers⟩ hstray
  all_goals exact nofun

/-- A call that is added goes behind an instruction that equals the copy. -/
theorem Stands.of_inject (h : Stands name point anchor first watch index method move front rest)
    {descriptor : String} {target : MethodRef} {at' : Nat} {hooks : HookRegistry} {pool : ClassPool}
    (hparsed : MethodRef.parse descriptor = .ok target)
    (hadded : watch.hooks.inject watch.pool name descriptor = (.ok at', hooks, pool)) :
    ∃ index' changed, HookPoint.place? anchor index method.body = some index' ∧
      at' = index' + 1 + watch.calls.length ∧
      hooks.get? name = some { point with
        anchor := .after anchor index', injected := watch.calls.length + 1 } ∧
      method.insert at' [point.call target] = .ok changed ∧
      pool = watch.pool.setMethod point.method changed := by
  have hinjects := HookRegistry.injects_inject watch.hooks watch.pool name descriptor
  rw [hadded] at hinjects
  cases hinjects with
  | added hfound hparsed' hbody hlocates hinserted =>
      rw [h.found] at hfound
      cases hfound
      rw [h.within] at hbody
      cases hbody
      rw [hparsed] at hparsed'
      cases hparsed'
      rw [HookPoint.locate_after rfl] at hlocates
      split at hlocates
      · rename_i index' hplace
        cases hlocates
        refine ⟨index', _, hplace, rfl, ?_, hinserted, rfl⟩
        rw [HookRegistry.get?_register, if_pos rfl]
      · cases hlocates

/-- What one step preserves. -/
theorem Stands.step (h : Stands name point anchor first watch index method move front rest)
    (hstep : Step name point watch next) :
    ∃ index' method' move' front' rest',
      Stands name point anchor first next index' method' move' front' rest' := by
  cases hstep with
  | insert hbody hfront hinserted =>
      rw [h.within] at hbody
      cases hbody
      exact ⟨_, _, _, _, _, h.insert hfront hinserted⟩
  | @call descriptor target at' hooks pool hparsed hadded =>
      obtain ⟨index', changed, hplace, rfl, hfound, hinserted, rfl⟩ := h.of_inject hparsed hadded
      by_cases hright : watch.lawful ∧ index' = front.length
      · obtain ⟨hlawful, rfl⟩ := hright
        rw [h.place] at hinserted ⊢
        have hnext := h.call hlawful hfound hinserted
        rw [hlawful, beq_self_eq_true, Bool.and_self]
        exact ⟨_, _, _, _, _, hnext⟩
      · have hstray : ¬ (anchor.target = none ∧ anchor ∉ first ∧ anchor ∉ watch.others) := by
          rintro ⟨htarget, hfirst, hothers⟩
          obtain ⟨hlawful, hnot⟩ := h.plain htarget hfirst hothers
          have hitem := Weave.retarget_of_target_eq_none htarget move
          have heq := (h.place?_eq_iff hlawful).mpr ⟨hitem, .inr hnot⟩
          rw [hplace, Option.some.injEq] at heq
          exact hright ⟨hlawful, heq⟩
        have hlawful : (watch.lawful && index' + 1 + watch.calls.length ==
            watch.place + 1 + watch.calls.length) = false := by
          rw [Bool.and_eq_false_iff, beq_eq_false_iff_ne]
          by_contra hboth
          rw [not_or, Bool.not_eq_false, not_ne_iff, ← h.place] at hboth
          exact hright ⟨hboth.1, by omega⟩
        obtain ⟨front', rest', hnext⟩ := h.stray hstray hfound hinserted
        rw [hlawful]
        exact ⟨_, _, _, _, _, hnext⟩

/-- What any number of steps preserves. -/
theorem Stands.run (h : Stands name point anchor first watch index method move front rest)
    (hrun : Relation.ReflTransGen (Step name point) watch next) :
    ∃ index' method' move' front' rest',
      Stands name point anchor first next index' method' move' front' rest' := by
  induction hrun with
  | refl => exact ⟨_, _, _, _, _, h⟩
  | tail _ hstep ih =>
      obtain ⟨_, _, _, _, _, hstands⟩ := ih
      exact hstands.step hstep

/-! ## The next call -/

/-- The next call that fits the point goes right behind the instruction and the calls before exactly if
its reference can be written and the instruction is found at its place. -/
theorem Stands.inject_eq_iff (h : Stands name point anchor first watch index method move front rest)
    (hlawful : watch.lawful) {descriptor : String} {target : MethodRef}
    (hread : point.readCall name descriptor = .ok target) :
    (watch.hooks.inject watch.pool name descriptor).1 =
        .ok (watch.place + 1 + watch.calls.length) ↔
      target.Writable ∧ anchor.retarget move = anchor ∧
        (watch.disturbed = false ∨ anchor ∉ front) := by
  have hwithin : watch.place + 1 + watch.calls.length ≤ method.body.length := by
    have := (h.behind hlawful).length_le
    rw [h.body, List.length_append, List.length_cons, h.place]
    omega
  have hinsert (located : HookPoint) :=
    HookPoint.insertOne_callText_iff (HookPoint.parse_of_readCall hread) located method
      (watch.place + 1 + watch.calls.length)
  rw [← h.place?_eq_iff hlawful, HookRegistry.fst_inject h.found hread h.within,
    HookPoint.locate_after rfl, h.place]
  constructor
  · intro hinject
    obtain ⟨located, hlocated, hinject⟩ := bind_eq_ok_iff.mp hinject
    obtain ⟨changed, hchanged, hindex⟩ := bind_eq_ok_iff.mp hinject
    rw [Except.ok.injEq] at hindex
    rw [hindex] at hchanged
    refine ⟨((hinsert located).mp ⟨changed, hchanged⟩).1, ?_⟩
    split at hlocated
    · rename_i index' hplace
      cases hlocated
      have heq : index' + 1 + watch.calls.length = watch.place + 1 + watch.calls.length := hindex
      rw [hplace, Option.some.injEq]
      omega
    · cases hlocated
  · rintro ⟨hwritable, hplace⟩
    rw [hplace]
    dsimp only [ok_bind]
    obtain ⟨changed, hchanged⟩ := (hinsert { point with
      anchor := .after anchor watch.place, injected := watch.calls.length }).mpr ⟨hwritable, hwithin⟩
    exact bind_eq_ok_iff.mpr ⟨changed, hchanged, rfl⟩

/-- Once the instruction has been taken out, a call is told that it is lost exactly if none of its
kind is left. -/
theorem Stands.inject_lost_iff (h : Stands name point anchor first watch index method move front rest)
    {descriptor : String} {target : MethodRef}
    (hread : point.readCall name descriptor = .ok target) (hwritable : target.Writable)
    (removed : Method) :
    (watch.hooks.inject (watch.pool.setMethod point.method removed) name descriptor).1 =
        .error (.hookPointLost removed.descriptor anchor.text) ↔ anchor ∉ removed.body := by
  have hwithin := ClassPool.method?_setMethod h.within removed
  rw [HookRegistry.fst_inject h.found hread hwithin, HookPoint.locate_after rfl,
    ← HookPoint.place?_eq_none_iff anchor index]
  cases HookPoint.place? anchor index removed.body with
  | none => exact ⟨fun _ => rfl, fun _ => rfl⟩
  | some index' =>
      refine iff_of_false (fun hlost => ?_) (Option.some_ne_none index')
      dsimp only [ok_bind] at hlost
      cases hinsert : removed.insertOne (HookPoint.nextIndex { point with
          anchor := .after anchor index', injected := watch.calls.length })
        (HookPoint.callText { point with
          anchor := .after anchor index', injected := watch.calls.length } target) with
      | ok changed =>
          rw [hinsert] at hlost
          cases hlost
      | error e =>
          have hbounds := HookPoint.eq_outOfBounds_of_insertOne
            (HookPoint.parse_of_readCall hread) hwritable hinsert
          rw [hinsert, hbounds] at hlost
          cases hlost

end Watch

/-! ## Along a run -/

/-- A point behind an instruction, along any run of calls at the point and of insertions that do not
come behind the instruction.  The next call that fits goes right behind the instruction and the calls
before it exactly if its reference can be written, the instruction still equals its copy, and nothing
was put in since the last call or no equal instruction stands in front.  So all calls do for an
instruction without a target that has no equal in front of it and none among what is put in, and at most
one does for a branch forward.  When the instruction is taken out, the point is lost exactly if none
that is equal is left. -/
theorem HookRegistry.inject_behind_anchor {hooks : HookRegistry} {pool : ClassPool} {name : String}
    {point : HookPoint} {id : MethodId} {method : Method} {index : Nat} {registers : List Register}
    {anchor : Instruction} {watch : Watch} (hmethod : pool.method? id = some method)
    (hpoint : HookPoint.after id method index registers = .ok point)
    (hanchor : method.body[index]? = some anchor)
    (hrun : Relation.ReflTransGen (Watch.Step name point)
      { hooks := hooks.register name point, pool, place := index } watch) :
    ∃ method' move removed, watch.pool.method? id = some method' ∧
      method'.body[watch.place]? = some (anchor.retarget move) ∧
      method'.remove watch.place 1 = .ok removed ∧
      (watch.lawful → watch.calls <+: method'.body.drop (watch.place + 1)) ∧
      (∀ descriptor target, point.readCall name descriptor = .ok target →
        (watch.lawful →
          ((watch.hooks.inject watch.pool name descriptor).1 =
              .ok (watch.place + 1 + watch.calls.length) ↔
            target.Writable ∧ anchor.retarget move = anchor ∧
              (watch.disturbed = false ∨ anchor ∉ method'.body.take watch.place))) ∧
        (target.Writable →
          ((watch.hooks.inject (watch.pool.setMethod id removed) name descriptor).1 =
              .error (.hookPointLost removed.descriptor anchor.text) ↔ anchor ∉ removed.body))) ∧
      (anchor.target = none → anchor ∉ method.body.take index → anchor ∉ watch.others →
        watch.lawful ∧ anchor.retarget move = anchor ∧ anchor ∉ method'.body.take watch.place) ∧
      ∀ target, anchor.target = some target → index < target → watch.lawful →
        watch.calls ≠ [] → anchor.retarget move ≠ anchor := by
  have hafter : point = { method := id, anchor := .after anchor index, registers } := by
    rw [HookPoint.after, Method.instruction, hanchor] at hpoint
    cases hpoint
    rfl
  obtain ⟨first, rest, hbody, hlength⟩ := Weave.split_of_getElem? hanchor
  have hid : point.method = id := by rw [hafter]
  rw [← hid] at hmethod ⊢
  have hstart := Watch.stands_start name hooks hmethod hbody (by rw [hafter, hlength])
    (by rw [hafter])
  rw [← hlength] at hrun ⊢
  obtain ⟨index', method', move, front, rest', h⟩ := hstart.run hrun
  obtain ⟨removed, hremoved⟩ : ∃ removed, method'.remove watch.place 1 = .ok removed := by
    rw [Method.remove_eq, if_neg]
    · exact ⟨_, rfl⟩
    · rw [h.body, List.length_append, List.length_cons, h.place]
      omega
  have htake : method'.body.take watch.place = front := by rw [h.body, ← h.place, List.take_left]
  refine ⟨method', move, removed, h.within, ?_, hremoved, ?_, ?_, ?_, ?_⟩
  · rw [h.body, ← h.place]
    simp
  · intro hlawful
    have hdrop : method'.body.drop (watch.place + 1) = rest' := by
      rw [h.body, ← h.place]
      simp
    rw [hdrop]
    exact h.behind hlawful
  · intro descriptor target hread
    rw [htake]
    exact ⟨fun hlawful => h.inject_eq_iff hlawful hread,
      fun hwritable => h.inject_lost_iff hread hwritable _⟩
  · intro htarget hfirst hothers
    rw [hbody, List.take_left] at hfirst
    rw [htake]
    obtain ⟨hlawful, hfront⟩ := h.plain htarget hfirst hothers
    exact ⟨hlawful, Weave.retarget_of_target_eq_none htarget move, hfront⟩
  · intro target htarget hlt hlawful hcalls heq
    have hmoved := (h.forward hlawful target htarget hlt).2.2 hcalls
    have hsame : some (move target) = some target := by
      rw [← htarget, ← congrArg Instruction.target heq, Instruction.retarget, htarget]
      rfl
    rw [Option.some.injEq] at hsame
    omega

/-- Behind a load, with an instruction put in in front and a call: the next call goes behind both. -/
theorem HookRegistry.inject_behind_anchor_load :
    let load : Instruction := ⟨.const4, [0], some 0, none, none, none⟩
    let other : Instruction := { opcode := .nop }
    let point : HookPoint := ⟨⟨0, 0⟩, .after load 1, [], 0⟩
    ∃ watch, Relation.ReflTransGen (Watch.Step "p" point)
        ⟨({} : HookRegistry).register "p" point, .ofBody [other, load], 1, [], true, [], false⟩ watch ∧
      watch.place = 2 ∧ watch.calls.length = 1 ∧
        (watch.hooks.inject watch.pool "p" "La;->f()V").1 = .ok 4 := by
  intro load other point
  set hooks := ({} : HookRegistry).register "p" point with hhooks
  let target : MethodRef := ⟨"La;", "f", [], "V"⟩
  have hparsed : MethodRef.parse "La;->f()V" = .ok target := by decide +kernel
  have hread : point.readCall "p" "La;->f()V" = .ok target := by decide +kernel
  have hcallText : (Method.ofBody []).assembleOne 0 (point.callText target) =
      .ok (point.call target) := by decide +kernel
  have hwritable : target.Writable :=
    (HookPoint.assembleOne_callText_iff hparsed (.ofBody []) 0).mp ⟨_, hcallText⟩
  set run := hooks.inject (.ofBody [other, other, load]) "p" "La;->f()V" with hrun
  have hfirst : run.1 = .ok 3 := by decide +kernel
  have hinserted : (Method.ofBody [other, load]).insert 0 [other] =
      .ok (.ofBody [other, other, load]) := rfl
  have hadded : hooks.inject (.ofBody [other, other, load]) "p" "La;->f()V" =
      (.ok 3, run.2.1, run.2.2) := Prod.ext hfirst rfl
  have hinsert : Watch.Step "p" point
      ⟨hooks, .ofBody [other, load], 1, [], true, [], false⟩
      ⟨hooks, .ofBody [other, other, load], 2, [], true, [other], true⟩ :=
    .insert rfl (Nat.zero_le 1) hinserted
  have hcall : Watch.Step "p" point
      ⟨hooks, .ofBody [other, other, load], 2, [], true, [other], true⟩
      ⟨run.2.1, run.2.2, 2, [point.call target], true, [other], false⟩ :=
    @Watch.Step.call _ _ _ _ _ 3 _ _ hparsed hadded
  have hsteps := (Relation.ReflTransGen.single hinsert).tail hcall
  have hmethod : (ClassPool.ofBody [other, load]).method? ⟨0, 0⟩ = some (.ofBody [other, load]) := rfl
  have hpoint : HookPoint.after ⟨0, 0⟩ (.ofBody [other, load]) 1 [] = .ok point := rfl
  obtain ⟨method', move, removed, -, -, -, -, hnext, hplain, -⟩ :=
    HookRegistry.inject_behind_anchor hmethod hpoint rfl hsteps
  obtain ⟨hlawful, hsame, -⟩ := hplain rfl (by decide) (by decide)
  exact ⟨_, hsteps, rfl, rfl,
    ((hnext _ target hread).1 hlawful).mpr ⟨hwritable, hsame, .inl rfl⟩⟩

/-- Three points that do not stay behind their instructions: a branch over the call that was added, a
load with its like in front of it, and a load that was taken out while its like is left. -/
theorem HookRegistry.inject_behind_anchor_fails :
    let load : Instruction := ⟨.const4, [0], some 0, none, none, none⟩
    let branch : Instruction := ⟨.ifEqz, [0], none, none, some 1, none⟩
    let other : Instruction := { opcode := .nop }
    let behind (anchor : Instruction) (index : Nat) : HookRegistry :=
      ({} : HookRegistry).register "p" ⟨⟨0, 0⟩, .after anchor index, [], 0⟩
    let once := (behind branch 0).inject (.ofBody [branch, other]) "p" "La;->f()V"
    (once.1 = .ok 1 ∧ (once.2.1.inject once.2.2 "p" "La;->f()V").1 =
        .error (.hookPointLost "La;->b()V" "if-eqz v0, :L1")) ∧
      ((Method.ofBody [load, other, load]).insert 0 [other] =
          .ok (.ofBody [other, load, other, load]) ∧
        ((behind load 2).inject (.ofBody [other, load, other, load]) "p" "La;->f()V").1 = .ok 2) ∧
      (Method.ofBody [load, load]).remove 1 1 = .ok (.ofBody [load]) ∧
        ((behind load 1).inject (.ofBody [load]) "p" "La;->f()V").1 = .ok 1 := by
  decide +kernel

end DexGraft
