import DexGraft.Proofs.Code.Weave
import DexGraft.Proofs.Patch.Attempt

/-!
# Many calls

Calls are added at the hook points of a pool one after the other, at any of the points and in any
order, and some cannot be added.  However the points move each other's anchors, the calls of a point
come to stand in one group at its spot, in the order in which they were added.
-/

namespace DexGraft

open Outcome

/-! ## Pools with calls at spots -/

/-- The method with calls put in at its spots. -/
def Method.weave (calls : Spot → List Instruction) (id : MethodId) (method : Method) : Method :=
  { method with
    body := Weave.weave (calls ⟨id, none⟩) (fun item => calls ⟨id, some item⟩) method.body }

/-- The pool with calls put in at the spots of its methods. -/
def ClassPool.weave (pool : ClassPool) (calls : Spot → List Instruction) : ClassPool :=
  pool.mapMethods (Method.weave calls)

theorem Method.weave_eq_self {calls : Spot → List Instruction} {id : MethodId} {method : Method}
    (h : ∀ anchor, calls ⟨id, anchor⟩ = []) : method.weave calls id = method := by
  rw [weave, h none, Weave.weave_eq_self fun item _ => h (some item)]

section Inserting

/-- Where an instruction of the method has its place among the calls at the spots. -/
def Method.place (calls : Spot → List Instruction) (id : MethodId) (method : Method) (index : Nat) :
    Nat :=
  Weave.place (calls ⟨id, none⟩) (fun item => calls ⟨id, some item⟩) method.body index

/-- Where the calls at a spot begin. -/
def Method.start (calls : Spot → List Instruction) (spot : Spot) (method : Method) : Nat :=
  match spot.anchor with
  | none => 0
  | some anchor => method.place calls spot.method (method.body.idxOf anchor) + 1

variable {calls calls' : Spot → List Instruction} {spot : Spot} {method : Method}
  {call : Instruction} {c d : List Instruction}

/-- Calls behind other instructions than the anchor of a spot are at other spots. -/
theorem behind_eq_of_not_mem {id : MethodId} {anchor : Instruction} {items : List Instruction}
    (hother : ∀ other, other ≠ (⟨id, some anchor⟩ : Spot) → calls' other = calls other)
    (h : anchor ∉ items) :
    ∀ item ∈ items, calls' ⟨id, some item⟩ = calls ⟨id, some item⟩ := by
  intro item hitem
  refine hother _ fun heq => h ?_
  cases heq
  exact hitem

/-- A call that is put in at a spot, behind some of those that are there. -/
theorem Method.insert_start (spot : Spot) (huntargeted : ∀ spot, Weave.Untargeted (calls spot))
    (honce : ∀ anchor, spot.anchor = some anchor → method.body.count anchor = 1)
    (hparts : calls spot = c ++ d) (hcall : calls' spot = c ++ call :: d)
    (hother : ∀ other, other ≠ spot → calls' other = calls other) :
    (method.weave calls spot.method).insert (method.start calls spot + c.length) [call] =
      .ok (method.weave calls' spot.method) := by
  obtain ⟨id, anchor⟩ := spot
  cases anchor with
  | none =>
      have hbehind : (fun item => calls' ⟨id, some item⟩) = fun item => calls ⟨id, some item⟩ := by
        funext item
        exact hother _ fun heq => by cases heq
      have hbody : (method.weave calls id).body = Weave.weave (calls ⟨id, none⟩)
          (fun item => calls ⟨id, some item⟩) method.body := rfl
      have hinsert := Weave.insert_front call hbody hparts (huntargeted _)
        fun item _ => huntargeted _
      rw [start, Nat.zero_add, hinsert, Method.weave, Method.weave, hcall, hbehind]
  | some anchor =>
      obtain ⟨a, b, hsplit, hapart⟩ := Weave.split_of_count_eq_one (honce anchor rfl)
      have hfront : calls' ⟨id, none⟩ = calls ⟨id, none⟩ := hother _ fun heq => by cases heq
      have hbehind := behind_eq_of_not_mem hother hapart
      have hbody : (method.weave calls id).body = Weave.weave (calls ⟨id, none⟩)
          (fun item => calls ⟨id, some item⟩) (a ++ anchor :: b) := by
        rw [Method.weave, hsplit]
      have hinsert := Weave.insert_behind hbody (huntargeted _) (fun item _ => huntargeted _) hparts
        hcall hbehind
      have hidx := Weave.idxOf_append (b := b) fun hmem => hapart (List.mem_append_left b hmem)
      rw [Weave.behindPlace] at hinsert
      simp only [start, place, hsplit, hidx]
      rw [hinsert, Method.weave, Method.weave, hfront, hsplit]

/-- A point whose anchor is found has its next call behind as many calls at its spot as it has put in
itself. -/
theorem HookPoint.nextIndex_eq {point : HookPoint}
    (hanchored : point.Anchored (method.weave calls point.method).body)
    (hanchor : ∀ anchor, point.spot.anchor = some anchor → anchor.target = none ∧
      method.body.count anchor = 1 ∧ ∀ other, anchor ∉ calls ⟨point.method, other⟩) :
    point.nextIndex = method.start calls point.spot + point.injected := by
  rw [nextIndex, Method.start]
  rw [Anchored] at hanchored
  rw [spot] at hanchor ⊢
  cases hpoint : point.anchor with
  | entry => exact (Nat.zero_add _).symm
  | after anchor index =>
      rw [hpoint] at hanchor
      obtain ⟨htarget, hcount, havoids⟩ := hanchor anchor rfl
      obtain ⟨a, b, hsplit, hapart⟩ := Weave.split_of_count_eq_one hcount
      have hindex := hanchored anchor index hpoint
      have hidx := Weave.idxOf_append (b := b) fun hmem => hapart (List.mem_append_left b hmem)
      rw [Method.weave, hsplit] at hindex
      have hplace := Weave.eq_place_of_getElem?_weave htarget hapart (havoids none)
        (fun item _ => havoids (some item)) hindex
      dsimp only [Anchor.instruction?, Method.place]
      rw [hplace, hsplit, hidx]

end Inserting

namespace HookRegistry

variable {hooks : HookRegistry}

/-! ## Fresh points -/

/-- Nothing has been put in at the points, and each anchor can be told from everything else in its
method.  Points may share a spot, and the index that a point has for its anchor does not matter. -/
structure Findable (hooks : HookRegistry) (pool : ClassPool) : Prop where
  unused : ∀ {name point}, hooks.get? name = some point → point.injected = 0
  untargeted : ∀ {name point anchor}, hooks.get? name = some point →
    point.spot.anchor = some anchor → anchor.target = none
  once : ∀ {name point anchor method}, hooks.get? name = some point →
    point.spot.anchor = some anchor → pool.method? point.method = some method →
      method.body.count anchor = 1

/-- Nothing has been put in at the points, which have spots of their own, and each anchor can be
told from everything else in its method.  The index that a point has for its anchor does not
matter. -/
structure Fresh (hooks : HookRegistry) (pool : ClassPool) : Prop where
  unused : ∀ {name point}, hooks.get? name = some point → point.injected = 0
  apart : ∀ {name other point point'}, hooks.get? name = some point →
    hooks.get? other = some point' → point.spot = point'.spot → name = other
  untargeted : ∀ {name point anchor}, hooks.get? name = some point →
    point.spot.anchor = some anchor → anchor.target = none
  once : ∀ {name point anchor method}, hooks.get? name = some point →
    point.spot.anchor = some anchor → pool.method? point.method = some method →
      method.body.count anchor = 1

theorem Fresh.findable {pool : ClassPool} (h : hooks.Fresh pool) : hooks.Findable pool :=
  ⟨h.unused, h.untargeted, h.once⟩

/-- No call that was put in into the method of an anchor equals the anchor. -/
def AvoidsAnchors (hooks : HookRegistry) (attempts : List Attempt) : Prop :=
  ∀ {name point anchor}, hooks.get? name = some point → point.spot.anchor = some anchor →
    ∀ other, anchor ∉ hooks.callsAt attempts ⟨point.method, other⟩

theorem AvoidsAnchors.of_append {attempts others : List Attempt}
    (h : hooks.AvoidsAnchors (attempts ++ others)) : hooks.AvoidsAnchors attempts := by
  intro name point anchor hpoint hanchor other hmem
  refine h hpoint hanchor other ?_
  rw [callsAt_append]
  exact List.mem_append_left _ hmem

/-- An anchor that is no call of the sort that is put in equals none of the calls. -/
theorem avoidsAnchors_of_opcode (h : ∀ {name point anchor}, hooks.get? name = some point →
    point.spot.anchor = some anchor → anchor.opcode ≠ .invokeStatic) (attempts : List Attempt) :
    hooks.AvoidsAnchors attempts := by
  intro name point anchor hpoint hanchor other hmem
  obtain ⟨attempt, -, hcall⟩ := List.mem_filterMap.mp hmem
  exact h hpoint hanchor (of_call? hcall).1

variable {pool : ClassPool}

/-- The calls at the spot of a point are its own. -/
theorem Fresh.callsAt_spot (hfresh : hooks.Fresh pool) {name : String} {point : HookPoint}
    (hpoint : hooks.get? name = some point) (attempts : List Attempt) :
    hooks.callsAt attempts point.spot = hooks.callsOf attempts name := by
  have hfilter : (attempts.filter fun attempt =>
      (hooks.get? attempt.name).map HookPoint.spot = some point.spot) =
        attempts.filter (·.name = name) := by
    refine List.filter_congr fun attempt _ => ?_
    rw [decide_eq_decide, Option.map_eq_some_iff]
    constructor
    · rintro ⟨other, hother, hspot⟩
      exact hfresh.apart hother hpoint hspot
    · rintro rfl
      exact ⟨point, hpoint, rfl⟩
  rw [callsAt, callsOf, hfilter]

/-- Where points have spots of their own, the calls at each spot stand in order. -/
theorem Fresh.groupAt_eq (hfresh : hooks.Fresh pool) (attempts : List Attempt) :
    hooks.groupAt attempts = hooks.callsAt attempts := by
  funext spot
  have hreverse : Turn.lineUp (hooks.turnsAt attempts spot) =
      (hooks.turnsAt attempts spot).reverse := by
    cases hturns : hooks.turnsAt attempts spot with
    | nil => rfl
    | cons first turns =>
        rw [← hturns]
        have hfirst : first ∈ hooks.turnsAt attempts spot := hturns ▸ List.mem_cons_self ..
        obtain ⟨point, hpoint, hspot⟩ := exists_of_mem_turnsAt hfirst
        refine Turn.lineUp_eq_reverse first.name fun turn hturn => ?_
        obtain ⟨point', hpoint', hspot'⟩ := exists_of_mem_turnsAt hturn
        exact hfresh.apart hpoint' hpoint (hspot'.trans hspot.symm)
  rw [groupAt, hreverse, map_call_turnsAt]

/-! ## What a run preserves -/

/-- The points are those that there were, each with the number of its calls. -/
structure Tracks (hooks : HookRegistry) (attempts : List Attempt) (hooks' : HookRegistry) :
    Prop where
  unknown : ∀ {name}, hooks.get? name = none → hooks'.get? name = none
  known : ∀ {name point}, hooks.get? name = some point → ∃ point', hooks'.get? name = some point' ∧
    point'.spot = point.spot ∧ point'.registers = point.registers ∧
      point'.injected = (hooks.callsOf attempts name).length

/-- What the attempts so far have made of the points and the pool. -/
structure Woven (hooks : HookRegistry) (pool : ClassPool) (attempts : List Attempt)
    (hooks' : HookRegistry) (pool' : ClassPool) : Prop where
  tracks : hooks.Tracks attempts hooks'
  pool_eq : pool' = pool.weave (hooks.groupAt attempts)
  /-- Every attempt that succeeded has put in a call. -/
  sound : ∀ attempt ∈ attempts, attempt.result.isOk → (hooks.call? attempt).isSome

theorem Findable.woven_nil (h : hooks.Findable pool) : Woven hooks pool [] hooks pool where
  tracks := ⟨id, fun {_ point} hpoint => ⟨point, hpoint, rfl, rfl, h.unused hpoint⟩⟩
  pool_eq := by
    refine (ClassPool.mapMethods_eq_self fun id method _ => ?_).symm
    exact Method.weave_eq_self fun anchor => rfl
  sound := fun attempt hattempt => absurd hattempt List.not_mem_nil

variable {attempts : List Attempt} {attempt : Attempt} {hooks' : HookRegistry} {pool' : ClassPool}

/-- A point that is there was there before. -/
theorem Tracks.exists_of_get? (h : hooks.Tracks attempts hooks') {name : String}
    {point' : HookPoint} (hfound : hooks'.get? name = some point') :
    ∃ point, hooks.get? name = some point ∧ point'.spot = point.spot ∧
      point'.registers = point.registers ∧
      point'.injected = (hooks.callsOf attempts name).length := by
  cases hpoint : hooks.get? name with
  | none =>
      rw [h.unknown hpoint] at hfound
      cases hfound
  | some point =>
      obtain ⟨other, hother, hsame⟩ := h.known hpoint
      rw [hfound] at hother
      cases hother
      exact ⟨point, rfl, hsame⟩

/-- An attempt without a call leaves everything as it is. -/
theorem Tracks.concat_none (h : hooks.Tracks attempts hooks') (hcall : hooks.call? attempt = none) :
    hooks.Tracks (attempts ++ [attempt]) hooks' := by
  refine ⟨h.unknown, fun {name point} hpoint => ?_⟩
  rw [callsOf_concat, hcall, Option.toList_none, ite_self, List.append_nil]
  exact h.known hpoint

/-- The point of an attempt may be registered again, with its call counted. -/
theorem Tracks.register (h : hooks.Tracks attempts hooks') {point' located : HookPoint}
    (hfound : hooks'.get? attempt.name = some point') (hspot : located.spot = point'.spot)
    (hregisters : located.registers = point'.registers)
    (hinjected : located.injected = point'.injected + (hooks.call? attempt).toList.length) :
    hooks.Tracks (attempts ++ [attempt]) (hooks'.register attempt.name located) := by
  constructor
  · intro name hunknown
    have hnone := h.unknown hunknown
    rw [get?_register, if_neg, hnone]
    rintro rfl
    rw [hnone] at hfound
    cases hfound
  · intro name point hpoint
    obtain ⟨other, hother, hspot', hregisters', hcount⟩ := h.known hpoint
    rw [get?_register, callsOf_concat]
    by_cases heq : name = attempt.name
    · subst heq
      rw [hfound] at hother
      cases hother
      refine ⟨located, if_pos rfl, hspot.trans hspot', hregisters.trans hregisters', ?_⟩
      rw [if_pos rfl, List.length_append, hinjected, hcount]
    · refine ⟨other, ?_, hspot', hregisters', ?_⟩
      · rw [if_neg heq, hother]
      · rw [if_neg (Ne.symm heq), List.append_nil, hcount]

theorem Woven.sound_concat (h : Woven hooks pool attempts hooks' pool')
    (hattempt : attempt.result.isOk → (hooks.call? attempt).isSome) :
    ∀ other ∈ attempts ++ [attempt], other.result.isOk → (hooks.call? other).isSome := by
  intro other hother
  rcases List.mem_append.mp hother with hother | hother
  · exact h.sound other hother
  · rw [List.mem_singleton.mp hother]
    exact hattempt

/-- An attempt that fails leaves the pool as it is. -/
theorem Woven.concat_error (h : Woven hooks pool attempts hooks' pool') {hooks'' : HookRegistry}
    (htracks : hooks.Tracks (attempts ++ [attempt]) hooks'') (hcall : hooks.call? attempt = none)
    (hfailed : attempt.result.isOk = false) :
    Woven hooks pool (attempts ++ [attempt]) hooks'' pool' := by
  refine ⟨htracks, ?_, h.sound_concat fun hok => ?_⟩
  · rw [groupAt_concat_none hcall, h.pool_eq]
  · rw [hfailed] at hok
    cases hok

/-- Where a call goes that is added at a point of the pool. -/
theorem Findable.nextIndex_eq (hfindable : hooks.Findable pool)
    (havoids : hooks.AvoidsAnchors attempts) {name : String} {point located : HookPoint}
    {method : Method} (hpoint : hooks.get? name = some point) (hspot : located.spot = point.spot)
    (hmethod : pool.method? located.method = some method)
    (hanchored : located.Anchored (method.weave (hooks.groupAt attempts) located.method).body) :
    located.nextIndex = method.start (hooks.groupAt attempts) point.spot + located.injected := by
  have hid : located.method = point.method := congrArg Spot.method hspot
  rw [HookPoint.nextIndex_eq hanchored, hspot]
  intro anchor hanchor
  rw [hspot] at hanchor
  rw [hid] at hmethod ⊢
  refine ⟨hfindable.untargeted hpoint hanchor, hfindable.once hpoint hanchor hmethod, ?_⟩
  exact fun other hmem => havoids hpoint hanchor other (mem_groupAt_iff.mp hmem)

/-- The call of an attempt, put in behind those of its point, joins the calls at the spot. -/
theorem Findable.insert_groupAt (hfindable : hooks.Findable pool) (attempts : List Attempt)
    {point : HookPoint} {method : Method} {call : Instruction}
    (hpoint : hooks.get? attempt.name = some point)
    (hcall : hooks.call? attempt = some call) (hmethod : pool.method? point.method = some method) :
    (method.weave (hooks.groupAt attempts) point.method).insert
        (method.start (hooks.groupAt attempts) point.spot +
          (hooks.callsOf attempts attempt.name).length) [call] =
      .ok (method.weave (hooks.groupAt (attempts ++ [attempt])) point.method) := by
  obtain ⟨c, d, hparts, hgroup, hlength⟩ := exists_groupAt_concat attempts hpoint hcall
  rw [← hlength]
  exact Method.insert_start point.spot (untargeted_groupAt attempts)
    (fun anchor hanchor => hfindable.once hpoint hanchor hmethod) hparts hgroup fun other hne =>
      groupAt_concat_of_ne hpoint hne

/-- The method of the spot that an attempt has put its call in at is the only one to change. -/
theorem setMethod_weave {point : HookPoint} {method : Method}
    (hpoint : hooks.get? attempt.name = some point)
    (hmethod : pool.method? point.method = some method) :
    (pool.weave (hooks.groupAt attempts)).setMethod point.method
        (method.weave (hooks.groupAt (attempts ++ [attempt])) point.method) =
      pool.weave (hooks.groupAt (attempts ++ [attempt])) := by
  refine ClassPool.setMethod_mapMethods hmethod fun id hid => ?_
  have hgroups (anchor : Option Instruction) :
      hooks.groupAt (attempts ++ [attempt]) ⟨id, anchor⟩ = hooks.groupAt attempts ⟨id, anchor⟩ :=
    groupAt_concat_of_ne hpoint fun heq => hid (congrArg Spot.method heq)
  funext method
  rw [Method.weave, Method.weave]
  simp only [hgroups]

/-- What one more attempt preserves, and where its call goes if it succeeds. -/
theorem Woven.inject (hfindable : hooks.Findable pool) (havoids : hooks.AvoidsAnchors attempts)
    (h : Woven hooks pool attempts hooks' pool') {name descriptor : String}
    {result : Except Error Nat} {hooks'' : HookRegistry} {pool'' : ClassPool}
    (hinject : hooks'.inject pool' name descriptor = (result, hooks'', pool'')) :
    Woven hooks pool (attempts ++ [⟨name, descriptor, result⟩]) hooks'' pool'' ∧
      ∀ index, result = .ok index → ∃ point method, hooks.get? name = some point ∧
        pool.method? point.method = some method ∧
        index = method.start (hooks.groupAt attempts) point.spot +
          (hooks.callsOf attempts name).length := by
  have hinjects := injects_inject hooks' pool' name descriptor
  rw [hinject] at hinjects
  cases hinjects with
  | refused e => exact ⟨h.concat_error (h.tracks.concat_none rfl) rfl rfl, nofun⟩
  | @kept point' located e hfound hsame =>
      refine ⟨h.concat_error ?_ rfl rfl, nofun⟩
      exact h.tracks.register hfound hsame.spot hsame.registers hsame.injected
  | @added point' located target method' changed hfound hparsed hbody hlocates hinserted =>
      obtain ⟨hsame, hanchored⟩ := HookPoint.of_locate hlocates
      obtain ⟨point, hpoint, hspot, hregisters, hcount⟩ := h.tracks.exists_of_get? hfound
      have hid : point'.method = point.method := congrArg Spot.method hspot
      set attempt : Attempt := ⟨name, descriptor, .ok located.nextIndex⟩ with hattempt
      have hcall : hooks.call? attempt = some (point'.call target) := by
        rw [call?, hattempt]
        dsimp only
        rw [hpoint, hparsed]
        exact congrArg some (HookPoint.call_congr hregisters.symm target)
      -- the body is the original one, woven with the calls so far
      rw [h.pool_eq, ClassPool.weave, ClassPool.method?_mapMethods, Option.map_eq_some_iff] at hbody
      obtain ⟨method, hmethod, rfl⟩ := hbody
      rw [← hsame.method] at hanchored
      have hindex := hfindable.nextIndex_eq havoids hpoint (hsame.spot.trans hspot)
        (hsame.method ▸ hmethod) hanchored
      rw [hsame.injected, hcount] at hindex
      rw [hid] at hmethod hinserted ⊢
      refine ⟨⟨?_, ?_, h.sound_concat fun _ => ?_⟩, fun index hok => ?_⟩
      · refine h.tracks.register hfound hsame.spot hsame.registers ?_
        rw [hcall, Option.toList_some, List.length_singleton]
      · have hinsert := hfindable.insert_groupAt attempts hpoint hcall hmethod
        rw [← hindex, hinserted] at hinsert
        cases hinsert
        rw [h.pool_eq]
        exact setMethod_weave hpoint hmethod
      · rw [hcall]
        rfl
      · cases hok
        exact ⟨point, method, hpoint, hmethod, hindex⟩

/-- What any number of attempts preserves. -/
theorem woven_injectAll (hfindable : hooks.Findable pool) {requests : List (String × String)}
    (hrun : hooks.injectAll pool requests = (attempts, hooks', pool'))
    (havoids : hooks.AvoidsAnchors attempts) : Woven hooks pool attempts hooks' pool' := by
  refine injectAll_preserves (P := fun attempts hooks' pool' =>
    hooks.AvoidsAnchors attempts → Woven hooks pool attempts hooks' pool') ?_
    (fun _ => hfindable.woven_nil) hrun havoids
  intro attempts hooks' pool' name descriptor result hooks'' pool'' h hinject havoids
  exact ((h havoids.of_append).inject hfindable havoids.of_append hinject).1

/-- The calls of a point are as many as the attempts at it that succeeded. -/
theorem Woven.length_callsOf (h : Woven hooks pool attempts hooks' pool') (name : String) :
    (hooks.callsOf attempts name).length =
      attempts.countP fun attempt => attempt.name = name ∧ attempt.result.isOk := by
  rw [callsOf, List.length_filterMap_eq_countP, List.countP_filter]
  refine List.countP_congr fun attempt hattempt => ?_
  have hsome : (hooks.call? attempt).isSome ↔ attempt.result.isOk := by
    refine ⟨fun hcall => ?_, h.sound attempt hattempt⟩
    cases hresult : attempt.result with
    | ok index => rfl
    | error e =>
        rw [call?, hresult] at hcall
        cases hcall
  simp only [Bool.and_eq_true, decide_eq_true_eq, hsome, and_comm]

/-- However calls are added at fresh points, the bodies are the original ones with the calls of each
point put in at its spot in the order in which they were added, and nothing else. -/
theorem injectAll_weaves {requests : List (String × String)} (hfresh : hooks.Fresh pool)
    (hrun : hooks.injectAll pool requests = (attempts, hooks', pool'))
    (havoids : hooks.AvoidsAnchors attempts) :
    pool' = pool.weave (hooks.callsAt attempts) ∧
      (∀ name point, hooks.get? name = some point →
        hooks.callsAt attempts point.spot = hooks.callsOf attempts name ∧
          ∃ point', hooks'.get? name = some point' ∧ point'.spot = point.spot ∧
            point'.registers = point.registers ∧
            point'.injected = (hooks.callsOf attempts name).length ∧
            point'.injected =
              attempts.countP fun attempt => attempt.name = name ∧ attempt.result.isOk) ∧
      (∀ spot, (∀ name point, hooks.get? name = some point → point.spot ≠ spot) →
        hooks.callsAt attempts spot = []) ∧
      (∀ id method, pool.method? id = some method → ∃ method' place,
        pool'.method? id = some method' ∧ StrictMono place ∧
          place method.body.length = method'.body.length ∧
          ∀ index item, method.body[index]? = some item →
            method'.body[place index]? = some (item.retarget place)) ∧
      ∀ id, (∀ name point, hooks.get? name = some point → point.method ≠ id) →
        pool'.method? id = pool.method? id := by
  have hwoven := woven_injectAll hfresh.findable hrun havoids
  have hpool := hwoven.pool_eq
  rw [hfresh.groupAt_eq] at hpool
  have hmethod (id : MethodId) :
      pool'.method? id = (pool.method? id).map (Method.weave (hooks.callsAt attempts) id) := by
    rw [hpool]
    exact ClassPool.method?_mapMethods id
  refine ⟨hpool, ?_, fun spot hspot => callsAt_eq_nil hspot attempts, ?_, ?_⟩
  · intro name point hpoint
    obtain ⟨point', hpoint', hspot, hregisters, hcount⟩ := hwoven.tracks.known hpoint
    refine ⟨hfresh.callsAt_spot hpoint attempts, point', hpoint', hspot, hregisters, hcount, ?_⟩
    rw [hcount, hwoven.length_callsOf]
  · intro id method hbody
    refine ⟨method.weave (hooks.callsAt attempts) id, _, ?_, Weave.place_strictMono _ _ _,
      Weave.place_length _ _ _, fun index item hitem => Weave.getElem?_weave _ _ hitem⟩
    rw [hmethod, hbody, Option.map_some]
  · intro id hid
    have hnone (anchor : Option Instruction) : hooks.callsAt attempts ⟨id, anchor⟩ = [] := by
      refine callsAt_eq_nil (fun name point hpoint heq => hid name point hpoint ?_) attempts
      exact congrArg Spot.method heq
    rw [hmethod]
    cases pool.method? id with
    | none => rfl
    | some method => rw [Option.map_some, Method.weave_eq_self hnone]

/-- A method that loads a number, and returns whether it is zero or not. -/
def loadAndTest : Method :=
  ⟨"La;", "b", [], "V", .empty, 1,
    [⟨.const4, [0], some 0, none, none, none⟩, ⟨.ifEqz, [0], none, none, some 2, none⟩,
      { opcode := .returnVoid }]⟩

/-- A point at the beginning of the first method of a pool, and one behind its load. -/
def aroundLoad : HookRegistry :=
  (({} : HookRegistry).register "start" (.atEntry ⟨0, 0⟩ [0])).register "behind"
    ⟨⟨0, 0⟩, .after ⟨.const4, [0], some 0, none, none, none⟩ 0, [0], 0⟩

/-- Calls at both points, one of which is given no method. -/
theorem injectAll_weaves_aroundLoad :
    let pool : ClassPool := ⟨[⟨"La;", none, .empty, none, [loadAndTest]⟩]⟩
    let run := aroundLoad.injectAll pool
      [("start", "La;->f(I)V"), ("behind", "La;->g(I)V"), ("behind", ""), ("start", "La;->h(I)V")]
    aroundLoad.Fresh pool ∧ aroundLoad.AvoidsAnchors run.1 ∧
      run.1.map (·.result.isOk) = [true, true, false, true] ∧
      run.2.2 = pool.weave (aroundLoad.callsAt run.1) := by
  intro pool run
  have hpoints : ∀ {name point}, aroundLoad.get? name = some point →
      name = "start" ∧ point = .atEntry ⟨0, 0⟩ [0] ∨ name = "behind" ∧
        point = ⟨⟨0, 0⟩, .after ⟨.const4, [0], some 0, none, none, none⟩ 0, [0], 0⟩ := by
    intro name point hpoint
    rw [aroundLoad, get?_register, get?_register] at hpoint
    split at hpoint
    · cases hpoint
      exact .inr ⟨‹_›, rfl⟩
    · split at hpoint
      · cases hpoint
        exact .inl ⟨‹_›, rfl⟩
      · cases hpoint
  have hfresh : aroundLoad.Fresh pool := by
    refine ⟨?_, ?_, ?_, ?_⟩
    · intro name point hpoint
      rcases hpoints hpoint with ⟨-, rfl⟩ | ⟨-, rfl⟩ <;> rfl
    · intro name other point point' hpoint hpoint' hspot
      rcases hpoints hpoint with ⟨rfl, rfl⟩ | ⟨rfl, rfl⟩ <;>
        rcases hpoints hpoint' with ⟨rfl, rfl⟩ | ⟨rfl, rfl⟩
      · rfl
      · cases hspot
      · cases hspot
      · rfl
    · intro name point anchor hpoint hanchor
      rcases hpoints hpoint with ⟨-, rfl⟩ | ⟨-, rfl⟩ <;> cases hanchor
      rfl
    · intro name point anchor method hpoint hanchor hmethod
      rcases hpoints hpoint with ⟨-, rfl⟩ | ⟨-, rfl⟩ <;> cases hanchor
      cases hmethod
      decide
  have havoids : aroundLoad.AvoidsAnchors run.1 := by
    refine avoidsAnchors_of_opcode (fun {name point anchor} hpoint hanchor => ?_) _
    rcases hpoints hpoint with ⟨-, rfl⟩ | ⟨-, rfl⟩ <;> cases hanchor
    decide
  exact ⟨hfresh, havoids, by decide +kernel, (injectAll_weaves hfresh rfl havoids).1⟩

end HookRegistry

end DexGraft
