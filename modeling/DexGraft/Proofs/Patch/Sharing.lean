import DexGraft.Proofs.Patch.Standing
import DexGraft.Proofs.Patch.Weaving

/-!
# Points that share a spot

Several points may be registered at the beginning of a method or behind the same instruction.  Each
counts its own calls only, so a call may be put in among the calls of another point.  The main statement
says where every call stands, and exactly when the calls of a point are in order: when no other point
with fewer calls has added one between calls of the point.
-/

namespace DexGraft

open Outcome

/-! ## Where spots begin -/

section Starting

variable {calls calls' : Spot → List Instruction} {spot : Spot} {method : Method}
  {call : Instruction} {c d : List Instruction}

/-- Places move along with what is put in at a spot. -/
theorem Method.afterInsert_place
    (honce : ∀ anchor, spot.anchor = some anchor → method.body.count anchor = 1)
    (hparts : calls spot = c ++ d) (hcall : calls' spot = c ++ call :: d)
    (hother : ∀ other, other ≠ spot → calls' other = calls other) (target : Nat) :
    Target.afterInsert (method.start calls spot + c.length) 1
        (method.place calls spot.method target) =
      method.place calls' spot.method target := by
  obtain ⟨id, anchor⟩ := spot
  cases anchor with
  | none =>
      have hbehind : (fun item => calls' ⟨id, some item⟩) = fun item => calls ⟨id, some item⟩ := by
        funext item
        exact hother _ fun heq => by cases heq
      rw [start, place, place, Weave.place, Weave.place, hbehind, hparts, hcall, Target.afterInsert,
        if_pos]
      · simp only [List.length_append, List.length_cons]
        omega
      · simp only [List.length_append]
        omega
  | some anchor =>
      obtain ⟨a, b, hsplit, hapart⟩ := Weave.split_of_count_eq_one (honce anchor rfl)
      have hfront : calls' ⟨id, none⟩ = calls ⟨id, none⟩ := hother _ fun heq => by cases heq
      have hbehind := behind_eq_of_not_mem hother hapart
      have hidx := Weave.idxOf_append (b := b) fun hmem => hapart (List.mem_append_left b hmem)
      have hmove := Weave.afterInsert_place (calls ⟨id, none⟩) hparts hcall hbehind target
      rw [Weave.behindPlace] at hmove
      simp only [start, place, hsplit, hidx, hfront]
      exact hmove

theorem Method.start_congr
    (h : ∀ anchor, calls' ⟨spot.method, anchor⟩ = calls ⟨spot.method, anchor⟩) (method : Method) :
    method.start calls' spot = method.start calls spot := by
  simp only [start, place, h]

/-- A spot does not move as a call is put in there. -/
theorem Method.start_self
    (honce : ∀ anchor, spot.anchor = some anchor → method.body.count anchor = 1)
    (hparts : calls spot = c ++ d) (hcall : calls' spot = c ++ call :: d)
    (hother : ∀ other, other ≠ spot → calls' other = calls other) :
    method.start calls' spot = method.start calls spot := by
  have hmove := afterInsert_place honce hparts hcall hother
  rw [start] at hmove
  rw [start, start]
  cases hanchor : spot.anchor with
  | none => rfl
  | some anchor =>
      dsimp only
      rw [← hmove, hanchor, Target.afterInsert, if_neg]
      dsimp only
      omega

/-- The calls at two spots of a method stand apart. -/
theorem Method.start_apart (calls : Spot → List Instruction) {other : Spot}
    (hmethod : other.method = spot.method) (hne : other ≠ spot)
    (hmem : ∀ anchor, spot.anchor = some anchor → anchor ∈ method.body)
    (hmem' : ∀ anchor, other.anchor = some anchor → anchor ∈ method.body) :
    method.start calls spot + (calls spot).length < method.start calls other ∨
      method.start calls other + (calls other).length < method.start calls spot := by
  obtain ⟨id, anchor⟩ := spot
  obtain ⟨id', anchor'⟩ := other
  cases hmethod
  have hfront (index : Nat) : (calls ⟨id, none⟩).length ≤ method.place calls id index := by
    rw [place, Weave.place]
    omega
  have hfound : ∀ item ∈ method.body, method.body[method.body.idxOf item]? = some item :=
    fun item hitem => List.getElem?_eq_some_iff.mpr
      ⟨List.idxOf_lt_length_of_mem hitem, List.getElem_idxOf _⟩
  rw [start, start]
  cases anchor with
  | none =>
      cases anchor' with
      | none => exact absurd rfl hne
      | some anchor' =>
          have := hfront (method.body.idxOf anchor')
          exact .inl (by dsimp only; omega)
  | some anchor =>
      have hanchor := hfound anchor (hmem anchor rfl)
      cases anchor' with
      | none =>
          have := hfront (method.body.idxOf anchor)
          exact .inr (by dsimp only; omega)
      | some anchor' =>
          have hanchor' := hfound anchor' (hmem' anchor' rfl)
          have hbehind {index index' : Nat} {item : Instruction}
              (hitem : method.body[index]? = some item) (hlt : index < index') :
              method.place calls id index + 1 + (calls ⟨id, some item⟩).length ≤
                method.place calls id index' :=
            Weave.place_add_length_le _ (fun item => calls ⟨id, some item⟩) hitem hlt
          rcases Nat.lt_trichotomy (method.body.idxOf anchor) (method.body.idxOf anchor')
            with hlt | heq | hlt
          · exact .inl (Nat.lt_succ_of_le (hbehind hanchor hlt))
          · rw [← heq, hanchor, Option.some.injEq] at hanchor'
            exact absurd (by rw [hanchor']) hne
          · exact .inr (Nat.lt_succ_of_le (hbehind hanchor' hlt))

/-- Calls at another spot of the method move along with their spot. -/
theorem Method.afterInsert_start {other : Spot} (hmethod : other.method = spot.method)
    (hne : other ≠ spot)
    (honce : ∀ anchor, spot.anchor = some anchor → method.body.count anchor = 1)
    (hmem : ∀ anchor, other.anchor = some anchor → anchor ∈ method.body)
    (hparts : calls spot = c ++ d) (hcall : calls' spot = c ++ call :: d)
    (hother : ∀ other, other ≠ spot → calls' other = calls other) {i : Nat}
    (hi : i < (calls other).length) :
    Target.afterInsert (method.start calls spot + c.length) 1 (method.start calls other + i) =
      method.start calls' other + i := by
  have hcount : c.length ≤ (calls spot).length := by
    rw [hparts, List.length_append]
    omega
  have hapart := start_apart calls hmethod hne
    (fun anchor hanchor => List.count_pos_iff.mp (honce anchor hanchor ▸ Nat.one_pos)) hmem
  obtain ⟨id, anchor'⟩ := other
  cases hmethod
  cases anchor' with
  | none =>
      have hzero (calls : Spot → List Instruction) : method.start calls ⟨spot.method, none⟩ = 0 := rfl
      rw [hzero] at hapart ⊢
      rw [hzero, Target.afterInsert, if_neg (by omega)]
  | some anchor' =>
      have hmove := afterInsert_place honce hparts hcall hother (method.body.idxOf anchor')
      have hstart (calls : Spot → List Instruction) : method.start calls ⟨spot.method, some anchor'⟩ =
          method.place calls spot.method (method.body.idxOf anchor') + 1 := rfl
      rw [hstart] at hapart ⊢
      rw [Target.afterInsert] at hmove
      rw [hstart, Target.afterInsert]
      split at hmove <;> split <;> omega

end Starting

namespace HookRegistry

variable {hooks : HookRegistry} {pool : ClassPool} {attempts : List Attempt}
  {name descriptor : String} {point : HookPoint}

/-! ## Where turns stand -/

/-- An attempt that has put in a call has succeeded at its point. -/
theorem succeeds_of_mem_turnsAt {turn : Turn} {spot : Spot}
    (h : turn ∈ hooks.turnsAt attempts spot) :
    ∃ index, Succeeds attempts turn.name turn.number index := by
  obtain ⟨⟨name, descriptor, result⟩, hattempt, rfl, hcall, -⟩ := mem_turnsAt_iff.mp h
  cases result with
  | ok index => exact ⟨index, descriptor, hattempt⟩
  | error e => cases hcall

/-- One more attempt moves the call of a turn as it moves any place in the method. -/
theorem standing?_concat_of_turn {turn : Turn} {spot : Spot}
    (h : turn ∈ hooks.turnsAt attempts spot) (attempt : Attempt) :
    hooks.standing? (attempts ++ [attempt]) turn.number =
      (hooks.standing? attempts turn.number).map (hooks.carry spot.method · attempt) := by
  obtain ⟨index, hsucceeds⟩ := succeeds_of_mem_turnsAt h
  obtain ⟨point, hpoint, rfl⟩ := exists_of_mem_turnsAt h
  exact standing?_append hpoint hsucceeds [attempt]

/-- The calls at each spot stand one behind the other, in the line of their turns. -/
def LinedUp (hooks : HookRegistry) (pool : ClassPool) (attempts : List Attempt) : Prop :=
  ∀ {name point i turn}, hooks.get? name = some point →
    (Turn.lineUp (hooks.turnsAt attempts point.spot))[i]? = some turn →
      ∃ method, pool.method? point.method = some method ∧ hooks.standing? attempts turn.number =
        some (method.start (hooks.groupAt attempts) point.spot + i)

theorem linedUp_nil (hooks : HookRegistry) (pool : ClassPool) : hooks.LinedUp pool [] := by
  intro name point i turn hpoint hturn
  cases hturn

theorem mem_of_lineUp {spot : Spot} {i : Nat} {turn : Turn}
    (h : (Turn.lineUp (hooks.turnsAt attempts spot))[i]? = some turn) :
    turn ∈ hooks.turnsAt attempts spot :=
  (Turn.lineUp_perm _).mem_iff.mp (List.mem_of_getElem? h)

theorem LinedUp.concat_error (h : hooks.LinedUp pool attempts) (e : Error) :
    hooks.LinedUp pool (attempts ++ [⟨name, descriptor, .error e⟩]) := by
  intro other point i turn hpoint hturn
  rw [turnsAt_concat_none rfl] at hturn
  obtain ⟨method, hmethod, hstanding⟩ := h hpoint hturn
  refine ⟨method, hmethod, ?_⟩
  rw [standing?_concat_of_turn (mem_of_lineUp hturn), hstanding, groupAt_concat_none rfl]
  rfl

/-- At the spot of a call that is put in, the calls in front of it stay, and those behind it move. -/
theorem LinedUp.concat_own (hfindable : hooks.Findable pool) (h : hooks.LinedUp pool attempts)
    {call : Instruction} {method : Method} {index : Nat} (hpoint : hooks.get? name = some point)
    (hcall : hooks.call? ⟨name, descriptor, .ok index⟩ = some call)
    (hmethod : pool.method? point.method = some method)
    (hindex : index = method.start (hooks.groupAt attempts) point.spot +
      (hooks.callsOf attempts name).length) {i : Nat} {turn : Turn}
    (hturn : (Turn.lineUp (hooks.turnsAt (attempts ++ [⟨name, descriptor, .ok index⟩])
      point.spot))[i]? = some turn) :
    hooks.standing? (attempts ++ [⟨name, descriptor, .ok index⟩]) turn.number =
      some (method.start (hooks.groupAt (attempts ++ [⟨name, descriptor, .ok index⟩])) point.spot +
        i) := by
  obtain ⟨c, d, hparts, hgroup, -⟩ := exists_groupAt_concat attempts hpoint hcall
  rw [Method.start_self (fun anchor hanchor => hfindable.once hpoint hanchor hmethod) hparts hgroup
    fun other hne => groupAt_concat_of_ne hpoint hne]
  have hold {i : Nat} {turn : Turn}
      (hturn : (Turn.lineUp (hooks.turnsAt attempts point.spot))[i]? = some turn) :
      hooks.standing? (attempts ++ [⟨name, descriptor, .ok index⟩]) turn.number =
        some (Target.afterInsert index 1
          (method.start (hooks.groupAt attempts) point.spot + i)) := by
    obtain ⟨method', hmethod', hstanding⟩ := h hpoint hturn
    rw [hmethod] at hmethod'
    cases hmethod'
    rw [standing?_concat_of_turn (mem_of_lineUp hturn), hstanding, Option.map_some,
      carry_ok hpoint]
    exact congrArg some (if_pos rfl)
  rw [turnsAt_concat_some hpoint hcall, Turn.getElem?_lineUp_cons,
    count_names_turnsAt hpoint attempts] at hturn
  split at hturn
  · rw [hold hturn, Target.afterInsert, if_neg (by omega)]
  · split at hturn
    · rename_i hi
      cases hturn
      rw [standing?_concat_length hpoint, hindex, hi]
    · rw [hold hturn, Target.afterInsert, if_pos (by omega), Option.some.injEq]
      omega

/-- The calls at other spots move along with their spots. -/
theorem LinedUp.concat_other (hfindable : hooks.Findable pool) (h : hooks.LinedUp pool attempts)
    {call : Instruction} {method : Method} {index : Nat} (hpoint : hooks.get? name = some point)
    (hcall : hooks.call? ⟨name, descriptor, .ok index⟩ = some call)
    (hmethod : pool.method? point.method = some method)
    (hindex : index = method.start (hooks.groupAt attempts) point.spot +
      (hooks.callsOf attempts name).length) {other : String} {point' : HookPoint} {method' : Method}
    (hpoint' : hooks.get? other = some point') (hspot : point'.spot ≠ point.spot)
    (hmethod' : pool.method? point'.method = some method') {i : Nat} {turn : Turn}
    (hturn : (Turn.lineUp (hooks.turnsAt attempts point'.spot))[i]? = some turn) :
    hooks.standing? (attempts ++ [⟨name, descriptor, .ok index⟩]) turn.number =
      some (method'.start (hooks.groupAt (attempts ++ [⟨name, descriptor, .ok index⟩])) point'.spot +
        i) := by
  have hother (spot : Spot) (hne : spot ≠ point.spot) :
      hooks.groupAt (attempts ++ [⟨name, descriptor, .ok index⟩]) spot =
        hooks.groupAt attempts spot :=
    groupAt_concat_of_ne hpoint hne
  obtain ⟨method'', hmethod'', hstanding⟩ := h hpoint' hturn
  rw [hmethod'] at hmethod''
  cases hmethod''
  rw [standing?_concat_of_turn (mem_of_lineUp hturn), hstanding, Option.map_some, carry_ok hpoint]
  by_cases hid : point.method = point'.spot.method
  · -- another spot of the method
    have hsame : pool.method? point'.method = some method := by
      have heq : point.method = point'.method := hid
      rw [← heq, hmethod]
    rw [hmethod'] at hsame
    cases hsame
    obtain ⟨c, d, hparts, hgroup, hlength⟩ := exists_groupAt_concat attempts hpoint hcall
    have hanchor (anchor : Instruction) (hanchor : point'.spot.anchor = some anchor) :
        anchor ∈ method.body :=
      List.count_pos_iff.mp (hfindable.once hpoint' hanchor hmethod' ▸ Nat.one_pos)
    have hi : i < (hooks.groupAt attempts point'.spot).length := by
      rw [groupAt, List.length_map]
      exact (List.getElem?_eq_some_iff.mp hturn).1
    have hmove := Method.afterInsert_start hid.symm hspot
      (fun anchor hanchor => hfindable.once hpoint hanchor hmethod) hanchor hparts hgroup hother hi
    rw [hlength, ← hindex] at hmove
    rw [if_pos hid, hmove]
  · -- another method
    rw [if_neg hid, Method.start_congr fun anchor => hother _ fun heq => hid ?_]
    exact (congrArg Spot.method heq).symm

/-- A call that is put in behind those of its point takes its place in the line. -/
theorem LinedUp.concat_ok (hfindable : hooks.Findable pool) (h : hooks.LinedUp pool attempts)
    {call : Instruction} {method : Method} {index : Nat} (hpoint : hooks.get? name = some point)
    (hcall : hooks.call? ⟨name, descriptor, .ok index⟩ = some call)
    (hmethod : pool.method? point.method = some method)
    (hindex : index = method.start (hooks.groupAt attempts) point.spot +
      (hooks.callsOf attempts name).length) :
    hooks.LinedUp pool (attempts ++ [⟨name, descriptor, .ok index⟩]) := by
  intro other point' i turn hpoint' hturn
  by_cases hspot : point'.spot = point.spot
  · have hid : point'.method = point.method := congrArg Spot.method hspot
    rw [hspot] at hturn ⊢
    exact ⟨method, by rw [hid, hmethod],
      h.concat_own hfindable hpoint hcall hmethod hindex hturn⟩
  · rw [turnsAt_concat_of_ne hpoint hspot] at hturn
    obtain ⟨method', hmethod', -⟩ := h hpoint' hturn
    exact ⟨method', hmethod',
      h.concat_other hfindable hpoint hcall hmethod hindex hpoint' hspot hmethod' hturn⟩

variable {hooks' : HookRegistry} {pool' : ClassPool} {requests : List (String × String)}

/-- What any number of attempts preserves. -/
theorem linedUp_injectAll (hfindable : hooks.Findable pool)
    (hrun : hooks.injectAll pool requests = (attempts, hooks', pool'))
    (havoids : hooks.AvoidsAnchors attempts) : hooks.LinedUp pool attempts := by
  refine (injectAll_preserves (P := fun attempts hooks' pool' => hooks.AvoidsAnchors attempts →
    Woven hooks pool attempts hooks' pool' ∧ hooks.LinedUp pool attempts) ?_
    (fun _ => ⟨hfindable.woven_nil, linedUp_nil hooks pool⟩) hrun havoids).2
  intro attempts hooks' pool' name descriptor result hooks'' pool'' h hinject havoids
  obtain ⟨hwoven, hlined⟩ := h havoids.of_append
  obtain ⟨hwoven', hplaced⟩ := hwoven.inject hfindable havoids.of_append hinject
  refine ⟨hwoven', ?_⟩
  cases result with
  | error e => exact hlined.concat_error e
  | ok index =>
      obtain ⟨point, method, hpoint, hmethod, hindex⟩ := hplaced index rfl
      obtain ⟨call, hcall⟩ := Option.isSome_iff_exists.mp
        (hwoven'.sound _ (List.mem_append_right _ (List.mem_singleton_self _)) rfl)
      exact hlined.concat_ok hfindable hpoint hcall hmethod hindex

/-! ## Order -/

/-- An attempt that succeeded is a turn in the line. -/
theorem exists_turn {number index : Nat}
    (hsound : ∀ attempt ∈ attempts, attempt.result.isOk → (hooks.call? attempt).isSome)
    (hpoint : hooks.get? name = some point) (h : Succeeds attempts name number index) :
    ∃ (i : Nat) (turn : Turn),
      (Turn.lineUp (hooks.turnsAt attempts point.spot))[i]? = some turn ∧ turn.number = number ∧
        turn.name = name := by
  obtain ⟨descriptor, hattempt⟩ := h
  obtain ⟨call, hcall⟩ :=
    Option.isSome_iff_exists.mp (hsound _ (List.mem_of_getElem? hattempt) rfl)
  have hturn : ⟨number, name, call⟩ ∈ hooks.turnsAt attempts point.spot :=
    mem_turnsAt_iff.mpr ⟨_, hattempt, rfl, hcall, by rw [hpoint, Option.map_some]⟩
  obtain ⟨i, hi⟩ := List.mem_iff_getElem?.mp ((Turn.lineUp_perm _).mem_iff.mpr hturn)
  exact ⟨i, _, hi, rfl, rfl⟩

/-- Calls are in order in the method exactly if their turns are in the line. -/
theorem LinedUp.inOrder_iff (h : hooks.LinedUp pool attempts)
    (hsound : ∀ attempt ∈ attempts, attempt.result.isOk → (hooks.call? attempt).isSome)
    (hpoint : hooks.get? name = some point) :
    hooks.InOrder attempts name ↔
      Turn.InOrder name (Turn.lineUp (hooks.turnsAt attempts point.spot)) := by
  rw [Turn.InOrder, List.pairwise_iff_getElem]
  constructor
  · intro horder i j hi hj hlt hname hname'
    have hturn := List.getElem?_eq_getElem hi
    have hturn' := List.getElem?_eq_getElem hj
    obtain ⟨method, hmethod, hplace⟩ := h hpoint hturn
    obtain ⟨method', hmethod', hplace'⟩ := h hpoint hturn'
    rw [hmethod] at hmethod'
    cases hmethod'
    by_contra hnot
    rcases Nat.lt_or_eq_of_le (Nat.le_of_not_lt hnot) with hless | heq
    · obtain ⟨index, hsucceeds⟩ := succeeds_of_mem_turnsAt (mem_of_lineUp hturn)
      obtain ⟨index', hsucceeds'⟩ := succeeds_of_mem_turnsAt (mem_of_lineUp hturn')
      rw [hname] at hsucceeds
      rw [hname'] at hsucceeds'
      have := horder hless hsucceeds' hsucceeds hplace' hplace
      omega
    · rw [heq, hplace, Option.some.injEq] at hplace'
      omega
  · intro horder i j index index' place place' hlt hi hj hplace hplace'
    obtain ⟨k, turn, hturn, rfl, hname⟩ := exists_turn hsound hpoint hi
    obtain ⟨k', turn', hturn', rfl, hname'⟩ := exists_turn hsound hpoint hj
    obtain ⟨method, hmethod, hstanding⟩ := h hpoint hturn
    obtain ⟨method', hmethod', hstanding'⟩ := h hpoint hturn'
    rw [hmethod] at hmethod'
    cases hmethod'
    rw [hplace, Option.some.injEq] at hstanding
    rw [hplace', Option.some.injEq] at hstanding'
    obtain ⟨hk, rfl⟩ := List.getElem?_eq_some_iff.mp hturn
    obtain ⟨hk', rfl⟩ := List.getElem?_eq_some_iff.mp hturn'
    rcases Nat.lt_trichotomy k k' with hless | rfl | hless
    · omega
    · exact absurd hlt (Nat.lt_irrefl _)
    · have := horder k' k hk' hk hless hname' hname
      omega

/-- Calls are added at any points of any pool.  Each call that was put in stands where it was put in, or
where later calls in the method have moved it, and the calls of a point are in order exactly if each was
put in behind those before.  If anchors are found, this is so for a point exactly if no other point at
its spot has added a call, between two calls of the point, while it had fewer calls than the point; and
it is so for all points at a spot exactly if each of them has added its calls in one go. -/
theorem injectAll_order (hrun : hooks.injectAll pool requests = (attempts, hooks', pool')) :
    (∀ name descriptor number index, attempts[number]? = some ⟨name, descriptor, .ok index⟩ →
      ∃ point target place method, hooks.get? name = some point ∧
        MethodRef.parse descriptor = .ok target ∧ hooks.standing? attempts number = some place ∧
        pool'.method? point.method = some method ∧ method.body[place]? = some (point.call target)) ∧
    (∀ name, hooks.InOrder attempts name ↔ ∀ i j index index' place, i < j →
      Succeeds attempts name i index → Succeeds attempts name j index' →
        hooks.standing? (attempts.take j) i = some place → place < index') ∧
    (hooks.Findable pool → hooks.AvoidsAnchors attempts →
      (∀ name point, hooks.get? name = some point → (hooks.InOrder attempts name ↔
        ∀ before other after,
          Turn.names (hooks.turnsAt attempts point.spot) = before ++ other :: after →
            other ≠ name → name ∈ after → before.count name ≤ before.count other)) ∧
      ∀ spot, (∀ name point, hooks.get? name = some point → point.spot = spot →
          hooks.InOrder attempts name) ↔
        ∀ a b, [a, b, a].Sublist (Turn.names (hooks.turnsAt attempts spot)) → a = b) := by
  refine ⟨fun name descriptor number index => (followed_injectAll hrun).calls,
    inOrder_iff_behind hooks attempts, fun hfindable havoids => ?_⟩
  have hwoven := woven_injectAll hfindable hrun havoids
  have hlined : hooks.LinedUp pool attempts := linedUp_injectAll hfindable hrun havoids
  refine ⟨fun name point hpoint => ?_, fun spot => ?_⟩
  · rw [hlined.inOrder_iff hwoven.sound hpoint,
      Turn.inOrder_iff (pairwise_turnsAt attempts point.spot)]
  · rw [← Turn.forall_inOrder_iff (pairwise_turnsAt attempts spot)]
    constructor
    · intro horder name
      by_cases hname : (hooks.get? name).map HookPoint.spot = some spot
      · obtain ⟨point, hpoint, rfl⟩ := Option.map_eq_some_iff.mp hname
        exact (hlined.inOrder_iff hwoven.sound hpoint).mp (horder name point hpoint rfl)
      · -- no turn was taken at the point
        refine List.pairwise_of_forall_mem_list fun turn hturn _ _ heq => absurd ?_ hname
        obtain ⟨point, hpoint, hspot⟩ :=
          exists_of_mem_turnsAt ((Turn.lineUp_perm _).mem_iff.mp hturn)
        rw [← heq, hpoint, Option.map_some, hspot]
    · rintro horder name point hpoint rfl
      exact (hlined.inOrder_iff hwoven.sound hpoint).mpr (horder name)

/-- Two points at the beginning of one method. -/
def sharedEntry : HookRegistry :=
  (({} : HookRegistry).register "p" (.atEntry ⟨0, 0⟩ [])).register "q" (.atEntry ⟨0, 0⟩ [])

/-- Calls at the two points, one point after the other, are in order. -/
theorem injectAll_order_sharedEntry :
    let pool := ClassPool.ofBody [{ opcode := .returnVoid }]
    let run := sharedEntry.injectAll pool
      [("p", "La;->f()V"), ("p", "La;->h()V"), ("q", "La;->g()V")]
    sharedEntry.Findable pool ∧ sharedEntry.AvoidsAnchors run.1 ∧
      run.1.map (·.result.isOk) = [true, true, true] ∧ sharedEntry.InOrder run.1 "p" := by
  intro pool run
  have hpoints : ∀ {name point}, sharedEntry.get? name = some point →
      point = .atEntry ⟨0, 0⟩ [] := by
    intro name point hpoint
    rw [sharedEntry, get?_register, get?_register] at hpoint
    split at hpoint
    · cases hpoint
      rfl
    · split at hpoint <;> cases hpoint
      rfl
  have hfindable : sharedEntry.Findable pool := by
    refine ⟨?_, ?_, ?_⟩
    · intro name point hpoint
      rw [hpoints hpoint]
      rfl
    · intro name point anchor hpoint hanchor
      rw [hpoints hpoint] at hanchor
      cases hanchor
    · intro name point anchor method hpoint hanchor
      rw [hpoints hpoint] at hanchor
      cases hanchor
  have havoids : sharedEntry.AvoidsAnchors run.1 := by
    intro name point anchor hpoint hanchor
    rw [hpoints hpoint] at hanchor
    cases hanchor
  have hnames : Turn.names (sharedEntry.turnsAt run.1 ⟨⟨0, 0⟩, none⟩) = ["p", "p", "q"] := by
    decide +kernel
  refine ⟨hfindable, havoids, by decide +kernel, ?_⟩
  have hrun : sharedEntry.injectAll pool
      [("p", "La;->f()V"), ("p", "La;->h()V"), ("q", "La;->g()V")] = (run.1, run.2.1, run.2.2) := rfl
  have hiff := ((injectAll_order hrun).2.2 hfindable havoids).1 "p" (.atEntry ⟨0, 0⟩ []) rfl
  rw [hiff]
  intro before other after hsplit hne hmem
  rw [show (HookPoint.atEntry ⟨0, 0⟩ []).spot = ⟨⟨0, 0⟩, none⟩ from rfl, hnames] at hsplit
  rcases before with _ | ⟨_, _ | ⟨_, _ | ⟨_, before⟩⟩⟩
  all_goals simp only [List.nil_append, List.cons_append, List.cons.injEq] at hsplit
  · exact absurd hsplit.1.symm hne
  · exact absurd hsplit.2.1.symm hne
  · rw [← hsplit.2.2.2] at hmem
    cases hmem
  · simp at hsplit

/-- A point adds a call in front of which the other point has put one: its second call is put in between
the two, in front of its first. -/
theorem injectAll_order_cutIn :
    let call (name : String) : Instruction :=
      { opcode := .invokeStatic, reference := some (.method ⟨"La;", name, [], "V"⟩) }
    let run := sharedEntry.injectAll (.ofBody [{ opcode := .returnVoid }])
      [("p", "La;->f()V"), ("q", "La;->g()V"), ("p", "La;->h()V")]
    run.1.map (·.result.toOption) = [some 0, some 0, some 1] ∧
      run.2.2 = .ofBody [call "g", call "h", call "f", { opcode := .returnVoid }] ∧
      sharedEntry.standing? run.1 0 = some 2 ∧ sharedEntry.standing? run.1 2 = some 1 := by
  decide +kernel

end HookRegistry

end DexGraft
