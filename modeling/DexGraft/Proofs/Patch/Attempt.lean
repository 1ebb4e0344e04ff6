import DexGraft.Proofs.Code.Weave
import DexGraft.Proofs.Patch.Inject
import DexGraft.Proofs.Patch.Turn

/-!
# Attempts to add calls

Calls are asked for one after the other, and each attempt is written down with what came of it.  What
the attempts have put in at a point, and at a spot that points may share, is read off this record.
-/

namespace DexGraft

/-! ## Attempts -/

/-- A call that was asked for, and the index at which it was put in. -/
structure Attempt where
  /-- The name of the hook point. -/
  name : String
  /-- The method to be called. -/
  descriptor : String
  result : Except Error Nat

namespace HookRegistry

/-- Adds calls one after the other, each given by the name of a point and a method. -/
def injectAll (hooks : HookRegistry) (pool : ClassPool) :
    List (String × String) → List Attempt × HookRegistry × ClassPool
  | [] => ([], hooks, pool)
  | (name, descriptor) :: requests =>
    let (result, hooks, pool) := hooks.inject pool name descriptor
    let (attempts, hooks, pool) := hooks.injectAll pool requests
    (⟨name, descriptor, result⟩ :: attempts, hooks, pool)

/-- What every attempt preserves, any number of attempts does. -/
theorem injectAll_preserves {P : List Attempt → HookRegistry → ClassPool → Prop}
    (hstep : ∀ {attempts hooks pool name descriptor result hooks' pool'}, P attempts hooks pool →
      hooks.inject pool name descriptor = (result, hooks', pool') →
        P (attempts ++ [⟨name, descriptor, result⟩]) hooks' pool')
    {requests : List (String × String)} {attempts others : List Attempt}
    {hooks hooks' : HookRegistry} {pool pool' : ClassPool} (h : P attempts hooks pool)
    (hrun : hooks.injectAll pool requests = (others, hooks', pool')) :
    P (attempts ++ others) hooks' pool' := by
  induction requests generalizing attempts hooks pool others with
  | nil =>
      cases hrun
      rwa [List.append_nil]
  | cons request requests ih =>
      obtain ⟨name, descriptor⟩ := request
      obtain ⟨⟨result, hooks₁, pool₁⟩, hinject⟩ : ∃ r, hooks.inject pool name descriptor = r :=
        ⟨_, rfl⟩
      obtain ⟨⟨rest, hooks₂, pool₂⟩, hrest⟩ : ∃ r, hooks₁.injectAll pool₁ requests = r := ⟨_, rfl⟩
      simp only [injectAll, hinject, hrest, Prod.mk.injEq] at hrun
      obtain ⟨rfl, rfl, rfl⟩ := hrun
      rw [← List.singleton_append, ← List.append_assoc]
      exact ih (hstep h hinject) hrest

/-- The call that an attempt has put in, if it succeeded. -/
def call? (hooks : HookRegistry) (attempt : Attempt) : Option Instruction :=
  match attempt.result, hooks.get? attempt.name, MethodRef.parse attempt.descriptor with
  | .ok _, some point, .ok target => some (point.call target)
  | _, _, _ => none

/-- The calls that were put in at the point with the name, in order. -/
def callsOf (hooks : HookRegistry) (attempts : List Attempt) (name : String) : List Instruction :=
  (attempts.filter (·.name = name)).filterMap hooks.call?

/-- The calls that were put in at the points with the spot, in order. -/
def callsAt (hooks : HookRegistry) (attempts : List Attempt) (spot : Spot) : List Instruction :=
  (attempts.filter fun attempt =>
    (hooks.get? attempt.name).map HookPoint.spot = some spot).filterMap hooks.call?

variable {hooks : HookRegistry}

theorem of_call? {attempt : Attempt} {call : Instruction}
    (h : hooks.call? attempt = some call) : call.opcode = .invokeStatic ∧ call.target = none := by
  rw [call?] at h
  split at h
  · cases h
    exact ⟨rfl, rfl⟩
  · cases h

theorem untargeted_callsAt (attempts : List Attempt) (spot : Spot) :
    Weave.Untargeted (hooks.callsAt attempts spot) := by
  intro call hcall
  obtain ⟨attempt, -, hcall⟩ := List.mem_filterMap.mp hcall
  exact (of_call? hcall).2

theorem callsAt_append (attempts others : List Attempt) (spot : Spot) :
    hooks.callsAt (attempts ++ others) spot =
      hooks.callsAt attempts spot ++ hooks.callsAt others spot := by
  rw [callsAt, List.filter_append, List.filterMap_append, callsAt, callsAt]

theorem filterMap_filter_singleton {α β : Type} (p : α → Prop) [DecidablePred p]
    (f : α → Option β) (a : α) :
    ([a].filter fun a => p a).filterMap f = if p a then (f a).toList else [] := by
  rw [List.filter_cons, List.filter_nil]
  by_cases h : p a
  · rw [if_pos h, if_pos (decide_eq_true h)]
    cases hf : f a with
    | none => rw [List.filterMap_cons_none hf, List.filterMap_nil, Option.toList_none]
    | some b => rw [List.filterMap_cons_some hf, List.filterMap_nil, Option.toList_some]
  · rw [if_neg h, if_neg (by rwa [decide_eq_true_eq]), List.filterMap_nil]

theorem callsAt_concat (attempts : List Attempt) (attempt : Attempt) (spot : Spot) :
    hooks.callsAt (attempts ++ [attempt]) spot = hooks.callsAt attempts spot ++
      if (hooks.get? attempt.name).map HookPoint.spot = some spot then
        (hooks.call? attempt).toList else [] := by
  rw [callsAt_append, callsAt, callsAt, filterMap_filter_singleton]

theorem callsOf_concat (attempts : List Attempt) (attempt : Attempt) (name : String) :
    hooks.callsOf (attempts ++ [attempt]) name = hooks.callsOf attempts name ++
      if attempt.name = name then (hooks.call? attempt).toList else [] := by
  rw [callsOf, List.filter_append, List.filterMap_append, callsOf, filterMap_filter_singleton]

/-- Where no point is, no calls are. -/
theorem callsAt_eq_nil {spot : Spot}
    (h : ∀ name point, hooks.get? name = some point → point.spot ≠ spot)
    (attempts : List Attempt) : hooks.callsAt attempts spot = [] := by
  have hfilter : (attempts.filter fun attempt =>
      (hooks.get? attempt.name).map HookPoint.spot = some spot) = [] := by
    refine List.filter_eq_nil_iff.mpr fun attempt _ => ?_
    rw [decide_eq_true_eq, Option.map_eq_some_iff]
    rintro ⟨point, hpoint, hspot⟩
    exact h _ point hpoint hspot
  rw [callsAt, hfilter, List.filterMap_nil]

variable {attempts : List Attempt} {attempt : Attempt}

/-! ## Turns -/

/-- The turns that were taken at the points with the spot, the last one first. -/
def turnsAt (hooks : HookRegistry) (attempts : List Attempt) (spot : Spot) : List Turn :=
  ((attempts.zipIdx.filter fun entry =>
    (hooks.get? entry.1.name).map HookPoint.spot = some spot).filterMap fun entry =>
      (hooks.call? entry.1).map (⟨entry.2, entry.1.name, ·⟩)).reverse

/-- The calls that were put in at the points with the spot, as they stand there. -/
def groupAt (hooks : HookRegistry) (attempts : List Attempt) (spot : Spot) : List Instruction :=
  (Turn.lineUp (hooks.turnsAt attempts spot)).map (·.call)

/-- The turn that an attempt is, if it succeeded. -/
def turn? (hooks : HookRegistry) (attempts : List Attempt) (attempt : Attempt) : Option Turn :=
  (hooks.call? attempt).map (⟨attempts.length, attempt.name, ·⟩)

theorem turnsAt_concat (attempts : List Attempt) (attempt : Attempt) (spot : Spot) :
    hooks.turnsAt (attempts ++ [attempt]) spot =
      (if (hooks.get? attempt.name).map HookPoint.spot = some spot then
        (hooks.turn? attempts attempt).toList else []) ++ hooks.turnsAt attempts spot := by
  rw [turnsAt, List.zipIdx_append, List.filter_append, List.filterMap_append, List.reverse_append,
    turnsAt, Nat.zero_add, List.zipIdx_singleton, filterMap_filter_singleton, turn?]
  split
  · cases hooks.call? attempt <;> rfl
  · rfl

theorem turnsAt_concat_of_ne {point : HookPoint} (hpoint : hooks.get? attempt.name = some point)
    {spot : Spot} (h : spot ≠ point.spot) :
    hooks.turnsAt (attempts ++ [attempt]) spot = hooks.turnsAt attempts spot := by
  rw [turnsAt_concat, hpoint, Option.map_some, if_neg, List.nil_append]
  rw [Option.some.injEq]
  exact Ne.symm h

theorem turnsAt_concat_none (hcall : hooks.call? attempt = none) (spot : Spot) :
    hooks.turnsAt (attempts ++ [attempt]) spot = hooks.turnsAt attempts spot := by
  rw [turnsAt_concat, turn?, hcall, Option.map_none, Option.toList_none, ite_self, List.nil_append]

theorem groupAt_concat_of_ne {point : HookPoint} (hpoint : hooks.get? attempt.name = some point)
    {spot : Spot} (h : spot ≠ point.spot) :
    hooks.groupAt (attempts ++ [attempt]) spot = hooks.groupAt attempts spot := by
  rw [groupAt, turnsAt_concat_of_ne hpoint h, groupAt]

theorem groupAt_concat_none (hcall : hooks.call? attempt = none) :
    hooks.groupAt (attempts ++ [attempt]) = hooks.groupAt attempts := by
  funext spot
  rw [groupAt, turnsAt_concat_none hcall, groupAt]

theorem turnsAt_concat_some {point : HookPoint} {call : Instruction}
    (hpoint : hooks.get? attempt.name = some point) (hcall : hooks.call? attempt = some call) :
    hooks.turnsAt (attempts ++ [attempt]) point.spot =
      ⟨attempts.length, attempt.name, call⟩ :: hooks.turnsAt attempts point.spot := by
  rw [turnsAt_concat, hpoint, Option.map_some, if_pos rfl, turn?, hcall, Option.map_some,
    Option.toList_some, List.singleton_append]

/-- The calls at a spot are those of the turns. -/
theorem map_call_turnsAt (attempts : List Attempt) (spot : Spot) :
    (hooks.turnsAt attempts spot).reverse.map (·.call) = hooks.callsAt attempts spot := by
  induction attempts using List.reverseRecOn with
  | nil => rfl
  | append_singleton attempts attempt ih =>
      rw [turnsAt_concat, callsAt_concat, List.reverse_append, List.map_append, ih]
      split
      · rw [turn?]
        cases hooks.call? attempt <;> rfl
      · rfl

theorem mem_groupAt_iff {call : Instruction} {spot : Spot} :
    call ∈ hooks.groupAt attempts spot ↔ call ∈ hooks.callsAt attempts spot := by
  rw [groupAt, ← map_call_turnsAt, List.map_reverse, List.mem_reverse]
  exact ((Turn.lineUp_perm _).map _).mem_iff

theorem untargeted_groupAt (attempts : List Attempt) (spot : Spot) :
    Weave.Untargeted (hooks.groupAt attempts spot) :=
  fun call hcall => untargeted_callsAt attempts spot call (mem_groupAt_iff.mp hcall)

/-- As often as a point has taken a turn, it has put in a call. -/
theorem count_names_turnsAt {name : String} {point : HookPoint}
    (hpoint : hooks.get? name = some point) (attempts : List Attempt) :
    (Turn.names (hooks.turnsAt attempts point.spot)).count name =
      (hooks.callsOf attempts name).length := by
  induction attempts using List.reverseRecOn with
  | nil => rfl
  | append_singleton attempts attempt ih =>
      rw [callsOf_concat, List.length_append, ← ih]
      by_cases hname : attempt.name = name
      · subst hname
        rw [if_pos rfl]
        cases hcall : hooks.call? attempt with
        | none => rw [turnsAt_concat_none hcall, Option.toList_none, List.length_nil, Nat.add_zero]
        | some call =>
            rw [turnsAt_concat_some hpoint hcall, Turn.names_cons, List.count_append,
              List.count_singleton_self, Option.toList_some, List.length_singleton]
      · have hother : [attempt.name].count name = 0 :=
          List.count_eq_zero_of_not_mem fun hmem => hname (List.mem_singleton.mp hmem).symm
        rw [turnsAt_concat, if_neg hname, List.length_nil, Nat.add_zero]
        split
        · rw [turn?]
          cases hooks.call? attempt with
          | none => rw [Option.map_none, Option.toList_none, List.nil_append]
          | some call =>
              rw [Option.map_some, Option.toList_some, List.singleton_append, Turn.names_cons,
                List.count_append, hother, Nat.add_zero]
        · rw [List.nil_append]

/-- Turns are attempts that succeeded at points with the spot. -/
theorem mem_turnsAt_iff {turn : Turn} {spot : Spot} :
    turn ∈ hooks.turnsAt attempts spot ↔ ∃ attempt, attempts[turn.number]? = some attempt ∧
      attempt.name = turn.name ∧ hooks.call? attempt = some turn.call ∧
        (hooks.get? turn.name).map HookPoint.spot = some spot := by
  rw [turnsAt, List.mem_reverse, List.mem_filterMap]
  constructor
  · rintro ⟨entry, hentry, hturn⟩
    obtain ⟨hentry, hspot⟩ := List.mem_filter.mp hentry
    obtain ⟨call, hcall, rfl⟩ := Option.map_eq_some_iff.mp hturn
    exact ⟨entry.1, List.mem_zipIdx_iff_getElem?.mp hentry, rfl, hcall, of_decide_eq_true hspot⟩
  · rintro ⟨attempt, hattempt, hname, hcall, hspot⟩
    have hentry : (attempt, turn.number) ∈ attempts.zipIdx :=
      List.mem_zipIdx_iff_getElem?.mpr hattempt
    refine ⟨_, List.mem_filter.mpr ⟨hentry, decide_eq_true (hname ▸ hspot)⟩, ?_⟩
    rw [hcall, Option.map_some, hname]

theorem exists_of_mem_turnsAt {turn : Turn} {spot : Spot} (h : turn ∈ hooks.turnsAt attempts spot) :
    ∃ point, hooks.get? turn.name = some point ∧ point.spot = spot := by
  obtain ⟨-, -, -, -, hspot⟩ := mem_turnsAt_iff.mp h
  exact Option.map_eq_some_iff.mp hspot

/-- Turns are numbered in the order in which they were taken. -/
theorem pairwise_turnsAt (attempts : List Attempt) (spot : Spot) :
    (hooks.turnsAt attempts spot).Pairwise fun later earlier => earlier.number < later.number := by
  induction attempts using List.reverseRecOn with
  | nil => exact .nil
  | append_singleton attempts attempt ih =>
      have hlt : ∀ turn ∈ hooks.turnsAt attempts spot, turn.number < attempts.length := by
        intro turn hturn
        obtain ⟨attempt, hattempt, -⟩ := mem_turnsAt_iff.mp hturn
        exact (List.getElem?_eq_some_iff.mp hattempt).1
      rw [turnsAt_concat]
      split
      · rw [turn?]
        cases hooks.call? attempt with
        | none => exact ih
        | some call => exact List.pairwise_cons.mpr ⟨hlt, ih⟩
      · exact ih

/-- One more call goes behind those of its point. -/
theorem exists_groupAt_concat (attempts : List Attempt) {point : HookPoint} {call : Instruction}
    (hpoint : hooks.get? attempt.name = some point) (hcall : hooks.call? attempt = some call) :
    ∃ c d, hooks.groupAt attempts point.spot = c ++ d ∧
      hooks.groupAt (attempts ++ [attempt]) point.spot = c ++ call :: d ∧
      c.length = (hooks.callsOf attempts attempt.name).length := by
  set line := Turn.lineUp (hooks.turnsAt attempts point.spot) with hline
  set count := (hooks.callsOf attempts attempt.name).length with hcount
  have hnames := count_names_turnsAt hpoint attempts
  refine ⟨(line.take count).map (·.call), (line.drop count).map (·.call), ?_, ?_, ?_⟩
  · rw [groupAt, ← hline, ← List.map_append, List.take_append_drop]
  · rw [groupAt, turnsAt_concat_some hpoint hcall, Turn.lineUp, hnames, List.map_append,
      List.map_cons]
  · have hle := Turn.count_names_le attempt.name (hooks.turnsAt attempts point.spot)
    rw [hnames] at hle
    rw [List.length_map, List.length_take_of_le hle]

end HookRegistry

end DexGraft
