import DexGraft.Code.Instruction
import Mathlib.Data.List.Basic
import Mathlib.Tactic.Set

/-!
# Turns at a spot

Several points may share a spot.  Each of them puts its next call in behind as many calls as it has
put in itself, whoever these calls belong to.  This file follows the line of calls that comes of it:
the calls of a point stand in order exactly if no other point has cut in among the calls at the front
before the point took another turn.
-/

namespace DexGraft

/-- A call that was added at a spot. -/
structure Turn where
  /-- How many calls had been asked for before, wherever. -/
  number : Nat
  /-- The name of the point. -/
  name : String
  call : Instruction

namespace Turn

/-- The names of the points that have taken the turns, in order; the last turn comes first in the list
of turns. -/
def names (past : List Turn) : List String := (past.map (·.name)).reverse

/-- The turns in the order in which their calls stand, given the turns with the last one first: each
goes behind as many as there were of its point. -/
def lineUp : List Turn → List Turn
  | [] => []
  | turn :: past =>
    let count := (names past).count turn.name
    (lineUp past).take count ++ turn :: (lineUp past).drop count

/-- The turns of a point stand in the order in which they were taken. -/
def InOrder (name : String) (line : List Turn) : Prop :=
  line.Pairwise fun a b => a.name = name → b.name = name → a.number < b.number

/-- The turns of a point stand in front of all others. -/
def InFront (name : String) (past : List Turn) : Prop :=
  ∀ turn ∈ (lineUp past).drop ((names past).count name), turn.name ≠ name

variable {name : String} {turn : Turn} {past : List Turn}

/-! ## The line -/

theorem names_cons (turn : Turn) (past : List Turn) :
    names (turn :: past) = names past ++ [turn.name] := by
  rw [names, List.map_cons, List.reverse_cons, names]

theorem lineUp_perm (past : List Turn) : (lineUp past).Perm past := by
  induction past with
  | nil => exact .nil
  | cons turn past ih =>
      rw [lineUp]
      refine List.perm_middle.trans (.cons turn ?_)
      rwa [List.take_append_drop]

theorem count_names_eq_countP (name : String) (past : List Turn) :
    (names past).count name = (lineUp past).countP (·.name = name) := by
  rw [(lineUp_perm past).countP_eq, names, List.count_reverse, List.count, List.countP_map]
  refine List.countP_congr fun turn _ => ?_
  simp

theorem count_names_le (name : String) (past : List Turn) :
    (names past).count name ≤ (lineUp past).length := by
  rw [count_names_eq_countP]
  exact List.countP_le_length

/-- Where the turns stand after another one was taken. -/
theorem getElem?_lineUp_cons (turn : Turn) (past : List Turn) (i : Nat) :
    (lineUp (turn :: past))[i]? =
      if i < (names past).count turn.name then (lineUp past)[i]?
      else if i = (names past).count turn.name then some turn else (lineUp past)[i - 1]? := by
  have hlength := List.length_take_of_le (count_names_le turn.name past)
  rw [lineUp, List.getElem?_append, hlength]
  split
  · rename_i hlt
    exact List.getElem?_take_of_lt hlt
  · split
    · rename_i heq
      rw [heq, Nat.sub_self, List.getElem?_cons_zero]
    · rw [List.getElem?_cons, if_neg (by omega), List.getElem?_drop]
      congr 1
      omega

/-- Where all turns are of one point, they stand in the order in which they were taken. -/
theorem lineUp_eq_reverse (name : String) (h : ∀ turn ∈ past, turn.name = name) :
    lineUp past = past.reverse := by
  induction past with
  | nil => rfl
  | cons turn past ih =>
      rw [List.forall_mem_cons] at h
      have hcount : (names past).count turn.name = (lineUp past).length := by
        rw [count_names_eq_countP, List.countP_eq_length]
        intro other hother
        rw [decide_eq_true_eq, h.2 other ((lineUp_perm past).mem_iff.mp hother), h.1]
      rw [lineUp, hcount, List.take_length, List.drop_length, ih h.2, List.reverse_cons]

/-! ## Cutting in -/

theorem inFront_cons_self_iff : InFront turn.name (turn :: past) ↔ InFront turn.name past := by
  have hlength := List.length_take_of_le (count_names_le turn.name past)
  have hcount : (names (turn :: past)).count turn.name = (names past).count turn.name + 1 := by
    rw [names_cons, List.count_append, List.count_singleton_self]
  rw [InFront, InFront, hcount, lineUp, List.drop_append, hlength,
    List.drop_eq_nil_of_le (Nat.le_succ_of_le (Nat.le_of_eq hlength)), List.nil_append,
    Nat.add_sub_cancel_left, List.drop_succ_cons, List.drop_zero]

/-- So many turns of a point cannot all stand in front of an index that is too small for them. -/
theorem count_names_le_of_forall {count : Nat}
    (h : ∀ turn ∈ (lineUp past).drop count, turn.name ≠ name) : (names past).count name ≤ count := by
  have hnone : ((lineUp past).drop count).countP (·.name = name) = 0 := by
    rw [List.countP_eq_zero]
    intro turn hturn
    rw [decide_eq_true_eq]
    exact h turn hturn
  calc (names past).count name
      = ((lineUp past).take count).countP (·.name = name) := by
        rw [count_names_eq_countP, ← List.take_append_drop count (lineUp past), List.countP_append,
          List.take_append_drop, hnone, Nat.add_zero]
    _ ≤ ((lineUp past).take count).length := List.countP_le_length
    _ ≤ count := List.length_take_le count _

theorem inFront_cons_iff (h : turn.name ≠ name) :
    InFront name (turn :: past) ↔
      (names past).count name ≤ (names past).count turn.name ∧ InFront name past := by
  have hcount : (names (turn :: past)).count name = (names past).count name := by
    have hzero : [turn.name].count name = 0 :=
      List.count_eq_zero_of_not_mem fun hmem => h (List.mem_singleton.mp hmem).symm
    rw [names_cons, List.count_append, hzero, Nat.add_zero]
  have hlength := List.length_take_of_le (count_names_le turn.name past)
  rw [InFront, InFront, hcount, lineUp]
  by_cases hle : (names past).count name ≤ (names past).count turn.name
  · -- the turn goes behind all turns of the point
    have hdrop : (lineUp past).drop ((names past).count name) =
        ((lineUp past).take ((names past).count turn.name)).drop ((names past).count name) ++
          (lineUp past).drop ((names past).count turn.name) := by
      rw [← List.drop_append_of_le_length (hlength.symm ▸ hle), List.take_append_drop]
    rw [hdrop, List.drop_append_of_le_length (hlength.symm ▸ hle), List.forall_mem_append,
      List.forall_mem_append, List.forall_mem_cons]
    exact ⟨fun ⟨hfront, _, hback⟩ => ⟨hle, hfront, hback⟩,
      fun ⟨_, hfront, hback⟩ => ⟨hfront, h, hback⟩⟩
  · -- the turn cuts in, and the last turn of the point is too far behind
    refine iff_of_false (fun hfront => ?_) fun hboth => hle hboth.1
    obtain ⟨extra, hextra⟩ : ∃ extra, (names past).count name =
        (names past).count turn.name + (extra + 1) :=
      ⟨(names past).count name - (names past).count turn.name - 1, by omega⟩
    rw [hextra, ← List.drop_drop, List.drop_left' hlength, List.drop_succ_cons, List.drop_drop]
      at hfront
    have := count_names_le_of_forall hfront
    omega

theorem forall_split_concat_iff {P : List String → String → List String → Prop}
    {all : List String} {last : String} :
    (∀ before other after, all ++ [last] = before ++ other :: after → P before other after) ↔
      P all last [] ∧
        ∀ before other after, all = before ++ other :: after → P before other (after ++ [last]) := by
  constructor
  · intro h
    refine ⟨h all last [] rfl, fun before other after heq => h before other _ ?_⟩
    rw [heq, List.append_assoc, List.cons_append]
  · rintro ⟨hlast, hrest⟩ before other after heq
    rcases List.eq_nil_or_concat' after with rfl | ⟨front, last', rfl⟩
    · obtain ⟨rfl, hother⟩ := List.append_inj' heq rfl
      cases hother
      exact hlast
    · rw [← List.cons_append, ← List.append_assoc] at heq
      obtain ⟨rfl, hother⟩ := List.append_inj' heq rfl
      cases hother
      exact hrest before other front rfl

/-- The turns of a point stand in front exactly if no other point has cut in. -/
theorem inFront_iff : InFront name past ↔ ∀ before other after,
    names past = before ++ other :: after → other ≠ name →
      before.count name ≤ before.count other := by
  induction past with
  | nil =>
      refine iff_of_true (List.forall_mem_nil _) fun before other after hsplit => ?_
      exact absurd hsplit (List.append_ne_nil_of_right_ne_nil before (List.cons_ne_nil _ _)).symm
  | cons turn past ih =>
      rw [names_cons, forall_split_concat_iff, ← ih]
      by_cases h : turn.name = name
      · subst h
        rw [inFront_cons_self_iff]
        exact ⟨fun hfront => ⟨fun hne => absurd rfl hne, hfront⟩, And.right⟩
      · rw [inFront_cons_iff h]
        exact ⟨fun ⟨hle, hfront⟩ => ⟨fun _ => hle, hfront⟩, fun ⟨hle, hfront⟩ => ⟨hle h, hfront⟩⟩

/-! ## Order -/

/-- The last turn of a point keeps the order if those before stand in front. -/
theorem inOrder_cons_self_iff (hlast : ∀ earlier ∈ past, earlier.number < turn.number) :
    InOrder turn.name (lineUp (turn :: past)) ↔
      InOrder turn.name (lineUp past) ∧ InFront turn.name past := by
  set count := (names past).count turn.name with hcount
  have hsplit := List.take_append_drop count (lineUp past)
  have hlast' : ∀ earlier ∈ lineUp past, earlier.number < turn.number :=
    fun earlier hmem => hlast earlier ((lineUp_perm past).mem_iff.mp hmem)
  rw [InOrder, lineUp, ← hcount, List.pairwise_append, List.pairwise_cons, InOrder, InFront, ← hcount]
  conv_rhs => rw [← hsplit, List.pairwise_append]
  rw [hsplit]
  constructor
  · rintro ⟨hfront, ⟨hturn, hback⟩, hcross⟩
    refine ⟨⟨hfront, hback, fun a ha b hb => hcross a ha b (List.mem_cons_of_mem _ hb)⟩,
      fun other hother hname => ?_⟩
    have := hturn other hother rfl hname
    have := hlast' other (List.mem_of_mem_drop hother)
    omega
  · rintro ⟨⟨hfront, hback, hcross⟩, hothers⟩
    refine ⟨hfront, ⟨fun other hother _ hname => absurd hname (hothers other hother), hback⟩, ?_⟩
    intro a ha b hb
    rcases List.mem_cons.mp hb with rfl | hb
    · exact fun _ _ => hlast' a (List.mem_of_mem_take ha)
    · exact hcross a ha b hb

theorem inOrder_cons_iff (h : turn.name ≠ name) :
    InOrder name (lineUp (turn :: past)) ↔ InOrder name (lineUp past) := by
  set count := (names past).count turn.name with hcount
  rw [InOrder, lineUp, ← hcount, List.pairwise_append, List.pairwise_cons, InOrder]
  conv_rhs => rw [← List.take_append_drop count (lineUp past), List.pairwise_append]
  constructor
  · rintro ⟨hfront, ⟨-, hback⟩, hcross⟩
    exact ⟨hfront, hback, fun a ha b hb => hcross a ha b (List.mem_cons_of_mem _ hb)⟩
  · rintro ⟨hfront, hback, hcross⟩
    refine ⟨hfront, ⟨fun other _ hname => absurd hname h, hback⟩, fun a ha b hb => ?_⟩
    rcases List.mem_cons.mp hb with rfl | hb
    · exact fun _ hname => absurd hname h
    · exact hcross a ha b hb

/-- The turns of a point stand in order exactly if no other point has cut in before another turn of
the point. -/
theorem inOrder_iff (hlatest : past.Pairwise fun later earlier => earlier.number < later.number) :
    InOrder name (lineUp past) ↔ ∀ before other after,
      names past = before ++ other :: after → other ≠ name → name ∈ after →
        before.count name ≤ before.count other := by
  induction past with
  | nil =>
      refine iff_of_true .nil fun before other after hsplit => ?_
      exact absurd hsplit (List.append_ne_nil_of_right_ne_nil before (List.cons_ne_nil _ _)).symm
  | cons turn past ih =>
      rw [List.pairwise_cons] at hlatest
      rw [names_cons, forall_split_concat_iff]
      by_cases h : turn.name = name
      · subst h
        -- from any earlier turn on there is another turn of the point, this one
        rw [inOrder_cons_self_iff hlatest.1, ih hlatest.2, inFront_iff]
        constructor
        · rintro ⟨-, hfront⟩
          exact ⟨fun hne => absurd rfl hne,
            fun before other after hsplit hne _ => hfront before other after hsplit hne⟩
        · rintro ⟨-, hrest⟩
          have hfront := fun before other after hsplit hne =>
            hrest before other after hsplit hne (List.mem_append_right _ (List.mem_singleton_self _))
          exact ⟨fun before other after hsplit hne _ => hfront before other after hsplit hne, hfront⟩
      · rw [inOrder_cons_iff h, ih hlatest.2]
        constructor
        · intro hpast
          refine ⟨fun _ => nofun, fun before other after hsplit hne hmem => ?_⟩
          refine hpast before other after hsplit hne ((List.mem_append.mp hmem).resolve_right ?_)
          exact fun hmem => h (List.mem_singleton.mp hmem).symm
        · rintro ⟨-, hrest⟩ before other after hsplit hne hmem
          exact hrest before other after hsplit hne (List.mem_append_left _ hmem)

/-- A name that follows another one stands behind the first of these. -/
theorem mem_of_sublist {a b : String} {before after : List String} (hfirst : a ∉ before)
    (h : [a, b].Sublist (before ++ a :: after)) : b ∈ after := by
  obtain ⟨front, back, hsplit, hfront, hback⟩ := List.sublist_append_iff.mp h
  cases front with
  | nil =>
      rw [List.nil_append] at hsplit
      rw [← hsplit] at hback
      exact List.singleton_sublist.mp (List.cons_sublist_cons.mp hback)
  | cons c front =>
      rw [List.cons_append, List.cons.injEq] at hsplit
      exact absurd (hsplit.1 ▸ hfront.subset (List.mem_cons_self ..)) hfirst

/-- All turns stand in order exactly if no point has taken a turn after others came between. -/
theorem forall_inOrder_iff
    (hlatest : past.Pairwise fun later earlier => earlier.number < later.number) :
    (∀ name, InOrder name (lineUp past)) ↔
      ∀ a b, [a, b, a].Sublist (names past) → a = b := by
  simp only [inOrder_iff hlatest]
  constructor
  · intro h a b hsub
    by_contra hne
    have hfollows : [a, b].Sublist (names past) :=
      (((List.nil_sublist [a]).cons_cons b).cons_cons a).trans hsub
    have hfollows' : [b, a].Sublist (names past) := (List.sublist_cons_self a [b, a]).trans hsub
    obtain ⟨before, after, hsplit, hbefore⟩ :=
      List.eq_append_cons_of_mem (hsub.subset (List.mem_cons_self ..))
    rw [hsplit] at hfollows hfollows'
    have hb : b ∈ after := mem_of_sublist hbefore hfollows
    by_cases hmem : b ∈ before
    · -- the first turn of the one point cuts in among those of the other
      have hle := h b before a after hsplit hne hb
      rw [List.count_eq_zero_of_not_mem hbefore] at hle
      have := List.count_pos_iff.mpr hmem
      omega
    · obtain ⟨middle, rest, rfl, hmiddle⟩ := List.eq_append_cons_of_mem hb
      have hassoc : before ++ a :: (middle ++ b :: rest) = (before ++ a :: middle) ++ b :: rest := by
        rw [List.append_assoc, List.cons_append]
      have hfront : b ∉ before ++ a :: middle := by
        rw [List.mem_append, List.mem_cons, not_or, not_or]
        exact ⟨hmem, Ne.symm hne, hmiddle⟩
      rw [hassoc] at hsplit hfollows'
      have hle := h a _ b rest hsplit (Ne.symm hne) (mem_of_sublist hfront hfollows')
      rw [List.count_eq_zero_of_not_mem hfront, List.count_append, List.count_cons_self] at hle
      omega
  · intro h name before other after hsplit hne hmem
    by_contra hlt
    have hbefore : name ∈ before := List.count_pos_iff.mp (by omega)
    refine hne (h name other ?_).symm
    rw [hsplit]
    have hfront : [name].Sublist before := List.singleton_sublist.mpr hbefore
    have hback : [other, name].Sublist (other :: after) :=
      (List.singleton_sublist.mpr hmem).cons_cons other
    exact hfront.append hback

end Turn

end DexGraft
