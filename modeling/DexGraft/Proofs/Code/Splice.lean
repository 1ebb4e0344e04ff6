import DexGraft.Proofs.Code.Weave
import Mathlib.Data.List.Forall2

/-!
# Runs of splices

Instructions are put into a body and taken out of it by index, over and over, while the branches of
the body hold indices too.  This file follows the instructions of the first body through such a run.

Identity is carried by tags: every instruction of the first body is tagged with its first index, what
is put in later has no tag, and the list of tags is spliced exactly as the body is
(`Splice.origins`).  `Splice.Carries` says, in terms of the tags alone, where a *position* of the body
goes: with its instruction while that is there, else with the instruction behind the removed span.
The main statement is that the branches of the body follow this relation.
-/

universe u v

namespace DexGraft

/-- A change of a body: instructions put in at an index, or a span taken out. -/
inductive Splice where
  | insert (index : Nat) (items : List Instruction)
  | remove (index count : Nat)
deriving DecidableEq, Repr

/-- Every branch leads to an instruction of the body or to its end. -/
def Method.TargetsBounded (method : Method) : Prop :=
  ∀ instruction ∈ method.body, ∀ target, instruction.target = some target →
    target ≤ method.body.length

namespace Splice

variable {α : Type u} {β : Type v}

/-- The method with the change made. -/
def apply (method : Method) : Splice → Except Error Method
  | insert index items => method.insert index items
  | remove index count => method.remove index count

/-- Where a branch target stands after the change. -/
def move : Splice → Nat → Nat
  | insert index items => Target.afterInsert index items.length
  | remove index count => Target.afterRemove index count

/-- What the change puts in. -/
def items : Splice → List Instruction
  | insert _ items => items
  | remove _ _ => []

/-- The same change of any list; `fill` makes up what is put in. -/
def edit (fill : Instruction → α) : Splice → List α → List α
  | insert index items, l => l.take index ++ items.map fill ++ l.drop index
  | remove index count, l => l.take index ++ l.drop (index + count)

/-- Whether a body of that length has the index or the span. -/
def Fits (length : Nat) : Splice → Prop
  | insert index _ => index ≤ length
  | remove index count => index + count ≤ length

/-- The index is not in the span that the splice takes out. -/
def Keeps (splice : Splice) (source : Nat) : Prop :=
  ∀ index count, splice = .remove index count → source < index ∨ index + count ≤ source

/-- How many instructions there are after the change. -/
def size (length : Nat) : Splice → Nat
  | insert _ items => length + items.length
  | remove _ count => length - count

/-! ## One splice of a list -/

theorem length_edit (fill : Instruction → α) {splice : Splice} {l : List α}
    (fits : splice.Fits l.length) : (splice.edit fill l).length = splice.size l.length := by
  cases splice with
  | insert index items =>
      simp only [Fits] at fits
      simp [edit, size]
      omega
  | remove index count =>
      simp only [Fits] at fits
      simp [edit, size]
      omega

/-- Related lists stay related if what is put in is related. -/
theorem forall₂_edit {R : α → β → Prop} {fill : Instruction → α} {fill' : Instruction → β}
    {splice : Splice} {l : List α} {l' : List β} (hfill : ∀ item, R (fill item) (fill' item))
    (h : List.Forall₂ R l l') : List.Forall₂ R (splice.edit fill l) (splice.edit fill' l') := by
  cases splice with
  | insert index items =>
      have hitems : List.Forall₂ R (items.map fill) (items.map fill') := by
        rw [List.forall₂_map_left_iff, List.forall₂_map_right_iff, List.forall₂_same]
        exact fun item _ => hfill item
      exact List.rel_append (List.rel_append (List.forall₂_take index h) hitems)
        (List.forall₂_drop index h)
  | remove index count =>
      exact List.rel_append (List.forall₂_take index h) (List.forall₂_drop (index + count) h)

/-- What stands in a spliced list was put in, or stood in the list at an index that is kept and
moved to where it stands now. -/
theorem of_getElem?_edit {fill : Instruction → α} {splice : Splice} {l : List α} {place : Nat}
    {x : α} (fits : splice.Fits l.length) (h : (splice.edit fill l)[place]? = some x) :
    (∃ item ∈ splice.items, x = fill item) ∨
      ∃ source, l[source]? = some x ∧ splice.Keeps source ∧ splice.move source = place := by
  cases splice with
  | insert index items =>
      simp only [Fits] at fits
      simp only [edit, List.append_assoc, List.getElem?_append, List.length_take,
        List.length_map, Nat.min_eq_left fits] at h
      split at h
      · rename_i hlt
        rw [List.getElem?_take_of_lt hlt] at h
        exact .inr ⟨place, h, nofun, by simp [move, Target.afterInsert]; omega⟩
      · split at h
        · rw [List.getElem?_map, Option.map_eq_some_iff] at h
          obtain ⟨item, hitem, rfl⟩ := h
          exact .inl ⟨item, List.mem_of_getElem? hitem, rfl⟩
        · rw [List.getElem?_drop] at h
          refine .inr ⟨_, h, nofun, ?_⟩
          simp [move, Target.afterInsert]
          omega
  | remove index count =>
      simp only [Fits] at fits
      simp only [edit, List.getElem?_append, List.length_take,
        Nat.min_eq_left (show index ≤ l.length by omega)] at h
      split at h
      · rename_i hlt
        rw [List.getElem?_take_of_lt hlt] at h
        refine .inr ⟨place, h, fun _ _ heq => ?_, ?_⟩
        · cases heq
          exact .inl hlt
        · simp only [move, Target.afterRemove]
          split <;> [omega; (split <;> omega)]
      · rw [List.getElem?_drop] at h
        refine .inr ⟨_, h, fun _ _ heq => ?_, ?_⟩
        · cases heq
          exact .inr (by omega)
        · simp only [move, Target.afterRemove]
          split <;> omega

theorem getElem?_edit_move (fill : Instruction → α) {splice : Splice} {l : List α} {source : Nat}
    (fits : splice.Fits l.length) (kept : splice.Keeps source) :
    (splice.edit fill l)[splice.move source]? = l[source]? := by
  cases splice with
  | insert index items =>
      simp only [Fits] at fits
      simp only [edit, move, Target.afterInsert, List.append_assoc]
      split
      · rw [List.getElem?_append_right (by simp; omega),
          List.getElem?_append_right (by simp; omega), List.getElem?_drop]
        congr 1
        simp
        omega
      · rw [List.getElem?_append_left (by simp; omega), List.getElem?_take_of_lt (by omega)]
  | remove index count =>
      simp only [Fits] at fits
      have := kept index count rfl
      simp only [edit, move, Target.afterRemove]
      split
      · rw [List.getElem?_append_right (by simp; omega), List.getElem?_drop]
        congr 1
        simp
        omega
      · rw [if_neg (by omega), List.getElem?_append_left (by simp; omega),
          List.getElem?_take_of_lt (by omega)]

theorem move_length {splice : Splice} {length : Nat} (fits : splice.Fits length) :
    splice.move length = splice.size length := by
  cases splice <;>
    simp only [Fits, move, size, Target.afterInsert, Target.afterRemove] at * <;> grind

/-- A position of the body becomes a position of the new body. -/
theorem move_le_size {splice : Splice} {length target : Nat} (fits : splice.Fits length)
    (h : target ≤ length) : splice.move target ≤ splice.size length := by
  cases splice <;>
    simp only [Fits, move, size, Target.afterInsert, Target.afterRemove] at * <;> grind

theorem map_edit {α β : Type} (f : α → β) (fill : Instruction → α) (splice : Splice)
    (l : List α) : (splice.edit fill l).map f = splice.edit (f ∘ fill) (l.map f) := by
  cases splice with
  | insert index items =>
      simp only [edit, List.map_append, List.map_map, List.map_take, List.map_drop]
  | remove index count => simp only [edit, List.map_append, List.map_take, List.map_drop]

/-! ## One splice of a method -/

/-- A splice succeeds if its index or span is there, and then changes nothing but the body. -/
theorem apply_eq_ok_iff {splice : Splice} {method next : Method} :
    splice.apply method = .ok next ↔ splice.Fits method.body.length ∧
      next = { method with
        body := splice.edit id (method.body.map (.retarget splice.move)) } := by
  cases splice with
  | insert index items =>
      simp only [apply, Method.insert_eq, Fits, edit, move, List.map_id]
      split <;> simp [eq_comm] <;> omega
  | remove index count =>
      simp only [apply, Method.remove_eq, Fits, edit, move, List.map_append, List.map_take,
        List.map_drop]
      split <;> simp [eq_comm] <;> omega

theorem length_of_apply {splice : Splice} {method next : Method}
    (h : splice.apply method = .ok next) :
    next.body.length = splice.size method.body.length := by
  obtain ⟨fits, rfl⟩ := apply_eq_ok_iff.mp h
  rw [length_edit id (by simpa using fits), List.length_map]

/-- An instruction that is kept moves to where targets move, with its own target. -/
theorem getElem?_move {splice : Splice} {method next : Method}
    (h : splice.apply method = .ok next) {source : Nat} (kept : splice.Keeps source) :
    next.body[splice.move source]? = method.body[source]?.map (.retarget splice.move) := by
  obtain ⟨fits, rfl⟩ := apply_eq_ok_iff.mp h
  have hmove := getElem?_edit_move id (l := method.body.map (.retarget splice.move))
    (by simpa using fits) kept
  rw [List.getElem?_map] at hmove
  exact hmove

/-- When others are put in, each instruction moves to where targets move, with its own target. -/
theorem getElem?_afterInsert_of_insert {method next : Method} {index : Nat}
    {items : List Instruction} (h : method.insert index items = .ok next) (source : Nat) :
    next.body[Target.afterInsert index items.length source]? =
      method.body[source]?.map (.retarget (Target.afterInsert index items.length)) :=
  getElem?_move (show (Splice.insert index items).apply method = .ok next from h) nofun

/-- The instructions that are put in stand where they were put in, one behind the other. -/
theorem getElem?_add_of_insert {method next : Method} {index : Nat} {items : List Instruction}
    (h : method.insert index items = .ok next) {i : Nat} (hi : i < items.length) :
    next.body[index + i]? = items[i]? := by
  have happly : (Splice.insert index items).apply method = .ok next := h
  obtain ⟨fits, rfl⟩ := apply_eq_ok_iff.mp happly
  have hlength : index ≤ method.body.length := fits
  simp [edit, hlength, List.getElem?_append, hi]

/-- An instruction that is put in stands where it was put in. -/
theorem getElem?_of_insert {method next : Method} {index : Nat} {item : Instruction}
    (h : method.insert index [item] = .ok next) : next.body[index]? = some item :=
  getElem?_add_of_insert h (Nat.zero_lt_one)

/-- The targets of what is put in are positions of the new body. -/
def Aims (length : Nat) (splice : Splice) : Prop :=
  ∀ item ∈ splice.items, ∀ target, item.target = some target → target ≤ length

theorem apply_targetsBounded {splice : Splice} {method next : Method}
    (h : splice.apply method = .ok next) (aims : splice.Aims next.body.length)
    (bounded : method.TargetsBounded) : next.TargetsBounded := by
  have hlength := length_of_apply h
  obtain ⟨fits, rfl⟩ := apply_eq_ok_iff.mp h
  intro instruction mem target htarget
  obtain ⟨place, hplace⟩ := List.mem_iff_getElem?.mp mem
  rcases of_getElem?_edit (by simpa using fits) hplace with ⟨item, hitem, rfl⟩ | ⟨source, hs, -, -⟩
  · exact aims _ hitem target htarget
  · rw [List.getElem?_map, Option.map_eq_some_iff] at hs
    obtain ⟨old, hold, rfl⟩ := hs
    obtain ⟨before, hbefore, rfl⟩ := Option.map_eq_some_iff.mp htarget
    rw [hlength]
    exact move_le_size fits (bounded old (List.mem_of_getElem? hold) before hbefore)

/-! ## Tags -/

/-- The tags after the splice; what is put in has none. -/
def tag : Splice → List (Option Nat) → List (Option Nat) := edit fun _ => none

/-- The tags of a body before any splice. -/
def tags (length : Nat) : List (Option Nat) := (List.range length).map some

@[simp] theorem length_tags (length : Nat) : (tags length).length = length := by simp [tags]

theorem getElem?_tags {length place source : Nat} :
    (tags length)[place]? = some (some source) ↔ place = source ∧ source < length := by
  simp only [tags, List.getElem?_map, Option.map_eq_some_iff, Option.some.injEq]
  grind

/-- A tag is found where the instruction that carries it has been moved to. -/
theorem exists_of_getElem?_tag {splice : Splice} {tags : List (Option Nat)} {place source : Nat}
    (fits : splice.Fits tags.length) (h : (splice.tag tags)[place]? = some (some source)) :
    ∃ before, tags[before]? = some (some source) ∧ splice.Keeps before ∧
      splice.move before = place := by
  rcases of_getElem?_edit fits h with ⟨_, _, h⟩ | h
  · cases h
  · exact h

/-- Tags neither change their order nor appear from nowhere. -/
theorem filterMap_tag_sublist (splice : Splice) (tags : List (Option Nat)) :
    ((splice.tag tags).filterMap id).Sublist (tags.filterMap id) := by
  cases splice with
  | insert index items =>
      conv_rhs => rw [← List.take_append_drop index tags]
      simp [tag, edit]
  | remove index count =>
      refine List.Sublist.filterMap id ?_
      conv_rhs => rw [← List.take_append_drop index tags]
      refine List.Sublist.append_left ?_ _
      rw [← List.drop_drop]
      exact List.drop_sublist count _

/-! ## Positions

A position of a body of `length` instructions is the index of one of them, or `length` itself. -/

/-- Where a position goes.  That of an instruction stays with it; that of an instruction which is
taken out goes where the instruction behind the span goes; the end stays the end. -/
inductive Carries (splice : Splice) (length : Nat) : Nat → Nat → Prop
  | instruction {source place : Nat}
      (stays : (splice.tag (tags length))[place]? = some (some source)) :
      Carries splice length source place
  | removed {source place index count : Nat} (removes : splice = .remove index count)
      (above : index ≤ source) (below : source < index + count)
      (behind : Carries splice length (index + count) place) : Carries splice length source place
  | atEnd : Carries splice length length (splice.size length)

/-- The relation is what branch targets follow. -/
theorem carries_iff {splice : Splice} {length source place : Nat} (fits : splice.Fits length)
    (h : source ≤ length) : splice.Carries length source place ↔ place = splice.move source := by
  constructor
  · intro carries
    induction carries with
    | instruction stays =>
        obtain ⟨before, hbefore, -, rfl⟩ := exists_of_getElem?_tag (by simpa using fits) stays
        rw [(getElem?_tags.mp hbefore).1]
    | @removed source place index count removes above below _ ih =>
        subst removes
        rw [ih fits]
        simp only [move, Target.afterRemove]
        grind
    | atEnd => exact (move_length fits).symm
  · rintro rfl
    -- a position that is kept is found by its tag; one that is taken out is led back to that case
    have ofKept : ∀ p ≤ length, splice.Keeps p → splice.Carries length p (splice.move p) := by
      intro p hp kept
      rcases Nat.lt_or_eq_of_le hp with hlt | rfl
      · refine .instruction ?_
        rw [tag, getElem?_edit_move _ (by simpa using fits) kept]
        exact getElem?_tags.mpr ⟨rfl, hlt⟩
      · rw [move_length fits]
        exact .atEnd
    by_cases kept : splice.Keeps source
    · exact ofKept source h kept
    · simp only [Keeps, not_forall, not_or, Nat.not_lt, Nat.not_le] at kept
      obtain ⟨index, count, rfl, above, below⟩ := kept
      have hmove : (remove index count).move source =
          (remove index count).move (index + count) := by
        simp only [move, Target.afterRemove]
        grind
      rw [hmove]
      refine .removed rfl above below (ofKept _ fits ?_)
      intro i c heq
      cases heq
      exact .inr (Nat.le_refl _)

/-! ## Runs -/

/-- A run of splices, all of which succeed and put in instructions with targets in the new body. -/
inductive Run : Method → List Splice → Method → Prop
  | done (method : Method) : Run method [] method
  | step {method next result : Method} {splice : Splice} {rest : List Splice}
      (applied : splice.apply method = .ok next) (aims : splice.Aims next.body.length)
      (run : Run next rest result) : Run method (splice :: rest) result

/-- The tags after a run. -/
def tagAll (splices : List Splice) (ts : List (Option Nat)) : List (Option Nat) :=
  splices.foldl (fun ts splice => splice.tag ts) ts

/-- The tags of the final body of a run: where each of its instructions comes from. -/
def origins (splices : List Splice) (length : Nat) : List (Option Nat) :=
  tagAll splices (tags length)

/-- Some splice of the run takes out the instruction with the tag `source`. -/
inductive Removes : List Splice → List (Option Nat) → Nat → Prop
  | here {index count place source : Nat} {rest : List Splice} {ts : List (Option Nat)}
      (tagged : ts[place]? = some (some source)) (above : index ≤ place)
      (below : place < index + count) : Removes (.remove index count :: rest) ts source
  | later {splice : Splice} {rest : List Splice} {ts : List (Option Nat)} {source : Nat}
      (removes : Removes rest (splice.tag ts) source) : Removes (splice :: rest) ts source

/-- Where a run takes a position of the first body, splice by splice. -/
inductive CarriesAll : List Splice → Nat → Nat → Nat → Prop
  | done (length source : Nat) : CarriesAll [] length source source
  | step {splice : Splice} {rest : List Splice} {length source next place : Nat}
      (first : splice.Carries length source next)
      (others : CarriesAll rest (splice.size length) next place) :
      CarriesAll (splice :: rest) length source place

/-- Where branch targets stand after a run. -/
def moveAll (splices : List Splice) (target : Nat) : Nat :=
  splices.foldl (fun target splice => splice.move target) target

/-- An instruction with a tag is the one of that index in the first body, but for its target. -/
def Stems (first : List Instruction) (moved : Nat → Nat) (tag : Option Nat)
    (instruction : Instruction) : Prop :=
  ∀ source, tag = some source → first[source]?.map (.retarget moved) = some instruction

/-- What a run keeps up between the first method, the tags and the method it has come to. -/
structure Tracked (first : Method) (moved : Nat → Nat) (tags : List (Option Nat))
    (method : Method) : Prop where
  frame : { method with body := first.body } = first
  bounded : method.TargetsBounded
  stems : List.Forall₂ (Stems first.body moved) tags method.body
  placed : ∀ {place source : Nat}, tags[place]? = some (some source) → moved source = place
  ordered : (tags.filterMap id).Sublist (List.range first.body.length)

namespace Tracked

variable {first method next result : Method} {moved : Nat → Nat} {ts : List (Option Nat)}

theorem length_eq (h : Tracked first moved ts method) : ts.length = method.body.length :=
  h.stems.length_eq

theorem start (bounded : first.TargetsBounded) :
    Tracked first id (tags first.body.length) first where
  frame := rfl
  bounded := bounded
  stems := by
    refine List.forall₂_iff_get.mpr ⟨by simp, fun place hp hq source h => ?_⟩
    simp only [tags, List.get_eq_getElem, List.getElem_map, List.getElem_range,
      Option.some.injEq] at h
    subst h
    simp [Instruction.retarget, List.getElem?_eq_getElem hq]
  placed h := (getElem?_tags.mp h).1.symm
  ordered := by simp [tags, List.filterMap_map]

/-- One splice moves the tags, the body and the branch targets together. -/
theorem step {splice : Splice} (h : Tracked first moved ts method)
    (applied : splice.apply method = .ok next) (aims : splice.Aims next.body.length) :
    Tracked first (splice.move ∘ moved) (splice.tag ts) next where
  frame := by
    obtain ⟨-, rfl⟩ := apply_eq_ok_iff.mp applied
    exact h.frame
  bounded := apply_targetsBounded applied aims h.bounded
  stems := by
    obtain ⟨fits, rfl⟩ := apply_eq_ok_iff.mp applied
    have old : List.Forall₂ (Stems first.body (splice.move ∘ moved)) ts
        (method.body.map (.retarget splice.move)) := by
      rw [List.forall₂_map_right_iff]
      refine h.stems.imp fun tag instruction stems source htag => ?_
      obtain ⟨before, hbefore, rfl⟩ := Option.map_eq_some_iff.mp (stems source htag)
      simp [hbefore, Instruction.retarget]
    have inserted : ∀ item, Stems first.body (splice.move ∘ moved) none (id item) :=
      fun _ _ h => absurd h (Option.some_ne_none _).symm
    exact forall₂_edit inserted old
  placed hplace := by
    obtain ⟨fits, -⟩ := apply_eq_ok_iff.mp applied
    obtain ⟨before, hbefore, -, rfl⟩ :=
      exists_of_getElem?_tag (by rwa [h.length_eq]) hplace
    exact congrArg splice.move (h.placed hbefore)
  ordered := (filterMap_tag_sublist splice ts).trans h.ordered

theorem run {splices : List Splice} (run : Run method splices result)
    (h : Tracked first moved ts method) :
    Tracked first (moveAll splices ∘ moved) (tagAll splices ts) result := by
  induction run generalizing moved ts with
  | done method => exact h
  | step applied aims _ ih => exact ih (h.step applied aims)

end Tracked

/-- Splice by splice, a position goes where the branch targets go. -/
theorem carriesAll_iff {method result : Method} {splices : List Splice}
    (run : Run method splices result) {source place : Nat} (h : source ≤ method.body.length) :
    CarriesAll splices method.body.length source place ↔ place = moveAll splices source := by
  induction run generalizing source with
  | done method =>
      constructor
      · rintro ⟨⟩
        rfl
      · rintro rfl
        exact .done _ _
  | @step method next result splice rest applied aims _ ih =>
      obtain ⟨fits, -⟩ := apply_eq_ok_iff.mp applied
      have hlength := length_of_apply applied
      have hmoved : splice.move source ≤ next.body.length := hlength ▸ move_le_size fits h
      constructor
      · rintro ⟨⟩
        rename_i middle first others
        rw [(carries_iff fits h).mp first, ← hlength, ih hmoved] at others
        exact others
      · intro hplace
        refine .step ((carries_iff fits h).mpr rfl) ?_
        rw [← hlength]
        exact (ih hmoved).mpr hplace

theorem moveAll_length {method result : Method} {splices : List Splice}
    (run : Run method splices result) :
    moveAll splices method.body.length = result.body.length := by
  induction run with
  | done method => rfl
  | step applied aims _ ih =>
      rw [← ih, length_of_apply applied, ← move_length (apply_eq_ok_iff.mp applied).1]
      rfl

/-- No splice of the run takes out the instruction that has the index in front of it. -/
def KeepsAll : List Splice → Nat → Prop
  | [], _ => True
  | splice :: rest, source => splice.Keeps source ∧ KeepsAll rest (splice.move source)

/-- An instruction that is kept moves to where targets move, with its own target. -/
theorem getElem?_moveAll {method result : Method} {splices : List Splice}
    (run : Run method splices result) {source : Nat} (kept : KeepsAll splices source) :
    result.body[moveAll splices source]? =
      method.body[source]?.map (.retarget (moveAll splices)) := by
  induction run generalizing source with
  | done method =>
      have hmove : moveAll [] = id := rfl
      cases hsource : method.body[source]? <;> simp [hmove, hsource]
  | @step method next result splice rest applied aims _ ih =>
      have hmove : moveAll (splice :: rest) = moveAll rest ∘ splice.move := rfl
      rw [hmove, Function.comp_apply, ih kept.2, getElem?_move applied kept.1, Option.map_map]
      congr 1
      funext instruction
      exact Weave.retarget_retarget _ _ _

theorem moveAll_append (splices others : List Splice) (target : Nat) :
    moveAll (splices ++ others) target = moveAll others (moveAll splices target) :=
  List.foldl_append

/-- A position of the first body becomes a position of the last one. -/
theorem moveAll_le {method result : Method} {splices : List Splice}
    (run : Run method splices result) {target : Nat} (h : target ≤ method.body.length) :
    moveAll splices target ≤ result.body.length := by
  induction run generalizing target with
  | done method => exact h
  | step applied aims _ ih =>
      refine ih ?_
      rw [length_of_apply applied]
      exact move_le_size (apply_eq_ok_iff.mp applied).1 h

theorem Run.append {method middle result : Method} {splices others : List Splice}
    (run : Run method splices middle) (rest : Run middle others result) :
    Run method (splices ++ others) result := by
  induction run with
  | done method => exact rest
  | step applied aims _ ih => exact .step applied aims (ih rest)

theorem not_mem_tag_of_not_mem {splice : Splice} {ts : List (Option Nat)} {source : Nat}
    (h : some source ∉ ts) : some source ∉ splice.tag ts := by
  intro mem
  have : source ∈ (splice.tag ts).filterMap id := List.mem_filterMap.mpr ⟨_, mem, rfl⟩
  obtain ⟨_, hmem, rfl⟩ := List.mem_filterMap.mp ((filterMap_tag_sublist splice ts).subset this)
  exact h hmem

theorem not_mem_tagAll_of_not_mem (splices : List Splice) {ts : List (Option Nat)}
    {source : Nat} (h : some source ∉ ts) : some source ∉ tagAll splices ts := by
  induction splices generalizing ts with
  | nil => exact h
  | cons splice rest ih => exact ih (not_mem_tag_of_not_mem h)

/-- A tag is missing after a run exactly if a splice has taken it out. -/
theorem mem_tagAll_iff {first method result : Method} {moved : Nat → Nat}
    {splices : List Splice} {ts : List (Option Nat)} (run : Run method splices result)
    (h : Tracked first moved ts method) {source : Nat} (mem : some source ∈ ts) :
    some source ∈ tagAll splices ts ↔ ¬ Removes splices ts source := by
  induction run generalizing moved ts with
  | done method =>
      refine ⟨fun _ => ?_, fun _ => mem⟩
      rintro ⟨⟩
  | @step method next result splice rest applied aims _ ih =>
      have fits := (apply_eq_ok_iff.mp applied).1
      rw [← h.length_eq] at fits
      obtain ⟨place, hplace⟩ := List.mem_iff_getElem?.mp mem
      by_cases kept : splice.Keeps place
      · have mem' : some source ∈ splice.tag ts := by
          refine List.mem_of_getElem? (i := splice.move place) ?_
          rwa [tag, getElem?_edit_move _ fits kept]
        rw [tagAll, List.foldl_cons, ← tagAll, ih (h.step applied aims) mem', not_iff_not]
        refine ⟨.later, fun removes => ?_⟩
        cases removes with
        | here tagged above below =>
            rw [← h.placed hplace, h.placed tagged] at kept
            have := kept _ _ rfl
            omega
        | later removes => exact removes
      · have gone : some source ∉ splice.tag ts := by
          intro mem'
          obtain ⟨place', hplace'⟩ := List.mem_iff_getElem?.mp mem'
          obtain ⟨before, hbefore, kept', -⟩ := exists_of_getElem?_tag fits hplace'
          rw [← h.placed hbefore, h.placed hplace] at kept'
          exact kept kept'
        simp only [Keeps, not_forall, not_or, Nat.not_lt, Nat.not_le] at kept
        obtain ⟨index, count, rfl, above, below⟩ := kept
        constructor
        · exact fun mem' => absurd mem' (not_mem_tagAll_of_not_mem rest gone)
        · exact fun hnot => absurd (.here hplace above below) hnot

/-! ## What a run does to a method -/

/-- The instructions that no splice takes out stay, once each and in order, with all but their
targets; branches stay with the position they lead to, which stays with its instruction, or with the
one behind the removed span, or with the end. -/
theorem run_follows_instructions {method result : Method} {splices : List Splice}
    (bounded : method.TargetsBounded) (run : Run method splices result) :
    { result with body := method.body } = method ∧ result.TargetsBounded ∧
    (origins splices method.body.length).length = result.body.length ∧
    ((origins splices method.body.length).filterMap id).Sublist
      (List.range method.body.length) ∧
    (∀ source < method.body.length, some source ∈ origins splices method.body.length ↔
      ¬ Removes splices (tags method.body.length) source) ∧
    ∃ moved : Nat → Nat,
      (∀ position ≤ method.body.length, ∀ place,
        CarriesAll splices method.body.length position place ↔ place = moved position) ∧
      moved method.body.length = result.body.length ∧
      ∀ place source, (origins splices method.body.length)[place]? = some (some source) →
        moved source = place ∧ ∃ old, method.body[source]? = some old ∧
          result.body[place]? = some { old with target := old.target.map moved } := by
  have tracked := Tracked.run run (.start bounded)
  refine ⟨tracked.frame, tracked.bounded, tracked.length_eq, tracked.ordered, ?_,
    moveAll splices, fun position h place => carriesAll_iff run h, moveAll_length run, ?_⟩
  · intro source h
    exact mem_tagAll_iff run (.start bounded) (List.mem_of_getElem? (getElem?_tags.mpr ⟨rfl, h⟩))
  · intro place source hplace
    refine ⟨tracked.placed hplace, ?_⟩
    obtain ⟨hlt, htag⟩ := List.getElem?_eq_some_iff.mp hplace
    have stems := (List.forall₂_iff_get.mp tracked.stems).2 place hlt
      (tracked.length_eq ▸ hlt) source htag
    obtain ⟨old, hold, hnew⟩ := Option.map_eq_some_iff.mp stems
    refine ⟨old, hold, ?_⟩
    rw [List.getElem?_eq_getElem (tracked.length_eq ▸ hlt)]
    exact congrArg some hnew.symm

/-- A branch over one instruction, and a return behind it. -/
def branchOver : Method :=
  ⟨"La;", "b", [], "V", .empty, 1,
    [⟨.ifEqz, [0], none, none, some 1, none⟩, { opcode := .nop }, { opcode := .returnVoid }]⟩

/-- The target of the branch is moved by an insertion and then taken out: the branch leads to the
return. -/
theorem run_follows_instructions_branchOver :
    branchOver.TargetsBounded ∧
    Run branchOver [.insert 0 [{ opcode := .nop }], .remove 2 1] { branchOver with
      body := [{ opcode := .nop }, ⟨.ifEqz, [0], none, none, some 2, none⟩,
        { opcode := .returnVoid }] } ∧
    origins [.insert 0 [{ opcode := .nop }], .remove 2 1] 3 = [none, some 0, some 2] ∧
    ∃ moved : Nat → Nat, moved 0 = 1 ∧ moved 1 = 2 ∧ moved 2 = 2 ∧ moved 3 = 3 := by
  have bounded : branchOver.TargetsBounded := by simp [Method.TargetsBounded, branchOver]
  have run : Run branchOver [.insert 0 [{ opcode := .nop }], .remove 2 1] { branchOver with
      body := [{ opcode := .nop }, ⟨.ifEqz, [0], none, none, some 2, none⟩,
        { opcode := .returnVoid }] } :=
    .step rfl (by simp [Aims, items]) (.step rfl (by simp [Aims, items]) (.done _))
  have inserted : (insert 0 [{ opcode := .nop }]).Carries 3 1 2 := .instruction rfl
  have behind : (remove 2 1).Carries 4 3 2 := .instruction rfl
  have removed : (remove 2 1).Carries 4 2 2 := .removed rfl (by decide) (by decide) behind
  obtain ⟨-, -, -, -, -, moved, carries, atEnd, follows⟩ := run_follows_instructions bounded run
  have target : 2 = moved 1 :=
    (carries 1 (by decide) 2).mp (.step inserted (.step removed (.done _ _)))
  exact ⟨bounded, run, rfl, moved, (follows 1 0 rfl).1, target.symm, (follows 2 2 rfl).1, atEnd⟩

end Splice

end DexGraft
