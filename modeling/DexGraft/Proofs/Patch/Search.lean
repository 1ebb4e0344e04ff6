import DexGraft.Patch.Runner
import DexGraft.Proofs.Outcome

/-!
# Searches for an order

A search looks names up in an index, and a map tells it how far it has come with each patch.  Neither
says more than the patches and the order do: a name stands for the first patch that has it, and a
patch is done once it is in the order.  So a search comes to the same as `extend`, which is given the
order and the patches that are *idle*, those that no patch in progress waits for.
-/

namespace DexGraft.Runner

open Outcome

/-! ## Names -/

/-- The place of the patch that a name stands for. -/
def find? (runner : Runner) (name : String) : Option Nat :=
  runner.patches.findIdx? (·.name == name)

theorem getElem?_foldl_insertIfNew (patches : List Patch) (start : Nat)
    (index : Std.HashMap String Nat) (name : String) :
    ((patches.zipIdx start).foldl (fun index (patch, i) => index.insertIfNew patch.name i)
      index)[name]? =
      index[name]?.or ((patches.findIdx? (·.name == name)).map (· + start)) := by
  induction patches generalizing start index with
  | nil => simp
  | cons patch patches ih =>
      rw [List.zipIdx_cons, List.foldl_cons, ih, Std.HashMap.getElem?_insertIfNew,
        List.findIdx?_cons]
      by_cases hname : patch.name = name
      · subst hname
        rw [if_pos (beq_self_eq_true _), Option.map_some, Nat.zero_add]
        by_cases hmem : patch.name ∈ index
        · obtain ⟨i, hi⟩ := Option.isSome_iff_exists.mp
            (Std.HashMap.mem_iff_isSome_getElem?.mp hmem)
          rw [if_neg fun h => h.2 hmem, hi, Option.some_or, Option.some_or]
        · rw [if_pos ⟨beq_self_eq_true _, hmem⟩, Std.HashMap.getElem?_eq_none hmem, Option.none_or,
            Option.some_or]
      · rw [if_neg (mt beq_iff_eq.mp hname), if_neg fun h => hname (beq_iff_eq.mp h.1),
          Option.map_map]
        congr 2
        funext i
        exact (Nat.add_right_comm i 1 start).symm

/-- The index has the first place of each name. -/
theorem getElem?_index (runner : Runner) (name : String) :
    runner.index[name]? = runner.find? name := by
  rw [index, getElem?_foldl_insertIfNew, Std.HashMap.getElem?_empty, Option.none_or, find?]
  exact Option.map_id'

/-! ## Orders -/

/--
Puts patch `i` behind `order`, and in front of it those of the patches it needs that are not in
`order` yet.  A patch that is not `idle` waits for this one, so that it cannot be needed by it.
-/
def extend (runner : Runner) (idle : List Nat) (i : Nat) (order : List Nat) :
    Except Error (List Nat) :=
  if i ∈ order then .ok order
  else match runner.patches[i]? with
    | none => .ok order
    | some patch =>
      if _h : i ∈ idle then do
        let order ← patch.dependencies.foldlM (fun order dependency =>
          match runner.find? dependency with
          | some j => runner.extend (idle.erase i) j order
          | none => .error (.unknownDependency patch.name dependency)) order
        .ok (order ++ [i])
      else .error (.dependencyCycle patch.name)
termination_by idle.length
decreasing_by
  have := List.length_pos_of_mem _h
  rw [List.length_erase_of_mem _h]
  omega

section Extend

variable {runner : Runner} {idle order : List Nat} {i : Nat} {patch : Patch}

theorem extend_of_mem (hmem : i ∈ order) : runner.extend idle i order = .ok order := by
  rw [extend, if_pos hmem]

/-- An idle patch is put behind the patches that it needs. -/
theorem extend_of_idle (hpatch : runner.patches[i]? = some patch) (hnew : i ∉ order)
    (hfree : i ∈ idle) : runner.extend idle i order = (do
      let order ← patch.dependencies.foldlM (fun order dependency =>
        match runner.find? dependency with
        | some j => runner.extend (idle.erase i) j order
        | none => .error (.unknownDependency patch.name dependency)) order
      .ok (order ++ [i])) := by
  rw [extend, if_neg hnew, hpatch]
  simp only [dif_pos hfree]

theorem extend_of_not_idle (hpatch : runner.patches[i]? = some patch) (hnew : i ∉ order)
    (hbusy : i ∉ idle) : runner.extend idle i order = .error (.dependencyCycle patch.name) := by
  rw [extend, if_neg hnew, hpatch]
  simp only [dif_neg hbusy]

end Extend

/-! ## Searches -/

/-- What a search has noted about each patch is what the order and the idle patches tell of it. -/
structure Tracks (runner : Runner) (idle : List Nat) (search : Search) (order : List Nat) :
    Prop where
  made : search.order = order
  state : ∀ k < runner.patches.length, search.state[k]? =
    if k ∈ order then some .done else if k ∈ idle then none else some .inProgress

variable {runner : Runner} {idle order : List Nat} {search : Search} {i : Nat}

theorem tracks_empty (runner : Runner) : runner.Tracks runner.places {} [] where
  made := rfl
  state k hk := by
    have hidle : k ∈ runner.places := List.mem_range.mpr hk
    rw [Std.HashMap.getElem?_empty, if_neg List.not_mem_nil, if_pos hidle]

/-- A patch that was idle is in progress. -/
theorem Tracks.enter (h : runner.Tracks idle search order) (hidle : idle.Nodup)
    (hnew : i ∉ order) : runner.Tracks (idle.erase i) (search.enter i) order where
  made := h.made
  state k hk := by
    rw [Search.enter, Std.HashMap.getElem?_insert, h.state k hk]
    by_cases hki : i = k
    · subst hki
      rw [if_pos (beq_self_eq_true _), if_neg hnew, if_neg hidle.not_mem_erase]
    · rw [if_neg (mt beq_iff_eq.mp hki)]
      simp only [List.mem_erase_of_ne (Ne.symm hki)]

/-- A patch that was in progress is done. -/
theorem Tracks.finish (h : runner.Tracks (idle.erase i) search order) :
    runner.Tracks idle (search.finish i) (order ++ [i]) where
  made := by rw [Search.finish, h.made]
  state k hk := by
    rw [Search.finish, Std.HashMap.getElem?_insert, h.state k hk]
    by_cases hki : i = k
    · subst hki
      rw [if_pos (beq_self_eq_true _), if_pos (List.mem_append_right _ List.mem_cons_self)]
    · rw [if_neg (mt beq_iff_eq.mp hki)]
      simp only [List.mem_erase_of_ne (Ne.symm hki), List.mem_append, List.mem_singleton,
        Ne.symm hki, or_false]

theorem Tracks.done_iff (h : runner.Tracks idle search order) (hi : i < runner.patches.length) :
    search.state[i]? = some .done ↔ i ∈ order := by
  rw [h.state i hi]
  split_ifs <;> simp [*]

theorem Tracks.inProgress_iff (h : runner.Tracks idle search order)
    (hi : i < runner.patches.length) :
    search.state[i]? = some .inProgress ↔ i ∉ order ∧ i ∉ idle := by
  rw [h.state i hi]
  split_ifs <;> simp [*]

theorem Tracks.none_iff (h : runner.Tracks idle search order) (hi : i < runner.patches.length) :
    search.state[i]? = none ↔ i ∉ order ∧ i ∈ idle := by
  rw [h.state i hi]
  split_ifs <;> simp [*]

/-- A visit keeps track of the order that it makes. -/
theorem alike_visit (hidle : idle.Nodup) (h : runner.Tracks idle search order) (i : Nat) :
    Alike (fun (later : runner.Later search) order' => runner.Tracks idle later.val order')
      (runner.visit runner.index i search) (runner.extend idle i order) := by
  induction hlength : idle.length using Nat.strongRecOn generalizing idle search order i with
  | ind length ih =>
      rw [visit]
      split
      · next hpatch =>
        rw [extend, hpatch, ite_self]
        exact .ok h
      · next patch hpatch =>
        have hi := (List.getElem?_eq_some_iff.mp hpatch).1
        split
        · next hdone =>
          rw [extend_of_mem ((h.done_iff hi).mp hdone)]
          exact .ok h
        · next hwaits =>
          obtain ⟨hmem, hbusy⟩ := (h.inProgress_iff hi).mp hwaits
          rw [extend_of_not_idle hpatch hmem hbusy]
          exact .error _
        · next hnew =>
          obtain ⟨hmem, hfree⟩ := (h.none_iff hi).mp hnew
          have hlt : (idle.erase i).length < length := by
            have hpos := List.length_pos_of_mem hfree
            rw [List.length_erase_of_mem hfree]
            omega
          rw [extend_of_idle hpatch hmem hfree]
          refine Alike.bind (Alike.foldlM (R := fun (later : runner.Later (search.enter i)) order' =>
            runner.Tracks (idle.erase i) later.val order') (fun dependency _ later order' hlater => ?_)
            (h.enter hidle hmem)) fun later order' hlater => .ok hlater.finish
          rw [getElem?_index]
          cases runner.find? dependency with
          | none => exact .error _
          | some j =>
              exact (ih _ hlt (hidle.erase i) hlater j rfl).view fun _ _ hnext => hnext

/-- A search makes the order that the patches and the order so far tell it to make. -/
theorem orderOf_eq (runner : Runner) (roots : List Nat) :
    runner.orderOf roots =
      roots.foldlM (fun order root => runner.extend runner.places root order) [] := by
  have hsearch := Alike.foldlM (l := roots) (R := runner.Tracks runner.places)
    (f := fun search root => runner.visit runner.index root search >>= fun later => .ok later.val)
    (fun root _ search order h => (alike_visit List.nodup_range h root).view fun _ _ => id)
    runner.tracks_empty
  have hmade := hsearch.view (f := Search.order) fun _ _ h => h.made
  exact hmade.eq

end DexGraft.Runner
