import DexGraft.Proofs.Patch.Running
import Mathlib.Data.List.Induction

/-!
# Registration

A patch that is registered behind others may need some of them, and then it comes behind all of them
while their own order stays what it was.  The search for the order of the longer list looks up the
same places by name, and the further patch stays idle until all others have been visited.
-/

namespace DexGraft.Runner

open Outcome

/-- The patches with one more registered behind them. -/
def add (runner : Runner) (patch : Patch) : Runner := ⟨runner.patches ++ [patch]⟩

variable {runner : Runner} {patch : Patch} {idle roots order order' : List Nat} {i : Nat}
  {name : String}

/-! ## Places -/

theorem names_add : (runner.add patch).names = runner.names ++ [patch.name] := by
  rw [names, add, List.map_append, names, List.map_singleton]

theorem places_add : (runner.add patch).places = runner.places ++ [runner.patches.length] := by
  rw [places, add, List.length_append, List.length_singleton, List.range_succ, places]

theorem getElem?_add_of_lt (hi : i < runner.patches.length) :
    (runner.add patch).patches[i]? = runner.patches[i]? :=
  List.getElem?_append_left hi

theorem getElem?_add_length :
    (runner.add patch).patches[runner.patches.length]? = some patch :=
  List.getElem?_concat_length

/-- A name goes on to stand for the patch that it stood for. -/
theorem find?_add (h : runner.find? name = some i) :
    (runner.add patch).find? name = some i := by
  have happend : (runner.add patch).find? name =
      (runner.find? name).or (([patch].findIdx? (·.name == name)).map (· + runner.patches.length)) :=
    List.findIdx?_append
  rw [happend, h, Option.some_or]

theorem exists_find?_of_mem_names (h : name ∈ runner.names) :
    ∃ i, runner.find? name = some i := by
  obtain ⟨patch, hpatch, rfl⟩ := List.mem_map.mp h
  refine Option.isSome_iff_exists.mp ?_
  rw [find?, List.findIdx?_isSome, List.any_eq_true]
  exact ⟨patch, hpatch, beq_self_eq_true _⟩

/-! ## Visits -/

/-- A visit that succeeds comes to the same while a further patch stays idle. -/
theorem extend_add (hi : i < runner.patches.length) (h : runner.extend idle i order = .ok order') :
    (runner.add patch).extend (idle ++ [runner.patches.length]) i order = .ok order' := by
  induction hlength : idle.length using Nat.strongRecOn generalizing idle i order order' with
  | ind length ih =>
      by_cases hmem : i ∈ order
      · rw [extend_of_mem hmem] at h ⊢
        exact h
      have hpatch := List.getElem?_eq_getElem hi
      by_cases hfree : i ∈ idle
      · rw [extend_of_idle hpatch hmem hfree] at h
        rw [extend_of_idle ((getElem?_add_of_lt hi).trans hpatch) hmem
          (List.mem_append_left _ hfree), List.erase_append_left _ hfree]
        obtain ⟨grown, hgrown, h⟩ := bind_eq_ok_iff.mp h
        refine bind_eq_ok_iff.mpr ⟨grown, foldlM_eq_ok_of_forall ?_ hgrown, h⟩
        intro dependency _ before behind hstep
        cases hfind : runner.find? dependency with
        | none =>
            rw [hfind] at hstep
            cases hstep
        | some j =>
            rw [hfind] at hstep
            rw [find?_add hfind]
            have hlt : (idle.erase i).length < length := by
              have hpos := List.length_pos_of_mem hfree
              rw [List.length_erase_of_mem hfree]
              omega
            exact ih _ hlt (lt_of_find? hfind) hstep rfl
      · rw [extend_of_not_idle hpatch hmem hfree] at h
        cases h

/-- The order of any of the patches is the same when a further one is registered. -/
theorem orderOf_add (hroots : ∀ root ∈ roots, root < runner.patches.length)
    (h : runner.orderOf roots = .ok order) : (runner.add patch).orderOf roots = .ok order := by
  rw [orderOf_eq] at h
  rw [orderOf_eq, places_add]
  exact foldlM_eq_ok_of_forall (fun root hroot _ _ hvisit => extend_add (hroots root hroot) hvisit) h

/-- A patch comes next if all that it needs is in the order. -/
theorem extend_of_forall_mem (hpatch : runner.patches[i]? = some patch) (hnew : i ∉ order)
    (hfree : i ∈ idle)
    (hfront : ∀ name ∈ patch.dependencies, ∃ j ∈ order, runner.find? name = some j) :
    runner.extend idle i order = .ok (order ++ [i]) := by
  rw [extend_of_idle hpatch hnew hfree]
  refine bind_eq_ok_iff.mpr ⟨order, foldlM_eq_ok_self fun name hname => ?_, rfl⟩
  obtain ⟨j, hj, hfind⟩ := hfront name hname
  rw [hfind]
  exact extend_of_mem hj

/-- A patch that needs only patches registered before it is visited last. -/
theorem orderOf_places_add (h : runner.orderOf runner.places = .ok order)
    (hneeds : ∀ name ∈ patch.dependencies, name ∈ runner.names) :
    (runner.add patch).orderOf (runner.add patch).places =
      .ok (order ++ [runner.patches.length]) := by
  have hmem : ∀ i, i ∈ order ↔ i < runner.patches.length := by
    intro i
    rw [(of_orderOf lt_of_mem_places h).2 i]
    exact ⟨Reached.lt lt_of_mem_places, fun hi => .of_start (List.mem_range.mpr hi)⟩
  have hsame : (runner.add patch).orderOf runner.places = .ok order :=
    orderOf_add lt_of_mem_places h
  rw [orderOf_eq] at hsame
  rw [orderOf_eq, places_add, List.foldlM_append, ← places_add, hsame]
  rw [ok_bind, List.foldlM_cons, extend_of_forall_mem getElem?_add_length]
  · rfl
  · rw [hmem]
    exact Nat.lt_irrefl _
  · rw [places_add]
    exact List.mem_append_right _ List.mem_cons_self
  · intro name hname
    obtain ⟨j, hj⟩ := exists_find?_of_mem_names (hneeds name hname)
    exact ⟨j, (hmem j).mpr (lt_of_find? hj), find?_add hj⟩

theorem order_add {names : List String} (h : runner.order = .ok names)
    (hneeds : ∀ name ∈ patch.dependencies, name ∈ runner.names) :
    (runner.add patch).order = .ok (names ++ [patch.name]) := by
  obtain ⟨order, horder, hnames⟩ := order_eq_ok_iff.mp h
  refine order_eq_ok_iff.mpr ⟨_, orderOf_places_add horder hneeds, ?_⟩
  have hlt := lt_of_mem_orderOf lt_of_mem_places horder
  have hsame : order.map (fun i => ((runner.add patch).patches[i]?).map (·.name)) =
      order.map fun i => (runner.patches[i]?).map (·.name) :=
    List.map_congr_left fun i hi => by rw [getElem?_add_of_lt (hlt i hi)]
  rw [List.map_append, List.map_append, hnames, hsame, List.map_singleton, List.map_singleton,
    getElem?_add_length, Option.map_some]

/-! ## Patches that need only earlier ones -/

/-- Every patch needs only names under which patches were registered before it. -/
def NeedsEarlier (runner : Runner) : Prop :=
  ∀ i patch, runner.patches[i]? = some patch →
    ∀ name ∈ patch.dependencies, name ∈ runner.names.take i

theorem take_names_add (hi : i ≤ runner.patches.length) :
    (runner.add patch).names.take i = runner.names.take i := by
  rw [names_add, List.take_append_of_le_length]
  rwa [names, List.length_map]

theorem NeedsEarlier.of_add (h : (runner.add patch).NeedsEarlier) :
    runner.NeedsEarlier ∧ ∀ name ∈ patch.dependencies, name ∈ runner.names := by
  refine ⟨fun i other hother name hname => ?_, fun name hname => ?_⟩
  · have hi : i < runner.patches.length := (List.getElem?_eq_some_iff.mp hother).1
    rw [← take_names_add (Nat.le_of_lt hi)]
    exact h i other ((getElem?_add_of_lt hi).trans hother) name hname
  · have hmem := h _ patch getElem?_add_length name hname
    rw [take_names_add (Nat.le_refl _)] at hmem
    exact List.mem_of_mem_take hmem

theorem NeedsEarlier.order_eq (h : runner.NeedsEarlier) : runner.order = .ok runner.names := by
  obtain ⟨patches⟩ := runner
  induction patches using List.reverseRecOn with
  | nil => rfl
  | append_singleton patches patch ih =>
      have hadd : (add ⟨patches⟩ patch).NeedsEarlier := h
      obtain ⟨hearlier, hlast⟩ := hadd.of_add
      calc (add ⟨patches⟩ patch).order
        _ = .ok (Runner.names ⟨patches⟩ ++ [patch.name]) := order_add (ih hearlier) hlast
        _ = .ok (add ⟨patches⟩ patch).names := by rw [names_add]

/-- A patch that needs only names registered before it runs behind all others, and their own order
stays as it was.  So, if every patch needs only names registered before it, they run in the order in
which they were registered. -/
theorem order_keeps_registration :
    (∀ (runner : Runner) (names : List String) (patch : Patch), runner.order = .ok names →
      (∀ name ∈ patch.dependencies, name ∈ runner.names) →
      (runner.add patch).order = .ok (names ++ [patch.name])) ∧
    ∀ runner : Runner, runner.NeedsEarlier → runner.order = .ok runner.names :=
  ⟨fun _ _ _ => order_add, fun _ => NeedsEarlier.order_eq⟩

/-- Patches that do nothing.  Two have the same name, and the second of these needs the first by way
of another patch. -/
def sameNames : Runner :=
  ⟨[{ name := "a", execute := pure () },
    { name := "b", dependencies := ["a"], execute := pure () },
    { name := "a", dependencies := ["b", "a"], execute := pure () }]⟩

/-- The first of two patches of one name needs the one that is registered behind it. -/
def crossedNames : Runner :=
  ⟨[{ name := "a", dependencies := ["b"], execute := pure () },
    { name := "b", execute := pure () },
    { name := "a", dependencies := ["b", "a"], execute := pure () }]⟩

/-- A further patch of the same name again. -/
def thirdOfName : Patch := { name := "a", dependencies := ["a", "b", "a"], execute := pure () }

theorem order_keeps_registration_sameNames :
    crossedNames.order = .ok ["b", "a", "a"] ∧
      (∀ name ∈ thirdOfName.dependencies, name ∈ crossedNames.names) ∧
      (crossedNames.add thirdOfName).order = .ok ["b", "a", "a", "a"] ∧
      sameNames.NeedsEarlier ∧ sameNames.order = .ok ["a", "b", "a"] := by
  have horder : crossedNames.order = .ok ["b", "a", "a"] := by
    refine order_eq_ok_iff.mpr ⟨[1, 0, 2], ?_, by decide⟩
    rw [orderOf_eq]
    decide +kernel
  have hneeds : ∀ name ∈ thirdOfName.dependencies, name ∈ crossedNames.names := by decide
  have hearlier : sameNames.NeedsEarlier := by
    intro i patch hpatch
    rcases i with - | - | - | i <;> cases hpatch <;> decide
  exact ⟨horder, hneeds, order_keeps_registration.1 crossedNames _ thirdOfName horder hneeds,
    hearlier, order_keeps_registration.2 sameNames hearlier⟩

end DexGraft.Runner
