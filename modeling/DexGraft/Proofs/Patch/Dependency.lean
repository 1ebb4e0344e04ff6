import DexGraft.Proofs.Patch.Search
import Mathlib.Data.List.Nodup
import Mathlib.Logic.Relation

/-!
# Orders of patches

Patches are put in order by a depth-first search along their dependencies.  What the search leaves
behind is an order in which every dependency stands in front of the patches that need it; an order
only ever grows at its end.  A patch that is neither idle nor in the order waits for the patch that is
being visited, so that its being needed means a cycle.

The main statement is what a search from any places comes to (`Runner.visits_orderOf`): an order of
what can be reached, or a fault that can be reached.
-/

namespace DexGraft.Runner

open Relation

/-! ## Dependencies -/

/-- The patch at the first place names a dependency that stands for the patch at the second. -/
def DependsOn (runner : Runner) (i j : Nat) : Prop :=
  ∃ patch, runner.patches[i]? = some patch ∧
    ∃ name ∈ patch.dependencies, runner.find? name = some j

/-- The place is one of the starts, or a dependency leads there from one of them, directly or not. -/
def Reached (runner : Runner) (starts : List Nat) (i : Nat) : Prop :=
  ∃ start ∈ starts, ReflTransGen runner.DependsOn start i

/-- The patch at the place needs itself, directly or not. -/
def OnCycle (runner : Runner) (i : Nat) : Prop := TransGen runner.DependsOn i i

/-- Why patches cannot be put in order, if any of what is reached from the starts has to be in it. -/
inductive Fault (runner : Runner) (starts : List Nat) : Error → Prop
  | unknown {i : Nat} {patch : Patch} {name : String} (reached : runner.Reached starts i)
      (here : runner.patches[i]? = some patch) (needed : name ∈ patch.dependencies)
      (missing : runner.find? name = none) :
      Fault runner starts (.unknownDependency patch.name name)
  | cycle {i : Nat} {patch : Patch} (reached : runner.Reached starts i)
      (here : runner.patches[i]? = some patch) (again : runner.OnCycle i) :
      Fault runner starts (.dependencyCycle patch.name)

/-- No patch is in the order twice, and the dependencies of each stand in front of it. -/
structure Settled (runner : Runner) (order : List Nat) : Prop where
  nodup : order.Nodup
  front : ∀ {before i after patch}, order = before ++ i :: after →
    runner.patches[i]? = some patch → ∀ name ∈ patch.dependencies,
      ∃ j ∈ before, runner.find? name = some j

variable {runner : Runner} {starts starts' idle idle' order order' : List Nat} {i j : Nat}

theorem lt_of_find? {name : String} (h : runner.find? name = some i) :
    i < runner.patches.length :=
  (List.findIdx?_eq_some_iff_getElem.mp h).1

theorem Reached.of_start (h : i ∈ starts) : runner.Reached starts i := ⟨i, h, .refl⟩

theorem Reached.of_singleton (hj : runner.Reached starts j) (hi : runner.Reached [j] i) :
    runner.Reached starts i := by
  obtain ⟨start, hstart, hpath⟩ := hj
  obtain ⟨start', hstart', hpath'⟩ := hi
  rw [List.mem_singleton.mp hstart'] at hpath'
  exact ⟨start, hstart, hpath.trans hpath'⟩

theorem Fault.of_singleton {e : Error} (hj : runner.Reached starts j)
    (h : runner.Fault [j] e) : runner.Fault starts e := by
  cases h with
  | unknown reached here needed missing =>
      exact .unknown (hj.of_singleton reached) here needed missing
  | cycle reached here again => exact .cycle (hj.of_singleton reached) here again

/-! ## Orders -/

theorem settled_nil : runner.Settled [] where
  nodup := .nil
  front h := by simp at h

/-- A patch is put behind its dependencies. -/
theorem Settled.concat {patch : Patch} (h : runner.Settled order) (hnew : i ∉ order)
    (hpatch : runner.patches[i]? = some patch)
    (hfront : ∀ name ∈ patch.dependencies, ∃ j ∈ order, runner.find? name = some j) :
    runner.Settled (order ++ [i]) where
  nodup := by
    rw [← List.concat_eq_append]
    exact h.nodup.concat hnew
  front {before k after patch'} hsplit hpatch' := by
    rcases after.eq_nil_or_concat with rfl | ⟨after, last, rfl⟩
    · obtain ⟨rfl, hlast⟩ := List.append_inj' hsplit rfl
      cases hlast
      rw [hpatch] at hpatch'
      cases hpatch'
      exact hfront
    · rw [List.concat_eq_append, ← List.cons_append, ← List.append_assoc] at hsplit
      exact h.front (List.append_inj' hsplit rfl).1 hpatch'

/-- All that a patch of the order needs stands in front of it. -/
theorem Settled.mem_of_transGen (h : runner.Settled order) {before after : List Nat}
    (hsplit : order = before ++ i :: after) (hneeds : TransGen runner.DependsOn i j) :
    j ∈ before := by
  have hstep : ∀ {before i after j}, order = before ++ i :: after → runner.DependsOn i j →
      j ∈ before := by
    intro before i after j hsplit hdepends
    obtain ⟨patch, hpatch, name, hname, hfind⟩ := hdepends
    obtain ⟨j', hj', hfind'⟩ := h.front hsplit hpatch name hname
    rw [hfind] at hfind'
    cases hfind'
    exact hj'
  induction hneeds with
  | single hdepends => exact hstep hsplit hdepends
  | @tail k j _ hdepends ih =>
      obtain ⟨front, back, rfl⟩ := List.append_of_mem ih
      rw [List.append_assoc, List.cons_append] at hsplit
      exact List.mem_append_left _ (hstep hsplit hdepends)

theorem Settled.not_onCycle (h : runner.Settled order) (hi : i ∈ order) :
    ¬ runner.OnCycle i := by
  intro hcycle
  obtain ⟨before, after, rfl⟩ := List.append_of_mem hi
  have hmem := h.mem_of_transGen rfl hcycle
  exact (List.nodup_append.mp h.nodup).2.2 i hmem i List.mem_cons_self rfl

/-- What is reached from the places of an order is in it. -/
theorem Settled.mem_of_reached (h : runner.Settled order) (hstarts : ∀ start ∈ starts, start ∈ order)
    (hi : runner.Reached starts i) : i ∈ order := by
  obtain ⟨start, hstart, hpath⟩ := hi
  rcases reflTransGen_iff_eq_or_transGen.mp hpath with rfl | hneeds
  · exact hstarts _ hstart
  · obtain ⟨before, after, hsplit⟩ := List.append_of_mem (hstarts start hstart)
    rw [hsplit]
    exact List.mem_append_left _ (h.mem_of_transGen hsplit hneeds)

/-! ## Visits -/

/-- What visiting adds to an order: idle places that are reached from the starts. -/
structure Grows (runner : Runner) (idle starts order order' : List Nat) : Prop where
  settled : runner.Settled order'
  grown : order <+: order'
  added : ∀ k ∈ order', k ∈ order ∨ k ∈ idle ∧ runner.Reached starts k

theorem Grows.refl (h : runner.Settled order) : runner.Grows idle starts order order :=
  ⟨h, List.prefix_rfl, fun _ hk => .inl hk⟩

theorem Grows.trans {order'' : List Nat} (h : runner.Grows idle starts order order')
    (h' : runner.Grows idle starts order' order'') : runner.Grows idle starts order order'' where
  settled := h'.settled
  grown := h.grown.trans h'.grown
  added k hk := (h'.added k hk).elim (h.added k) .inr

/-- What visiting can come to; `Placed` says what has to be in the order. -/
inductive Visits (runner : Runner) (idle starts order : List Nat) (Placed : List Nat → Prop) :
    Except Error (List Nat) → Prop
  | done {order' : List Nat} (grows : runner.Grows idle starts order order')
      (placed : Placed order') : Visits runner idle starts order Placed (.ok order')
  | failed {e : Error} (fault : runner.Fault starts e) :
      Visits runner idle starts order Placed (.error e)

/-- A place is visited on the way from other starts. -/
theorem Visits.of_singleton {Placed Placed' : List Nat → Prop} {outcome : Except Error (List Nat)}
    (hj : runner.Reached starts j) (hplaced : ∀ order', Placed order' → Placed' order')
    (h : runner.Visits idle [j] order Placed outcome) :
    runner.Visits idle starts order Placed' outcome := by
  cases h with
  | failed fault => exact .failed (fault.of_singleton hj)
  | done grows placed =>
      refine .done ⟨grows.settled, grows.grown, fun k hk => ?_⟩ (hplaced _ placed)
      exact (grows.added k hk).imp_right fun hk => ⟨hk.1, hj.of_singleton hk.2⟩

/-- Further visits, behind those that have made the order grow. -/
theorem Visits.of_grows {Placed Placed' : List Nat → Prop} {outcome : Except Error (List Nat)}
    (grows : runner.Grows idle starts order order')
    (hplaced : ∀ order'', order' <+: order'' → Placed order'' → Placed' order'')
    (h : runner.Visits idle starts order' Placed outcome) :
    runner.Visits idle starts order Placed' outcome := by
  cases h with
  | failed fault => exact .failed fault
  | done grows' placed' => exact .done (grows.trans grows') (hplaced _ grows'.grown placed')

/-- Visits one after the other. -/
theorem visits_foldlM {α : Type} {place : α → Option Nat}
    {step : List Nat → α → Except Error (List Nat)} {l : List α} (hsettled : runner.Settled order)
    (hstep : ∀ a ∈ l, ∀ order', order <+: order' → runner.Settled order' →
      runner.Visits idle starts order' (fun order'' => ∃ j ∈ order'', place a = some j)
        (step order' a)) :
    runner.Visits idle starts order
      (fun order' => ∀ a ∈ l, ∃ j ∈ order', place a = some j) (l.foldlM step order) := by
  induction l generalizing order with
  | nil => exact .done (.refl hsettled) nofun
  | cons a l ih =>
      rw [List.foldlM_cons]
      rw [List.forall_mem_cons] at hstep
      have hfirst := hstep.1 order List.prefix_rfl hsettled
      cases hresult : step order a with
      | error e =>
          rw [hresult] at hfirst
          cases hfirst with
          | failed fault => exact .failed fault
      | ok order' =>
          rw [hresult] at hfirst
          obtain ⟨grows, placed⟩ := hfirst
          have hrest := ih grows.settled fun a ha order'' hgrown =>
            hstep.2 a ha order'' (grows.grown.trans hgrown)
          refine hrest.of_grows grows fun order'' hgrown placed' => ?_
          rw [List.forall_mem_cons]
          obtain ⟨j, hj, hplace⟩ := placed
          exact ⟨⟨j, hgrown.subset hj, hplace⟩, placed'⟩

/-- Every place is idle, or in the order, or waits for the place. -/
def Waits (runner : Runner) (idle order : List Nat) (i : Nat) : Prop :=
  ∀ k < runner.patches.length, k ∈ idle ∨ k ∈ order ∨ TransGen runner.DependsOn k i

/-- A dependency is waited for by the patch that needs it, and by those that wait for this one. -/
theorem Waits.of_dependsOn (h : runner.Waits idle order i) (hgrown : order <+: order')
    (hdepends : runner.DependsOn i j) : runner.Waits (idle.erase i) order' j := by
  intro k hk
  by_cases hki : k = i
  · rw [hki]
    exact .inr (.inr (.single hdepends))
  · rcases h k hk with hidle | hmem | hneeds
    · exact .inl ((List.mem_erase_of_ne hki).mpr hidle)
    · exact .inr (.inl (hgrown.subset hmem))
    · exact .inr (.inr (hneeds.tail hdepends))

/-- The dependencies of a patch are visited, if each of them can be. -/
theorem visits_dependencies (idle : List Nat) {patch : Patch} (hsettled : runner.Settled order)
    (hpatch : runner.patches[i]? = some patch)
    (hvisit : ∀ j order', order <+: order' → runner.Settled order' → runner.DependsOn i j →
      runner.Visits idle [j] order' (j ∈ ·) (runner.extend idle j order')) :
    runner.Visits idle [i] order
      (fun order' => ∀ name ∈ patch.dependencies, ∃ j ∈ order', runner.find? name = some j)
      (patch.dependencies.foldlM (fun order name => match runner.find? name with
        | some j => runner.extend idle j order
        | none => .error (.unknownDependency patch.name name)) order) := by
  refine visits_foldlM hsettled fun name hname order' hgrown hsettled' => ?_
  cases hfind : runner.find? name with
  | none => exact .failed (.unknown (.of_start List.mem_cons_self) hpatch hname hfind)
  | some j =>
      have hdepends : runner.DependsOn i j := ⟨patch, hpatch, name, hname, hfind⟩
      have hreached : runner.Reached [i] j := ⟨i, List.mem_cons_self, .single hdepends⟩
      exact (hvisit j order' hgrown hsettled' hdepends).of_singleton hreached
        fun _ hj => ⟨j, hj, rfl⟩

/-- A patch that was idle is put behind its dependencies. -/
theorem Grows.concat {patch : Patch} (hidle : idle.Nodup) (hfree : i ∈ idle) (hnew : i ∉ order)
    (hpatch : runner.patches[i]? = some patch)
    (hgrows : runner.Grows (idle.erase i) [i] order order')
    (hfront : ∀ name ∈ patch.dependencies, ∃ j ∈ order', runner.find? name = some j) :
    runner.Grows idle [i] order (order' ++ [i]) where
  settled := by
    refine hgrows.settled.concat (fun hmem => ?_) hpatch hfront
    exact (hgrows.added i hmem).elim hnew fun h => hidle.not_mem_erase h.1
  grown := hgrows.grown.trans (List.prefix_append _ _)
  added k hk := by
    rcases List.mem_append.mp hk with hk | hk
    · exact (hgrows.added k hk).imp_right (And.imp_left List.mem_of_mem_erase)
    · rw [List.mem_singleton.mp hk]
      exact .inr ⟨hfree, .of_start List.mem_cons_self⟩

/-- What visiting a place comes to. -/
theorem visits_extend (hidle : idle.Nodup) (hsettled : runner.Settled order)
    (hi : i < runner.patches.length) (hwaits : runner.Waits idle order i) :
    runner.Visits idle [i] order (i ∈ ·) (runner.extend idle i order) := by
  induction hlength : idle.length using Nat.strongRecOn generalizing idle i order with
  | ind length ih =>
      obtain ⟨patch, hpatch⟩ : ∃ patch, runner.patches[i]? = some patch :=
        ⟨_, List.getElem?_eq_getElem hi⟩
      by_cases hmem : i ∈ order
      · rw [extend_of_mem hmem]
        exact .done (.refl hsettled) hmem
      by_cases hfree : i ∈ idle
      · have hdependencies := visits_dependencies (idle.erase i) hsettled hpatch
          fun j order' hgrown hsettled' hdepends => by
            have hlt : (idle.erase i).length < length := by
              have hpos := List.length_pos_of_mem hfree
              rw [List.length_erase_of_mem hfree]
              omega
            have hj : j < runner.patches.length := by
              obtain ⟨_, -, _, -, hfind⟩ := hdepends
              exact lt_of_find? hfind
            exact ih _ hlt (hidle.erase i) hsettled' hj (hwaits.of_dependsOn hgrown hdepends) rfl
        rw [extend_of_idle hpatch hmem hfree]
        cases hresult : patch.dependencies.foldlM (fun order name => match runner.find? name with
            | some j => runner.extend (idle.erase i) j order
            | none => .error (.unknownDependency patch.name name)) order with
        | error e =>
            rw [hresult] at hdependencies
            cases hdependencies with
            | failed fault => exact .failed fault
        | ok order' =>
            rw [hresult] at hdependencies
            cases hdependencies with
            | done grows placed =>
                exact .done (grows.concat hidle hfree hmem hpatch placed) (by simp)
      · -- a place that is neither idle nor in the order waits for itself
        rw [extend_of_not_idle hpatch hmem hfree]
        refine .failed (.cycle (.of_start List.mem_cons_self) hpatch ?_)
        exact ((hwaits i hi).resolve_left hfree).resolve_left hmem

/-- What a search from any places comes to. -/
theorem visits_orderOf {roots : List Nat} (hroots : ∀ root ∈ roots, root < runner.patches.length) :
    runner.Visits runner.places roots [] (fun order => ∀ root ∈ roots, root ∈ order)
      (runner.orderOf roots) := by
  have hplaced : ∀ order : List Nat, (∀ root ∈ roots, ∃ j ∈ order, some root = some j) →
      ∀ root ∈ roots, root ∈ order := by
    intro order hplaced root hroot
    obtain ⟨j, hj, heq⟩ := hplaced root hroot
    cases heq
    exact hj
  rw [orderOf_eq]
  refine Visits.of_grows (.refl settled_nil) (fun order _ => hplaced order) ?_
  refine visits_foldlM settled_nil fun root hroot order _ hsettled => ?_
  have hwaits : runner.Waits runner.places order root := fun k hk => .inl (List.mem_range.mpr hk)
  exact (visits_extend List.nodup_range hsettled (hroots root hroot) hwaits).of_singleton
    (.of_start hroot) fun _ hmem => ⟨root, hmem, rfl⟩

end DexGraft.Runner
