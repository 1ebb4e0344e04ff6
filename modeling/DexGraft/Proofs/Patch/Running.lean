import DexGraft.Proofs.Code.Pool
import DexGraft.Proofs.Patch.Dependency

/-!
# Runs of patches

Patches are performed one after the other, in an order that has every dependency in front of the
patches that need it, up to the first that fails.  To perform a patch is to search the fingerprints it
asks for, whatever comes of it, and then to execute it.  The main statement says for which patches there
is such an order, what is wrong where there is none, and that a run does what the order says, and
nothing if there is none.
-/

namespace DexGraft

open Editing Outcome

/-! ## Steps of a computation -/

namespace Patching

variable {α β : Type}

/-- An attempt to add a call leaves behind what the registry makes of it. -/
theorem run_inject (hook descriptor : String) (context : PatchContext) :
    (inject hook descriptor).run.run context =
      ((context.hooks.inject context.pool hook descriptor).1,
        { context with
          hooks := (context.hooks.inject context.pool hook descriptor).2.1
          pool := (context.hooks.inject context.pool hook descriptor).2.2 }) := by
  rw [inject, run_get_bind]
  rcases context.hooks.inject context.pool hook descriptor with ⟨_ | _, _, _⟩ <;> rfl

/-- A search leaves behind what the store makes of it. -/
theorem run_resolve (fingerprint : Fingerprint) (context : PatchContext) :
    (resolve fingerprint).run.run context =
      ((context.resolutions.resolve fingerprint context.pool).1,
        { context with
          resolutions := (context.resolutions.resolve fingerprint context.pool).2 }) := by
  rw [resolve, run_get_bind]
  rcases context.resolutions.resolve fingerprint context.pool with ⟨_ | _, _⟩ <;> rfl

/-- What becomes of the pool becomes of the pool of the context. -/
theorem run_onPool (edit : Editing ClassPool α) (context : PatchContext) :
    (onPool edit).run.run context =
      ((edit.run.run context.pool).1, { context with pool := (edit.run.run context.pool).2 }) :=
  run_zoom rfl

/-! ### Steps that succeed -/

theorem run_resolution_eq_ok_iff {name : String} {resolution : Resolution}
    {context last : PatchContext} :
    (Patching.resolution name).run.run context = (.ok resolution, last) ↔
      context.resolutions.get? name = some resolution ∧ context = last := by
  have hrequire : context.resolutions.require name = .ok resolution ↔
      context.resolutions.get? name = some resolution := by
    rw [ResolutionStore.require]
    cases context.resolutions.get? name <;> simp
  rw [Patching.resolution, run_look_eq_ok_iff, hrequire]

/-- Changing a part of the pool succeeds as it does in the pool. -/
theorem run_onPool_eq_ok_iff {edit : Editing ClassPool α} {a : α} {context last : PatchContext} :
    (onPool edit).run.run context = (.ok a, last) ↔
      ∃ pool, edit.run.run context.pool = (.ok a, pool) ∧ last = { context with pool } := by
  rw [onPool, run_zoom_eq_ok_iff]
  constructor
  · rintro ⟨_, pool, ⟨⟩, hedit, rfl⟩
    exact ⟨pool, hedit, rfl⟩
  · rintro ⟨pool, hedit, rfl⟩
    exact ⟨context.pool, pool, rfl, hedit, rfl⟩

theorem run_edit_eq_ok_iff {id : MethodId} {change : Editing Method Unit}
    {context last : PatchContext} :
    (edit id change).run.run context = (.ok (), last) ↔
      ∃ pool, context.pool.Edited id change.result pool ∧ last = { context with pool } := by
  rw [edit, run_onPool_eq_ok_iff]
  refine exists_congr fun pool => and_congr_left fun _ => ?_
  rw [ClassPool.editMethod, run_zoom_eq_ok_iff]
  constructor
  · rintro ⟨method, changed, hmethod, hchange, rfl⟩
    exact ⟨method, changed, ClassPool.method?_of_method hmethod, result_eq_ok_iff.mpr hchange, rfl⟩
  · rintro ⟨method, changed, hmethod, hchange, rfl⟩
    refine ⟨method, changed, ?_, result_eq_ok_iff.mp hchange, rfl⟩
    rw [ClassPool.method, hmethod]

end Patching

/-! ## Performing -/

namespace PatchContext

/-- The context after searches, of which the store keeps what it makes of each. -/
def searched (context : PatchContext) (fingerprints : List Fingerprint) : PatchContext :=
  { context with
    resolutions := fingerprints.foldl
      (fun store fingerprint => (store.resolve fingerprint context.pool).2) context.resolutions }

end PatchContext

namespace Patch

/-- What performing a patch comes to: its fingerprints are searched and it is executed, or it cannot
say what it asks for. -/
inductive Performs (patch : Patch) (context : PatchContext) : Except Error Unit × PatchContext → Prop
  | executed {fingerprints : List Fingerprint} {outcome : Except Error Unit × PatchContext}
      (asked : patch.fingerprints context = .ok fingerprints)
      (ran : patch.execute.run.run (context.searched fingerprints) = outcome) :
      Performs patch context outcome
  | refused {e : Error} (asked : patch.fingerprints context = .error e) :
      Performs patch context (.error e, context)

/-- The patches have been performed one after the other, and none has failed. -/
inductive Applied : List Patch → PatchContext → PatchContext → Prop
  | nil (context : PatchContext) : Applied [] context context
  | cons {patch : Patch} {rest : List Patch} {context middle last : PatchContext}
      (performs : patch.Performs context (.ok (), middle))
      (others : Applied rest middle last) : Applied (patch :: rest) context last

/-- What performing patches in order comes to: all are performed, or the first that fails ends it. -/
inductive Runs (patches : List Patch) (context : PatchContext) :
    Except Error (List String) × PatchContext → Prop
  | all {last : PatchContext} (applied : Applied patches context last) :
      Runs patches context (.ok (patches.map (·.name)), last)
  | stopped {before after : List Patch} {patch : Patch} {middle last : PatchContext} {e : Error}
      (split : patches = before ++ patch :: after) (applied : Applied before context middle)
      (failed : patch.Performs middle (.error e, last)) :
      Runs patches context (.error (.patchFailed patch.name e), last)

variable {patch : Patch} {patches : List Patch} {context last : PatchContext}

theorem run_search (fingerprints : List Fingerprint) (context : PatchContext) :
    (search fingerprints).run.run context = (.ok (), context.searched fingerprints) := by
  induction fingerprints generalizing context with
  | nil => rfl
  | cons fingerprint rest ih =>
      rw [search, run_bind, run_tryCatch, run_bind, Patching.run_resolve]
      rcases (context.resolutions.resolve fingerprint context.pool).1 with e | resolution
      all_goals exact ih _

theorem apply_iff {outcome : Except Error Unit × PatchContext} :
    patch.apply.run.run context = outcome ↔ patch.Performs context outcome := by
  rw [apply, run_bind, run_look]
  cases hasked : patch.fingerprints context with
  | error e =>
      constructor
      · rintro rfl
        exact .refused hasked
      · rintro (⟨asked, -⟩ | asked) <;> rw [hasked] at asked <;> cases asked
        rfl
  | ok fingerprints =>
      dsimp only
      rw [run_bind, run_search]
      constructor
      · exact .executed hasked
      · rintro (⟨asked, ran⟩ | asked) <;> rw [hasked] at asked <;> cases asked
        exact ran

/-- One patch after the other is performed. -/
theorem run_applyAll_cons (patch : Patch) (rest : List Patch) (context : PatchContext) :
    (applyAll (patch :: rest)).run.run context = match patch.apply.run.run context with
      | (.error e, last) => (.error (.patchFailed patch.name e), last)
      | (.ok (), middle) => match (applyAll rest).run.run middle with
        | (.error e, last) => (.error e, last)
        | (.ok names, last) => (.ok (patch.name :: names), last) := by
  rw [applyAll, run_bind, run_tryCatch]
  rcases patch.apply.run.run context with ⟨e | ⟨⟩, middle⟩
  · rfl
  · dsimp only
    rw [run_bind]
    rcases (applyAll rest).run.run middle with ⟨_ | _, _⟩ <;> rfl

theorem runs_applyAll (patches : List Patch) (context : PatchContext) :
    Runs patches context ((applyAll patches).run.run context) := by
  induction patches generalizing context with
  | nil => exact .all (.nil context)
  | cons patch rest ih =>
      rw [run_applyAll_cons]
      rcases hfirst : patch.apply.run.run context with ⟨e | ⟨⟩, middle⟩
      · exact .stopped (List.nil_append _).symm (.nil context) (apply_iff.mp hfirst)
      · dsimp only
        have hrest := ih middle
        generalize (applyAll rest).run.run middle = outcome at hrest ⊢
        cases hrest with
        | all applied => exact .all (.cons (apply_iff.mp hfirst) applied)
        | stopped split applied failed =>
            rw [split]
            exact .stopped (List.cons_append ..).symm (.cons (apply_iff.mp hfirst) applied) failed

/-- Patches that have been performed are followed by the others. -/
theorem Applied.run_applyAll {before : List Patch} (h : Applied before context last)
    (after : List Patch) :
    (applyAll (before ++ after)).run.run context = match (applyAll after).run.run last with
      | (.error e, end') => (.error e, end')
      | (.ok names, end') => (.ok (before.map (·.name) ++ names), end') := by
  induction h with
  | nil context =>
      rw [List.nil_append]
      rcases (applyAll after).run.run context with ⟨_ | _, _⟩ <;> rfl
  | cons performs others ih =>
      rw [List.cons_append, run_applyAll_cons, apply_iff.mpr performs]
      dsimp only
      rw [ih]
      rcases (applyAll after).run.run _ with ⟨_ | _, _⟩ <;> rfl

theorem applyAll_iff {outcome : Except Error (List String) × PatchContext} :
    (applyAll patches).run.run context = outcome ↔ Runs patches context outcome := by
  constructor
  · rintro rfl
    exact runs_applyAll patches context
  · rintro (applied | ⟨rfl, applied, failed⟩)
    · have hrun := applied.run_applyAll []
      rw [List.append_nil] at hrun
      exact hrun.trans (congrArg (fun names => (Except.ok names, _)) (List.append_nil _))
    · rw [applied.run_applyAll, run_applyAll_cons, apply_iff.mpr failed]

end Patch

/-! ## Running -/

namespace Runner

/-- What running all that is reached from the roots comes to: the patches of an order are performed, or
there is no order and nothing happens. -/
inductive RunsFrom (runner : Runner) (roots : List Nat) (context : PatchContext) :
    Except Error (List String) × PatchContext → Prop
  | ordered {order : List Nat} {outcome : Except Error (List String) × PatchContext}
      (found : runner.orderOf roots = .ok order)
      (runs : Patch.Runs (runner.patchesAt order) context outcome) :
      RunsFrom runner roots context outcome
  | unordered {e : Error} (fault : runner.orderOf roots = .error e) :
      RunsFrom runner roots context (.error e, context)

variable {runner : Runner} {roots order : List Nat} {names : List String}

theorem runPlaces_iff {context : PatchContext} {outcome : Except Error (List String) × PatchContext} :
    (runner.runPlaces roots).run.run context = outcome ↔ runner.RunsFrom roots context outcome := by
  rw [runPlaces, run_bind, run_look]
  cases horder : runner.orderOf roots with
  | error e =>
      constructor
      · rintro rfl
        exact .unordered horder
      · rintro (⟨found, -⟩ | found) <;> rw [horder] at found <;> cases found
        rfl
  | ok order =>
      dsimp only
      rw [Patch.applyAll_iff]
      constructor
      · exact .ordered horder
      · rintro (⟨found, runs⟩ | found) <;> rw [horder] at found <;> cases found
        exact runs

/-- The names stand for the places, one by one. -/
theorem mapM_require_eq_ok (h : names.map runner.find? = roots.map some) :
    names.mapM (require runner.index) = .ok roots := by
  induction names generalizing roots with
  | nil =>
      rw [List.map_nil, eq_comm, List.map_eq_nil_iff] at h
      rw [h]
      rfl
  | cons name names ih =>
      cases roots with
      | nil => cases h
      | cons root roots =>
          rw [List.map_cons, List.map_cons, List.cons.injEq] at h
          rw [List.mapM_cons, require, getElem?_index, h.1, ih h.2]
          rfl

/-- The first name that stands for no patch is reported. -/
theorem mapM_require_eq_error {before after : List String} {name : String}
    (hbefore : ∀ other ∈ before, (runner.find? other).isSome) (hname : runner.find? name = none) :
    (before ++ name :: after).mapM (require runner.index) = .error (.patchNotFound name) := by
  induction before with
  | nil =>
      rw [List.nil_append, List.mapM_cons, require, getElem?_index, hname]
      rfl
  | cons other before ih =>
      rw [List.forall_mem_cons] at hbefore
      obtain ⟨i, hi⟩ := Option.isSome_iff_exists.mp hbefore.1
      rw [List.cons_append, List.mapM_cons, require, getElem?_index, hi, ih hbefore.2]
      rfl

/-- The patches of an order are those at its places, one by one. -/
theorem map_some_patchesAt (h : ∀ i ∈ order, i < runner.patches.length) :
    (runner.patchesAt order).map some = order.map (runner.patches[·]?) := by
  induction order with
  | nil => rfl
  | cons i order ih =>
      rw [List.forall_mem_cons] at h
      have hpatch := List.getElem?_eq_getElem h.1
      have hrest := ih h.2
      rw [patchesAt] at hrest ⊢
      rw [List.filterMap_cons_some hpatch, List.map_cons, hrest, List.map_cons, hpatch]

theorem Reached.lt (hroots : ∀ root ∈ roots, root < runner.patches.length) {i : Nat}
    (h : runner.Reached roots i) : i < runner.patches.length := by
  obtain ⟨root, hroot, hpath⟩ := h
  cases hpath with
  | refl => exact hroots _ hroot
  | tail _ hdepends =>
      obtain ⟨_, -, _, -, hfind⟩ := hdepends
      exact lt_of_find? hfind

/-- What an order consists of. -/
theorem of_orderOf (hroots : ∀ root ∈ roots, root < runner.patches.length)
    (h : runner.orderOf roots = .ok order) :
    runner.Settled order ∧ ∀ i, i ∈ order ↔ runner.Reached roots i := by
  have hvisits := visits_orderOf hroots
  rw [h] at hvisits
  cases hvisits with
  | done grows placed =>
      refine ⟨grows.settled, fun i => ⟨fun hi => ?_, grows.settled.mem_of_reached placed⟩⟩
      exact ((grows.added i hi).resolve_left List.not_mem_nil).2

theorem lt_of_mem_orderOf (hroots : ∀ root ∈ roots, root < runner.patches.length)
    (h : runner.orderOf roots = .ok order) : ∀ i ∈ order, i < runner.patches.length :=
  fun i hi => (((of_orderOf hroots h).2 i).mp hi).lt hroots

theorem lt_of_mem_places : ∀ i ∈ runner.places, i < runner.patches.length :=
  fun _ => List.mem_range.mp

theorem fault_of_orderOf (hroots : ∀ root ∈ roots, root < runner.patches.length) {e : Error}
    (h : runner.orderOf roots = .error e) : runner.Fault roots e := by
  have hvisits := visits_orderOf hroots
  rw [h] at hvisits
  cases hvisits with
  | failed fault => exact fault

/-- There is an order exactly if nothing is wrong with what is reached. -/
theorem exists_orderOf_iff (hroots : ∀ root ∈ roots, root < runner.patches.length) :
    (∃ order, runner.orderOf roots = .ok order) ↔ ∀ i, runner.Reached roots i →
      ¬ runner.OnCycle i ∧ ∀ patch, runner.patches[i]? = some patch →
        ∀ name ∈ patch.dependencies, (runner.find? name).isSome := by
  constructor
  · rintro ⟨order, horder⟩ i hi
    obtain ⟨hsettled, hmem⟩ := of_orderOf hroots horder
    rw [← hmem] at hi
    refine ⟨hsettled.not_onCycle hi, fun patch hpatch name hname => ?_⟩
    obtain ⟨before, after, hsplit⟩ := List.append_of_mem hi
    obtain ⟨j, -, hfind⟩ := hsettled.front hsplit hpatch name hname
    exact Option.isSome_iff_exists.mpr ⟨j, hfind⟩
  · intro hsound
    cases horder : runner.orderOf roots with
    | ok order => exact ⟨order, rfl⟩
    | error e =>
        cases fault_of_orderOf hroots horder with
        | unknown reached here needed missing =>
            have hsome := (hsound _ reached).2 _ here _ needed
            rw [missing] at hsome
            cases hsome
        | cycle reached here again => exact absurd again (hsound _ reached).1

/-- All patches have an order exactly if their search finds one, and it gives their names. -/
theorem order_eq_ok_iff :
    runner.order = .ok names ↔ ∃ order, runner.orderOf runner.places = .ok order ∧
      names.map some = order.map fun i => (runner.patches[i]?).map (·.name) := by
  rw [Runner.order, bind_eq_ok_iff]
  refine exists_congr fun order => and_congr_right fun horder => ?_
  have hlt := lt_of_mem_orderOf lt_of_mem_places horder
  have hnames : ((runner.patchesAt order).map (·.name)).map some =
      order.map fun i => (runner.patches[i]?).map (·.name) := by
    calc ((runner.patchesAt order).map (·.name)).map some
      _ = ((runner.patchesAt order).map some).map (Option.map (·.name)) := by
        rw [List.map_map, List.map_map]
        rfl
      _ = order.map fun i => (runner.patches[i]?).map (·.name) := by
        rw [map_some_patchesAt hlt, List.map_map]
        rfl
  rw [← hnames, (List.map_injective_iff.mpr fun _ _ => Option.some.inj).eq_iff, Except.ok.injEq,
    eq_comm]

theorem order_eq_error_iff {e : Error} :
    runner.order = .error e ↔ runner.orderOf runner.places = .error e := by
  rw [Runner.order]
  cases runner.orderOf runner.places with
  | error e' =>
      constructor
      all_goals
        rintro ⟨⟩
        rfl
  | ok order => exact iff_of_false nofun nofun

/-- From any places the search ends.  It finds an order exactly if all dependencies of all that is
reached are registered and none of it needs itself; the order consists of what is reached, once each,
with the dependencies of each patch in front of it.  Without an order the fault is one of what is
reached.  A run performs the patches of the order up to the first that fails, and none if there is no
order, or if a name that was selected stands for no patch. -/
theorem run_in_dependency_order (runner : Runner) :
    (∀ roots, (∀ root ∈ roots, root < runner.patches.length) →
      ((∃ order, runner.orderOf roots = .ok order) ↔ ∀ i, runner.Reached roots i →
        ¬ runner.OnCycle i ∧ ∀ patch, runner.patches[i]? = some patch →
          ∀ name ∈ patch.dependencies, (runner.find? name).isSome) ∧
      (∀ order, runner.orderOf roots = .ok order →
        order.Nodup ∧ (∀ i, i ∈ order ↔ runner.Reached roots i) ∧
          (∀ before i after, order = before ++ i :: after →
            ∀ j, runner.DependsOn i j → j ∈ before) ∧
          (runner.patchesAt order).map some = order.map (runner.patches[·]?)) ∧
      ∀ e, runner.orderOf roots = .error e → runner.Fault roots e) ∧
    (∀ names, runner.order = .ok names ↔ ∃ order, runner.orderOf runner.places = .ok order ∧
      names.map some = order.map fun i => (runner.patches[i]?).map (·.name)) ∧
    (∀ e, runner.order = .error e ↔ runner.orderOf runner.places = .error e) ∧
    (∀ context outcome, runner.run.run.run context = outcome ↔
      runner.RunsFrom runner.places context outcome) ∧
    ∀ names context,
      (∀ roots, names.map runner.find? = roots.map some → ∀ outcome,
        (runner.runSelected names).run.run context = outcome ↔
          runner.RunsFrom roots context outcome) ∧
      ∀ before name after, names = before ++ name :: after →
        (∀ other ∈ before, (runner.find? other).isSome) → runner.find? name = none →
          (runner.runSelected names).run.run context = (.error (.patchNotFound name), context) := by
  refine ⟨fun roots hroots => ⟨exists_orderOf_iff hroots, fun order horder => ?_,
    fun e => fault_of_orderOf hroots⟩, fun _ => order_eq_ok_iff, fun _ => order_eq_error_iff,
    fun _ _ => runPlaces_iff, fun names context => ⟨fun roots hnames outcome => ?_, ?_⟩⟩
  · obtain ⟨hsettled, hmem⟩ := of_orderOf hroots horder
    refine ⟨hsettled.nodup, hmem, ?_, map_some_patchesAt (lt_of_mem_orderOf hroots horder)⟩
    exact fun before i after hsplit j hdepends =>
      hsettled.mem_of_transGen hsplit (.single hdepends)
  · rw [runSelected, run_bind, run_look, mapM_require_eq_ok hnames]
    exact runPlaces_iff
  · rintro before name after rfl hbefore hname
    rw [runSelected, run_bind, run_look, mapM_require_eq_error hbefore hname]

/-- The first of three patches needs the others, and the second the third.  Each reports that it has
run.  The second searches for something of which the parent was not found, and the first fails. -/
def threePatches : Runner :=
  ⟨[{ name := "a", dependencies := ["b", "c"]
      execute := do
        Patching.addStatus "a"
        throw (.classNotFound "Lmissing;") },
    { name := "b", dependencies := ["c"]
      fingerprints := fun _ => .ok [{ name := "child", parent := some "parent" }]
      execute := Patching.addStatus "b" },
    { name := "c", execute := Patching.addStatus "c" }]⟩

/-- A context without classes in which these patches have run. -/
def reported (names : List String) : PatchContext where
  pool := ⟨[]⟩
  resources := {}
  config := {}
  settings := { patchStatus := names }

theorem run_in_dependency_order_threePatches :
    (∀ root ∈ [0], root < threePatches.patches.length) ∧
      threePatches.orderOf [0] = .ok [2, 1, 0] ∧
      (∀ i, i ∈ [2, 1, 0] ↔ threePatches.Reached [0] i) ∧
      ["a"].map threePatches.find? = [0].map some ∧
      (threePatches.runSelected ["a"]).run.run (reported []) =
        (.error (.patchFailed "a" (.classNotFound "Lmissing;")), reported ["c", "b", "a"]) ∧
      ["b"].map threePatches.find? = [1].map some ∧
      (threePatches.runSelected ["b"]).run.run (reported []) =
        (.ok ["c", "b"], reported ["c", "b"]) ∧
      (threePatches.runSelected ["b", "ghost"]).run.run (reported []) =
        (.error (.patchNotFound "ghost"), reported []) := by
  obtain ⟨hsearch, -, -, -, hselected⟩ := threePatches.run_in_dependency_order
  have hroots : ∀ root ∈ [0], root < threePatches.patches.length := by decide
  have horder : threePatches.orderOf [0] = .ok [2, 1, 0] := by
    rw [orderOf_eq]
    decide +kernel
  have hsecond : threePatches.orderOf [1] = .ok [2, 1] := by
    rw [orderOf_eq]
    decide +kernel
  have hc : ∀ patch, threePatches.patches[2]? = some patch →
      patch.Performs (reported []) (.ok (), reported ["c"]) := by
    rintro _ ⟨⟩
    exact .executed rfl rfl
  have hb : ∀ patch, threePatches.patches[1]? = some patch →
      patch.Performs (reported ["c"]) (.ok (), reported ["c", "b"]) := by
    rintro _ ⟨⟩
    exact .executed rfl rfl
  have ha : ∀ patch, threePatches.patches[0]? = some patch → patch.Performs (reported ["c", "b"])
      (.error (.classNotFound "Lmissing;"), reported ["c", "b", "a"]) := by
    rintro _ ⟨⟩
    exact .executed rfl rfl
  refine ⟨hroots, horder, ((hsearch [0] hroots).2.1 _ horder).2.1, by decide, ?_, by decide, ?_, ?_⟩
  · refine ((hselected ["a"] (reported [])).1 [0] (by decide) _).mpr (.ordered horder ?_)
    exact .stopped (rfl : _ = [_, _] ++ [_]) (.cons (hc _ rfl) (.cons (hb _ rfl) (.nil _))) (ha _ rfl)
  · refine ((hselected ["b"] (reported [])).1 [1] (by decide) _).mpr (.ordered hsecond ?_)
    exact .all (.cons (hc _ rfl) (.cons (hb _ rfl) (.nil _)))
  · exact (hselected ["b", "ghost"] (reported [])).2 ["b"] "ghost" [] rfl (by decide) (by decide)

end Runner

end DexGraft
