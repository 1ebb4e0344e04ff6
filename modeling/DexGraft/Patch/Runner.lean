import DexGraft.Patch.Context
import Std.Data.HashMap.Lemmas

/-!
# Running patches

Patches run one after the other, each behind those it depends on. A name stands for the first patch
that was registered under it.
-/

namespace DexGraft

structure Patch where
  name : String
  /-- The names of the patches that have to run first. -/
  dependencies : List String := []
  /-- What is searched before the patch runs, parents first. -/
  fingerprints : PatchContext → Except Error (List Fingerprint) := fun _ => .ok []
  execute : Patching Unit

namespace Patch

/-- Searches the fingerprints; what is not found matters only to a patch that asks for it. -/
def search : List Fingerprint → Patching Unit
  | [] => pure ()
  | fingerprint :: rest => do
    tryCatch (do let _ ← Patching.resolve fingerprint) fun _ => pure ()
    search rest

def apply (patch : Patch) : Patching Unit := do
  search (← Editing.look patch.fingerprints)
  patch.execute

/-- Applies patches in order, and gives their names; stops at the first that fails. -/
def applyAll : List Patch → Patching (List String)
  | [] => pure []
  | patch :: rest => do
    tryCatch patch.apply fun e => throw (.patchFailed patch.name e)
    let names ← applyAll rest
    pure (patch.name :: names)

end Patch

/-- Patches in the order in which they were registered. -/
structure Runner where
  patches : List Patch

namespace Runner

def names (runner : Runner) : List String := runner.patches.map (·.name)

/-- The place of the first patch under each name. -/
def index (runner : Runner) : Std.HashMap String Nat :=
  runner.patches.zipIdx.foldl (fun index (patch, i) => index.insertIfNew patch.name i) ∅

/-- The places of all patches. -/
def places (runner : Runner) : List Nat := List.range runner.patches.length

/-- How far a search has come with a patch that it has visited. -/
inductive Visit
  | inProgress
  | done
deriving DecidableEq, Repr

/-- What a search for an order has done so far. -/
structure Search where
  /-- The places that it has visited. -/
  state : Std.HashMap Nat Visit := ∅
  /-- The places that it is done with, each behind those it depends on. -/
  order : List Nat := []

namespace Search

def enter (search : Search) (i : Nat) : Search :=
  { search with state := search.state.insert i .inProgress }

def finish (search : Search) (i : Nat) : Search :=
  ⟨search.state.insert i .done, search.order ++ [i]⟩

end Search

/-- How many patches a search has not visited. -/
def unvisited (runner : Runner) (search : Search) : Nat :=
  runner.places.countP (!search.state.contains ·)

/-- What a search can be later: it never forgets a patch that it has visited. -/
abbrev Later (runner : Runner) (search : Search) : Type :=
  { later : Search // runner.unvisited later ≤ runner.unvisited search }

theorem countP_insert_le (l : List Nat) (state : Std.HashMap Nat Visit) (i : Nat) (visit : Visit) :
    l.countP (!(state.insert i visit).contains ·) ≤ l.countP (!state.contains ·) :=
  List.countP_mono_left fun k _ hk => by
    rw [Std.HashMap.contains_insert, Bool.not_or, Bool.and_eq_true] at hk
    exact hk.2

theorem unvisited_finish_le (runner : Runner) (search : Search) (i : Nat) :
    runner.unvisited (search.finish i) ≤ runner.unvisited search :=
  countP_insert_le ..

/-- A patch that is visited for the first time is one less to visit. -/
theorem unvisited_enter_lt {runner : Runner} {search : Search} {i : Nat}
    (hi : i < runner.patches.length) (hnew : search.state[i]? = none) :
    runner.unvisited (search.enter i) < runner.unvisited search := by
  have hbefore : search.state.contains i = false := by
    rw [Std.HashMap.contains_eq_isSome_getElem?, hnew, Option.isSome_none]
  have hafter : (search.enter i).state.contains i = true := Std.HashMap.contains_insert_self
  obtain ⟨front, back, hsplit⟩ := List.append_of_mem (List.mem_range.mpr hi)
  rw [unvisited, unvisited, places, hsplit, List.countP_append, List.countP_append,
    List.countP_cons_of_neg (by simp [hafter]), List.countP_cons_of_pos (by simp [hbefore])]
  exact Nat.add_lt_add_of_le_of_lt (countP_insert_le ..) (Nat.lt_succ_of_le (countP_insert_le ..))

/--
Visits place `i`: puts it behind the order, and in front of it those of the patches it needs that are
not in the order yet. A patch that is in progress waits for this one, so that it cannot be needed by
it.
-/
def visit (runner : Runner) (index : Std.HashMap String Nat) (i : Nat) (search : Search) :
    Except Error (runner.Later search) :=
  match hpatch : runner.patches[i]? with
  | none => .ok ⟨search, Nat.le_refl _⟩
  | some patch =>
    match hstate : search.state[i]? with
    | some .done => .ok ⟨search, Nat.le_refl _⟩
    | some .inProgress => .error (.dependencyCycle patch.name)
    | none => do
      have hentered : runner.unvisited (search.enter i) < runner.unvisited search :=
        unvisited_enter_lt (List.getElem?_eq_some_iff.mp hpatch).1 hstate
      let later ← patch.dependencies.foldlM (fun (later : runner.Later (search.enter i)) dependency =>
        match index[dependency]? with
        | none => .error (.unknownDependency patch.name dependency)
        | some j => do
          let next ← runner.visit index j later.val
          .ok ⟨next.val, Nat.le_trans next.property later.property⟩) ⟨search.enter i, Nat.le_refl _⟩
      .ok ⟨later.val.finish i, Nat.le_trans (runner.unvisited_finish_le later.val i)
        (Nat.le_trans later.property (Nat.le_of_lt hentered))⟩
termination_by runner.unvisited search
decreasing_by
  exact Nat.lt_of_le_of_lt later.property hentered

/-- The given patches and all that they need, each behind those it depends on. -/
def orderOf (runner : Runner) (roots : List Nat) : Except Error (List Nat) := do
  let index := runner.index
  let search ← roots.foldlM (fun search root => do
    let later ← runner.visit index root search
    .ok later.val) {}
  .ok search.order

/-- The patches at the given places. -/
def patchesAt (runner : Runner) (places : List Nat) : List Patch :=
  places.filterMap (runner.patches[·]?)

/-- The names of all patches in the order in which they run. -/
def order (runner : Runner) : Except Error (List String) := do
  .ok ((runner.patchesAt (← runner.orderOf runner.places)).map (·.name))

/-- Runs the patches at the given places and all that they need; none, if there is no order. -/
def runPlaces (runner : Runner) (roots : List Nat) : Patching (List String) := do
  let order ← Editing.look fun _ => runner.orderOf roots
  Patch.applyAll (runner.patchesAt order)

/-- Runs all patches, and gives their names in order. -/
def run (runner : Runner) : Patching (List String) := runner.runPlaces runner.places

/-- The place of the patch that a name stands for, which has to be registered. -/
def require (index : Std.HashMap String Nat) (name : String) : Except Error Nat :=
  match index[name]? with
  | some i => .ok i
  | none => .error (.patchNotFound name)

/-- Runs the patches with the given names and all that they need. -/
def runSelected (runner : Runner) (names : List String) : Patching (List String) := do
  let index := runner.index
  let roots ← Editing.look fun _ => names.mapM (require index)
  runner.runPlaces roots

end Runner

end DexGraft
