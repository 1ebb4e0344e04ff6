import DexGraft.Fingerprint.Store
import DexGraft.Proofs.NameMap

/-!
# What a store has after many searches

A store is asked to search fingerprints and to drop everything, over and over.  What it has under a
name afterwards is what the last search under the name has found, with one exception: a search that
has no result for its parent is given up before the store is touched, and an older result under its
name stays.  The main statement says which search decides, and exactly when the exception shows.
-/

namespace DexGraft.ResolutionStore

/-! ## Requests and events -/

/-- What a store can be asked for. -/
inductive Request where
  | resolve (fingerprint : Fingerprint) (pool : ClassPool)
  | resolveIn (fingerprint : Fingerprint) (pool : ClassPool) (inClass : Nat)
  /-- To drop all results. -/
  | clear

/-- What has come of a request. -/
inductive Event where
  | searched (name : String) (result : Except Error Resolution)
  | cleared

namespace Event

/-- Whether the event has to do with the result under a name. -/
def concerns (name : String) : Event → Bool
  | searched other _ => other == name
  | cleared => true

/-- What has been found. -/
def found : Event → Option Resolution
  | searched _ result => result.toOption
  | cleared => none

/-- Whether the search was given up since there is no result for the parent. -/
def orphaned : Event → Bool
  | searched _ (.error (.parentNotResolved ..)) => true
  | _ => false

theorem found_of_orphaned {event : Event} (h : event.orphaned) : event.found = none := by
  cases event with
  | cleared => rfl
  | searched name result =>
      cases result with
      | error e => rfl
      | ok resolution => cases h

end Event

def serve (store : ResolutionStore) : Request → Event × ResolutionStore
  | .resolve fingerprint pool =>
    let (result, store) := store.resolve fingerprint pool
    (.searched fingerprint.name result, store)
  | .resolveIn fingerprint pool inClass =>
    let (result, store) := store.resolveIn fingerprint pool inClass
    (.searched fingerprint.name result, store)
  | .clear => (.cleared, .empty)

def serveAll (store : ResolutionStore) : List Request → List Event × ResolutionStore
  | [] => ([], store)
  | request :: requests =>
    let (event, store) := store.serve request
    let (events, store) := store.serveAll requests
    (event :: events, store)

/-- The last event that concerns the name. -/
def last? (name : String) (events : List Event) : Option Event :=
  events.reverse.find? (·.concerns name)

/-- What was found in the last event that concerns the name; without one, what there was before. -/
def latest (name : String) (before : Option Resolution) (events : List Event) :
    Option Resolution :=
  (last? name events).elim before Event.found

/-- The events without the searches that were given up. -/
def decisive (events : List Event) : List Event := events.filter fun event => !event.orphaned

variable {name : String} {before : Option Resolution}

/-! ## The last event -/

theorem last?_append (name : String) (a b : List Event) :
    last? name (a ++ b) = (last? name b).or (last? name a) := by
  rw [last?, List.reverse_append, List.find?_append, last?, last?]

theorem latest_append (a b : List Event) :
    latest name before (a ++ b) = latest name (latest name before a) b := by
  rw [latest, last?_append, latest, latest]
  cases last? name b <;> rfl

theorem decisive_cons (event : Event) (events : List Event) :
    decisive (event :: events) = decisive [event] ++ decisive events :=
  List.filter_append [event] events

theorem decisive_singleton {event : Event} (h : event.orphaned = false) :
    decisive [event] = [event] := by
  rw [decisive, List.filter_cons_of_pos (by rw [h]; rfl), List.filter_nil]

theorem last?_decisive_eq_none {events : List Event} (h : last? name events = none) :
    last? name (decisive events) = none := by
  rw [last?, List.find?_eq_none] at h
  rw [last?, decisive, ← List.filter_reverse, List.find?_eq_none]
  exact fun event hevent => h event (List.mem_filter.mp hevent).1

/-- If the last event is no search that was given up, it is the last one without these, too. -/
theorem last?_decisive {events : List Event} {event : Event} (h : last? name events = some event)
    (hevent : event.orphaned = false) : last? name (decisive events) = some event := by
  rw [last?, List.find?_eq_some_iff_append] at h
  obtain ⟨hconcerns, later, earlier, hsplit, hlater⟩ := h
  have hnone : (later.filter fun event => !event.orphaned).find? (·.concerns name) = none := by
    rw [List.find?_eq_none]
    intro other hother
    simpa using hlater other (List.mem_filter.mp hother).1
  rw [last?, decisive, ← List.filter_reverse, hsplit, List.filter_append,
    List.filter_cons_of_pos (by rw [hevent]; rfl), List.find?_append, hnone, Option.none_or,
    List.find?_cons_of_pos hconcerns]

/-! ## One request -/

theorem resolveScoped_fst (store : ResolutionStore) (fingerprint : Fingerprint) (pool : ClassPool)
    (scope : Option Nat) :
    (store.resolveScoped fingerprint pool scope).1 = fingerprint.resolve pool scope := by
  rw [resolveScoped]
  cases fingerprint.resolve pool scope <;> rfl

theorem resolve_of_root (store : ResolutionStore) {fingerprint : Fingerprint} (pool : ClassPool)
    (root : fingerprint.parent = none) :
    store.resolve fingerprint pool = store.resolveScoped fingerprint pool none := by
  rw [resolve, root]

theorem resolve_of_found {store : ResolutionStore} {fingerprint : Fingerprint} {parent : String}
    {resolution : Resolution} (pool : ClassPool) (child : fingerprint.parent = some parent)
    (found : store.get? parent = some resolution) :
    store.resolve fingerprint pool =
      store.resolveScoped fingerprint pool (some resolution.inClass) := by
  simp only [resolve, child, found]

theorem resolve_of_lost {store : ResolutionStore} {fingerprint : Fingerprint} {parent : String}
    (pool : ClassPool) (child : fingerprint.parent = some parent)
    (lost : store.get? parent = none) :
    store.resolve fingerprint pool =
      (.error (.parentNotResolved fingerprint.name parent), store) := by
  simp only [resolve, child, lost]

/-- A fingerprint is searched somewhere, or given up with the store as it is. -/
theorem resolve_eq (store : ResolutionStore) (fingerprint : Fingerprint) (pool : ClassPool) :
    (∃ scope, store.resolve fingerprint pool = store.resolveScoped fingerprint pool scope) ∨
      ∃ parent, store.resolve fingerprint pool =
        (.error (.parentNotResolved fingerprint.name parent), store) := by
  cases hparent : fingerprint.parent with
  | none => exact .inl ⟨none, store.resolve_of_root pool hparent⟩
  | some parent =>
      cases hget : store.get? parent with
      | some resolution => exact .inl ⟨_, resolve_of_found pool hparent hget⟩
      | none => exact .inr ⟨parent, resolve_of_lost pool hparent hget⟩

/-- A search that is made does not end for want of a parent. -/
theorem orphaned_resolveScoped (store : ResolutionStore) (fingerprint : Fingerprint)
    (pool : ClassPool) (scope : Option Nat) :
    (Event.searched fingerprint.name (store.resolveScoped fingerprint pool scope).1).orphaned =
      false := by
  rw [resolveScoped_fst, Fingerprint.resolve]
  cases fingerprint.resolve? pool scope <;> rfl

/-- A search that is made leaves what it has found under its name, and nothing else changes. -/
theorem get?_resolveScoped (store : ResolutionStore) (fingerprint : Fingerprint)
    (pool : ClassPool) (scope : Option Nat) (name : String) :
    (store.resolveScoped fingerprint pool scope).2.get? name =
      if name = fingerprint.name then (store.resolveScoped fingerprint pool scope).1.toOption
      else store.get? name := by
  rw [resolveScoped]
  cases fingerprint.resolve pool scope with
  | ok resolution => exact NameMap.get?_insert store.results fingerprint.name name resolution
  | error e => exact NameMap.get?_erase store.results fingerprint.name name

theorem get?_resolveScoped_eq_latest (store : ResolutionStore) (fingerprint : Fingerprint)
    (pool : ClassPool) (scope : Option Nat) (name : String) :
    (store.resolveScoped fingerprint pool scope).2.get? name =
      latest name (store.get? name)
        (decisive [.searched fingerprint.name
          (store.resolveScoped fingerprint pool scope).1]) := by
  rw [decisive_singleton (orphaned_resolveScoped store fingerprint pool scope),
    get?_resolveScoped, latest, last?, List.reverse_singleton, List.find?_singleton]
  by_cases h : name = fingerprint.name
  · have hconcerns (result : Except Error Resolution) :
        (Event.searched fingerprint.name result).concerns name := beq_iff_eq.mpr h.symm
    rw [if_pos h, if_pos (hconcerns _)]
    rfl
  · have hconcerns (result : Except Error Resolution) :
        ¬ (Event.searched fingerprint.name result).concerns name :=
      fun heq => h (beq_iff_eq.mp heq).symm
    rw [if_neg h, if_neg (hconcerns _)]
    rfl

/-- What a request leaves under any name. -/
theorem get?_serve (store : ResolutionStore) (request : Request) (name : String) :
    (store.serve request).2.get? name =
      latest name (store.get? name) (decisive [(store.serve request).1]) := by
  cases request with
  | clear => rfl
  | resolveIn fingerprint pool inClass =>
      exact store.get?_resolveScoped_eq_latest fingerprint pool (some inClass) name
  | resolve fingerprint pool =>
      rw [serve]
      rcases resolve_eq store fingerprint pool with ⟨scope, heq⟩ | ⟨parent, heq⟩
      · simp only [heq]
        exact store.get?_resolveScoped_eq_latest fingerprint pool scope name
      · simp only [heq]
        rfl

/-! ## Many requests -/

theorem get?_serveAll_eq_latest (store : ResolutionStore) (requests : List Request)
    (name : String) :
    (store.serveAll requests).2.get? name =
      latest name (store.get? name) (decisive (store.serveAll requests).1) := by
  induction requests generalizing store with
  | nil => rfl
  | cons request requests ih =>
      rw [serveAll, decisive_cons, latest_append, ← get?_serve]
      exact ih (store.serve request).2

/-- What a store has under a name is what was found in the last search that was made under the name
since everything was dropped.  It differs from what came of the last attempt exactly if this was a
search that was given up for want of a parent, and there is an older result. -/
theorem get?_serveAll (store : ResolutionStore) (requests : List Request) (name : String) :
    let run := store.serveAll requests
    run.2.get? name = latest name (store.get? name) (decisive run.1) ∧
      (run.2.get? name ≠ latest name (store.get? name) run.1 ↔
        (last? name run.1).any Event.orphaned ∧ (run.2.get? name).isSome) := by
  intro run
  have hget := store.get?_serveAll_eq_latest requests name
  refine ⟨hget, ?_⟩
  cases hlast : last? name run.1 with
  | none =>
      -- nothing concerns the name
      have heq : run.2.get? name = latest name (store.get? name) run.1 := by
        rw [hget, latest, last?_decisive_eq_none hlast, latest, hlast]
      simp [heq]
  | some event =>
      cases horphaned : event.orphaned with
      | false =>
          have heq : run.2.get? name = latest name (store.get? name) run.1 := by
            rw [hget, latest, last?_decisive hlast horphaned, latest, hlast]
          simp [heq, horphaned]
      | true =>
          have hnone : latest name (store.get? name) run.1 = none := by
            rw [latest, hlast]
            exact Event.found_of_orphaned horphaned
          simp [hnone, horphaned, Option.isSome_iff_ne_none]

/-- A child that was found with its parent is still there when the parent has been lost and the child
is searched again without success. -/
theorem get?_serveAll_lostParent :
    let pool : ClassPool := ⟨[⟨"La;", none, .empty, none,
      [⟨"La;", "b", [], "V", .empty, 0, [{ opcode := .returnVoid }]⟩]⟩]⟩
    let parent : Fingerprint := { name := "Parent" }
    let child : Fingerprint := { name := "Child", parent := some "Parent" }
    let run := empty.serveAll [.resolve parent pool, .resolve child pool,
      .resolve { parent with returnType := some "Z" } pool, .resolve child pool]
    (last? "Child" run.1).any Event.orphaned ∧
      latest "Child" none run.1 = none ∧
      run.2.get? "Child" = some ⟨"Child", ⟨0, 0⟩, ⟨none, []⟩⟩ := by
  decide +kernel

end DexGraft.ResolutionStore
