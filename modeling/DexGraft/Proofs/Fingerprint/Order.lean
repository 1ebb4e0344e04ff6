import DexGraft.Proofs.Fingerprint.Latest
import DexGraft.Proofs.Outcome
import Mathlib.Data.List.Nodup

/-!
# The order of the searches

Fingerprints of different names are searched one after the other, each in the class of its parent if
it has one.  What comes of one depends on those that come before it only through its parents, so it is
said here without the order: by the parent's own outcome, if the parent stands in front.  Lists in
which parents and children stand alike therefore have the same outcomes.
-/

namespace DexGraft.ResolutionStore

/-! ## Outcomes -/

/-- One fingerprint, given by its name, stands in front of another. -/
def Precedes (fingerprints : List Fingerprint) (first second : String) : Prop :=
  [first, second].Sublist (fingerprints.map (·.name))

instance (fingerprints : List Fingerprint) (first second : String) :
    Decidable (Precedes fingerprints first second) :=
  inferInstanceAs (Decidable (List.Sublist _ _))

/-- What comes of a fingerprint that is searched together with others: it is searched everywhere if it
has no parent, or in the class in which its parent was found, but not if the parent was not found or
does not stand in front. -/
inductive Settles (pool : ClassPool) (fingerprints : List Fingerprint) :
    Fingerprint → Except Error Resolution → Prop
  | root {fingerprint : Fingerprint} (orphan : fingerprint.parent = none) :
    Settles pool fingerprints fingerprint (fingerprint.resolve pool none)
  | within {fingerprint parent : Fingerprint} {resolution : Resolution}
    (child : fingerprint.parent = some parent.name) (mem : parent ∈ fingerprints)
    (inFront : Precedes fingerprints parent.name fingerprint.name)
    (settles : Settles pool fingerprints parent (.ok resolution)) :
    Settles pool fingerprints fingerprint (fingerprint.resolve pool (some resolution.inClass))
  | lost {fingerprint parent : Fingerprint} {e : Error}
    (child : fingerprint.parent = some parent.name) (mem : parent ∈ fingerprints)
    (inFront : Precedes fingerprints parent.name fingerprint.name)
    (settles : Settles pool fingerprints parent (.error e)) :
    Settles pool fingerprints fingerprint
      (.error (.parentNotResolved fingerprint.name parent.name))
  | early {fingerprint : Fingerprint} {parent : String} (child : fingerprint.parent = some parent)
    (behind : ¬ Precedes fingerprints parent fingerprint.name) :
    Settles pool fingerprints fingerprint (.error (.parentNotResolved fingerprint.name parent))

variable {pool : ClassPool} {fingerprints others front back rest : List Fingerprint}
variable {fingerprint : Fingerprint} {outcome other : Except Error Resolution}

/-- Fingerprints of different names are told apart by these. -/
theorem eq_of_name_eq (names : (fingerprints.map (·.name)).Nodup) {a b : Fingerprint}
    (ha : a ∈ fingerprints) (hb : b ∈ fingerprints) (h : a.name = b.name) : a = b :=
  List.inj_on_of_nodup_map names ha hb h

/-- Nothing comes of a fingerprint but one outcome. -/
theorem Settles.unique (names : (fingerprints.map (·.name)).Nodup)
    (h : Settles pool fingerprints fingerprint outcome)
    (h' : Settles pool fingerprints fingerprint other) : outcome = other := by
  induction h generalizing other with
  | root orphan =>
      cases h' with
      | root => rfl
      | within child | lost child | early child => cases orphan.symm.trans child
  | within child mem inFront settles ih =>
      cases h' with
      | root orphan => cases orphan.symm.trans child
      | early child' behind =>
          cases child.symm.trans child'
          exact absurd inFront behind
      | within child' mem' _ settles' =>
          obtain rfl := eq_of_name_eq names mem mem' (Option.some.inj (child.symm.trans child'))
          cases ih settles'
          rfl
      | lost child' mem' _ settles' =>
          obtain rfl := eq_of_name_eq names mem mem' (Option.some.inj (child.symm.trans child'))
          cases ih settles'
  | lost child mem inFront settles ih =>
      cases h' with
      | root orphan => cases orphan.symm.trans child
      | early child' behind =>
          cases child.symm.trans child'
          rfl
      | within child' mem' _ settles' =>
          obtain rfl := eq_of_name_eq names mem mem' (Option.some.inj (child.symm.trans child'))
          cases ih settles'
      | lost child' mem' _ settles' =>
          obtain rfl := eq_of_name_eq names mem mem' (Option.some.inj (child.symm.trans child'))
          rfl
  | early child behind =>
      cases h' with
      | root orphan => cases orphan.symm.trans child
      | early child' =>
          cases child.symm.trans child'
          rfl
      | within child' _ inFront | lost child' _ inFront =>
          cases child.symm.trans child'
          exact absurd inFront behind

/-- In the other list, every parent that is in the first stands in front of its child, or does not, as
it does there. -/
def Agrees (fingerprints others : List Fingerprint) : Prop :=
  ∀ child ∈ fingerprints, ∀ parent ∈ child.parent,
    (Precedes fingerprints parent child.name ↔ Precedes others parent child.name)

instance (fingerprints others : List Fingerprint) : Decidable (Agrees fingerprints others) :=
  inferInstanceAs (Decidable (∀ child ∈ fingerprints, ∀ parent ∈ child.parent, _))

theorem Agrees.symm (h : Agrees fingerprints others) (perm : fingerprints.Perm others) :
    Agrees others fingerprints :=
  fun child hmem parent hparent => (h child (perm.mem_iff.mpr hmem) parent hparent).symm

/-- The order counts only between a parent and its child. -/
theorem Settles.reorder (perm : fingerprints.Perm others) (agrees : Agrees fingerprints others)
    (mem : fingerprint ∈ fingerprints) (h : Settles pool fingerprints fingerprint outcome) :
    Settles pool others fingerprint outcome := by
  induction h with
  | root orphan => exact .root orphan
  | within child hparent inFront _ ih =>
      exact .within child (perm.mem_iff.mp hparent) ((agrees _ mem _ child).mp inFront) (ih hparent)
  | lost child hparent inFront _ ih =>
      exact .lost child (perm.mem_iff.mp hparent) ((agrees _ mem _ child).mp inFront) (ih hparent)
  | early child behind => exact .early child fun h => behind ((agrees _ mem _ child).mpr h)

/-! ## One search -/

/-- The store has what was found of those fingerprints of a list that have had their turn. -/
structure Reflects (pool : ClassPool) (fingerprints front : List Fingerprint)
    (store : ResolutionStore) : Prop where
  ordered : store.results.Ordered
  settled : ∀ fingerprint ∈ front, ∃ outcome, Settles pool fingerprints fingerprint outcome
  get?_iff : ∀ name resolution, store.get? name = some resolution ↔
    ∃ fingerprint ∈ front, fingerprint.name = name ∧
      Settles pool fingerprints fingerprint (.ok resolution)

variable {store : ResolutionStore}

theorem resolve_ordered (h : store.results.Ordered) (fingerprint : Fingerprint)
    (pool : ClassPool) : (store.resolve fingerprint pool).2.results.Ordered := by
  rcases resolve_eq store fingerprint pool with ⟨scope, heq⟩ | ⟨e, heq⟩
  · rw [heq, resolveScoped]
    cases fingerprint.resolve pool scope with
    | ok resolution => exact h.insert fingerprint.name resolution
    | error e => exact h.erase fingerprint.name
  · rw [heq]
    exact h

/-- A search under a new name leaves what has come of it, and so does one that is not made. -/
theorem get?_resolve_of_new (new : store.get? fingerprint.name = none) (pool : ClassPool)
    (name : String) :
    (store.resolve fingerprint pool).2.get? name =
      if name = fingerprint.name then (store.resolve fingerprint pool).1.toOption
      else store.get? name := by
  rcases resolve_eq store fingerprint pool with ⟨scope, heq⟩ | ⟨e, heq⟩
  · rw [heq]
    exact get?_resolveScoped store fingerprint pool scope name
  · rw [heq]
    split
    · rename_i h
      rw [h]
      exact new
    · rfl

/-- What is in front of a fingerprint in the list has had its turn before it. -/
theorem precedes_iff_mem (names : ((front ++ fingerprint :: back).map (·.name)).Nodup)
    (name : String) :
    Precedes (front ++ fingerprint :: back) name fingerprint.name ↔ name ∈ front.map (·.name) := by
  rw [List.map_append, List.map_cons] at names
  rw [Precedes, List.map_append, List.map_cons]
  constructor
  · intro h
    obtain ⟨l, l', heq, hl, hl'⟩ := List.sublist_append_iff.mp h
    cases l with
    | cons first l =>
        obtain ⟨rfl, -⟩ := List.cons.inj heq
        exact hl.subset List.mem_cons_self
    | nil =>
        -- the name would have to come again behind the fingerprint
        rw [List.nil_append] at heq
        subst heq
        have hback : fingerprint.name ∈ back.map (·.name) := hl'.tail.subset List.mem_cons_self
        exact absurd hback (List.nodup_cons.mp names.of_append_right).1
  · intro h
    exact (List.singleton_sublist.mpr h).append (List.singleton_sublist.mpr List.mem_cons_self)

theorem Reflects.settles_resolve (names : ((front ++ fingerprint :: back).map (·.name)).Nodup)
    (h : Reflects pool (front ++ fingerprint :: back) front store) :
    Settles pool (front ++ fingerprint :: back) fingerprint (store.resolve fingerprint pool).1 := by
  cases hparent : fingerprint.parent with
  | none =>
      rw [store.resolve_of_root pool hparent, resolveScoped_fst]
      exact .root hparent
  | some name =>
      cases hget : store.get? name with
      | some resolution =>
          obtain ⟨parent, hmem, rfl, settles⟩ := (h.get?_iff name resolution).mp hget
          rw [resolve_of_found pool hparent hget, resolveScoped_fst]
          exact .within hparent (List.mem_append_left _ hmem)
            ((precedes_iff_mem names _).mpr (List.mem_map_of_mem hmem)) settles
      | none =>
          rw [resolve_of_lost pool hparent hget]
          by_cases hfront : name ∈ front.map (·.name)
          · obtain ⟨parent, hmem, rfl⟩ := List.mem_map.mp hfront
            obtain ⟨outcome, settles⟩ := h.settled parent hmem
            cases outcome with
            | error e =>
                exact .lost hparent (List.mem_append_left _ hmem)
                  ((precedes_iff_mem names _).mpr hfront) settles
            | ok resolution =>
                have hsome := (h.get?_iff _ resolution).mpr ⟨parent, hmem, rfl, settles⟩
                cases hget.symm.trans hsome
          · exact .early hparent fun hprecedes => hfront ((precedes_iff_mem names _).mp hprecedes)

theorem Reflects.resolve (names : ((front ++ fingerprint :: back).map (·.name)).Nodup)
    (h : Reflects pool (front ++ fingerprint :: back) front store) :
    Reflects pool (front ++ fingerprint :: back) (front ++ [fingerprint])
      (store.resolve fingerprint pool).2 := by
  have hsettles := h.settles_resolve names
  have hnew : ∀ earlier ∈ front, earlier.name ≠ fingerprint.name := by
    intro earlier hmem
    rw [List.map_append, List.map_cons, List.nodup_append] at names
    exact names.2.2 _ (List.mem_map_of_mem hmem) _ List.mem_cons_self
  have hnone : store.get? fingerprint.name = none := by
    rw [Option.eq_none_iff_forall_ne_some]
    intro resolution hget
    obtain ⟨earlier, hmem, hname, -⟩ := (h.get?_iff _ resolution).mp hget
    exact hnew earlier hmem hname
  refine ⟨resolve_ordered h.ordered fingerprint pool, fun other hmem => ?_, fun name resolution => ?_⟩
  · rcases List.mem_append.mp hmem with hmem | hmem
    · exact h.settled other hmem
    · rw [List.mem_singleton.mp hmem]
      exact ⟨_, hsettles⟩
  · rw [get?_resolve_of_new hnone]
    split
    · -- only the fingerprint itself has the name
      rename_i hname
      subst hname
      constructor
      · intro hfound
        refine ⟨fingerprint, List.mem_append_right _ (List.mem_singleton_self _), rfl, ?_⟩
        rw [← Outcome.of_toOption hfound]
        exact hsettles
      · rintro ⟨other, hmem, hother, settles⟩
        rcases List.mem_append.mp hmem with hmem | hmem
        · exact absurd hother (hnew other hmem)
        · cases List.mem_singleton.mp hmem
          rw [hsettles.unique names settles]
          rfl
    · rename_i hname
      rw [h.get?_iff]
      constructor
      · rintro ⟨other, hmem, hother⟩
        exact ⟨other, List.mem_append_left _ hmem, hother⟩
      · rintro ⟨other, hmem, hother, settles⟩
        rcases List.mem_append.mp hmem with hmem | hmem
        · exact ⟨other, hmem, hother, settles⟩
        · cases List.mem_singleton.mp hmem
          exact absurd hother.symm hname

/-! ## All searches -/

/-- The requests to search all fingerprints, one after the other. -/
def searches (pool : ClassPool) (fingerprints : List Fingerprint) : List Request :=
  fingerprints.map (.resolve · pool)

theorem reflects_empty (pool : ClassPool) (fingerprints : List Fingerprint) :
    Reflects pool ([] ++ fingerprints) [] empty where
  ordered := NameMap.empty_ordered
  settled _ h := absurd h List.not_mem_nil
  get?_iff name resolution := by
    constructor
    · intro h
      cases h
    · rintro ⟨_, h, -⟩
      exact absurd h List.not_mem_nil

/-- If the first fingerprints have had their turn, the others get what comes of them. -/
theorem Reflects.searches {f : Fingerprint → Except Error Resolution}
    (h : Reflects pool (front ++ rest) front store)
    (names : ((front ++ rest).map (·.name)).Nodup)
    (hf : ∀ fingerprint ∈ rest, ∀ outcome, Settles pool (front ++ rest) fingerprint outcome →
      outcome = f fingerprint) :
    (store.serveAll (searches pool rest)).1 =
        rest.map (fun fingerprint => .searched fingerprint.name (f fingerprint)) ∧
      Reflects pool (front ++ rest) (front ++ rest) (store.serveAll (searches pool rest)).2 := by
  induction rest generalizing front store with
  | nil =>
      rw [List.append_nil] at h ⊢
      exact ⟨rfl, h⟩
  | cons fingerprint rest ih =>
      have houtcome : (store.resolve fingerprint pool).1 = f fingerprint :=
        hf fingerprint List.mem_cons_self _ (h.settles_resolve names)
      have hnext := h.resolve names
      rw [List.append_cons] at names hf hnext ⊢
      obtain ⟨hevents, hlast⟩ :=
        ih hnext names fun other hmem => hf other (List.mem_cons_of_mem _ hmem)
      refine ⟨?_, hlast⟩
      rw [List.map_cons, ← hevents, ← houtcome]
      rfl

/-- Two stores that have what was found of the same fingerprints are the same. -/
theorem Reflects.eq_of_reorder {store' : ResolutionStore} (perm : fingerprints.Perm others)
    (agrees : Agrees fingerprints others) (h : Reflects pool fingerprints fingerprints store)
    (h' : Reflects pool others others store') : store = store' := by
  have hget (name : String) : store.get? name = store'.get? name := by
    refine Option.ext fun resolution => ?_
    rw [h.get?_iff, h'.get?_iff]
    constructor
    · rintro ⟨fingerprint, hmem, hname, settles⟩
      exact ⟨fingerprint, perm.mem_iff.mp hmem, hname, settles.reorder perm agrees hmem⟩
    · rintro ⟨fingerprint, hmem, hname, settles⟩
      exact ⟨fingerprint, perm.mem_iff.mpr hmem, hname,
        settles.reorder perm.symm (agrees.symm perm) hmem⟩
  cases store
  cases store'
  exact congrArg ResolutionStore.mk (h.ordered.ext h'.ordered hget)

/-- Fingerprints of different names that are searched in two orders, between which no parent and child
of the list change sides, have the same outcomes and leave the same store.  What the outcomes are is
said by the list alone. -/
theorem serveAll_searches_reorder (pool : ClassPool) (perm : fingerprints.Perm others)
    (names : (fingerprints.map (·.name)).Nodup) (agrees : Agrees fingerprints others) :
    ∃ (outcome : Fingerprint → Except Error Resolution) (store : ResolutionStore),
      (∀ fingerprint ∈ fingerprints, Settles pool fingerprints fingerprint (outcome fingerprint)) ∧
      empty.serveAll (searches pool fingerprints) = (fingerprints.map fun fingerprint =>
        .searched fingerprint.name (outcome fingerprint), store) ∧
      empty.serveAll (searches pool others) = (others.map fun fingerprint =>
        .searched fingerprint.name (outcome fingerprint), store) := by
  classical
  let f (fingerprint : Fingerprint) : Except Error Resolution :=
    if h : ∃ outcome, Settles pool fingerprints fingerprint outcome then h.choose
    else .error (.resolutionFailed fingerprint.name)
  have hf (fingerprint : Fingerprint) (outcome : Except Error Resolution)
      (settles : Settles pool fingerprints fingerprint outcome) : outcome = f fingerprint := by
    have h : ∃ outcome, Settles pool fingerprints fingerprint outcome := ⟨outcome, settles⟩
    rw [show f fingerprint = h.choose from dif_pos h]
    exact settles.unique names h.choose_spec
  have names' : (others.map (·.name)).Nodup := (perm.map _).nodup_iff.mp names
  obtain ⟨hevents, hlast⟩ := (reflects_empty pool fingerprints).searches names fun fingerprint _ =>
    hf fingerprint
  obtain ⟨hevents', hlast'⟩ := (reflects_empty pool others).searches names' fun fingerprint hmem _ h =>
    hf fingerprint _ (h.reorder perm.symm (agrees.symm perm) hmem)
  refine ⟨f, (empty.serveAll (searches pool fingerprints)).2, fun fingerprint hmem => ?_,
    Prod.ext hevents rfl, Prod.ext hevents' (hlast.eq_of_reorder perm agrees hlast').symm⟩
  obtain ⟨outcome, settles⟩ := hlast.settled fingerprint hmem
  rw [← hf fingerprint outcome settles]
  exact settles

/-- A child that stands in front of its parent in both orders, one that stands behind it in both, and
a fingerprint that is not found. -/
theorem serveAll_searches_reorder_family :
    let pool : ClassPool := ⟨[⟨"La;", none, .empty, none,
      [⟨"La;", "b", [], "V", .empty, 0, [{ opcode := .returnVoid }]⟩]⟩]⟩
    let parent : Fingerprint := { name := "Parent" }
    let early : Fingerprint := { name := "Early", parent := some "Parent" }
    let late : Fingerprint := { name := "Late", parent := some "Parent" }
    let missing : Fingerprint := { name := "Missing", returnType := some "Z" }
    let given := [early, missing, parent, late]
    let moved := [early, parent, late, missing]
    given.Perm moved ∧ (given.map (·.name)).Nodup ∧ Agrees given moved ∧
      ∃ store, (empty.serveAll (searches pool given)).2 = store ∧
        (empty.serveAll (searches pool moved)).2 = store ∧
        store.get? "Early" = none ∧ store.get? "Late" = some ⟨"Late", ⟨0, 0⟩, ⟨none, []⟩⟩ := by
  intro pool parent early late missing given moved
  have perm : given.Perm moved := by
    refine .cons _ ?_
    exact (List.Perm.swap ..).trans (.cons _ (.swap ..))
  have names : (given.map (·.name)).Nodup := by decide +kernel
  have agrees : Agrees given moved := by decide +kernel
  obtain ⟨outcome, store, -, hgiven, hmoved⟩ := serveAll_searches_reorder pool perm names agrees
  have hstore : (empty.serveAll (searches pool given)).2 = store := congrArg Prod.snd hgiven
  refine ⟨perm, names, agrees, store, hstore, congrArg Prod.snd hmoved, ?_⟩
  rw [← hstore]
  decide +kernel

end DexGraft.ResolutionStore
