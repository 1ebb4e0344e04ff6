import DexGraft.Editing
import DexGraft.Proofs.Outcome

/-!
# Edits that leave nothing behind

An edit that fails leaves behind what it has changed by then.  For an edit that checks everything
first this is nothing: what it *comes to* is a new state and an answer, or an error with the state as
it was.
-/

namespace DexGraft.Editing

open Outcome

variable {σ τ α β : Type}

/-! ## Steps -/

theorem run_bind (x : Editing σ α) (f : α → Editing σ β) (state : σ) :
    (x >>= f).run.run state = match x.run.run state with
      | (.ok a, middle) => (f a).run.run middle
      | (.error e, last) => (.error e, last) := by
  rw [ExceptT.run_bind, StateT.run_bind]
  rcases x.run.run state with ⟨_ | _, _⟩ <;> rfl

theorem run_map (f : α → β) (x : Editing σ α) (state : σ) :
    (f <$> x).run.run state = ((x.run.run state).1.map f, (x.run.run state).2) := by
  refine (run_bind x (pure ∘ f) state).trans ?_
  rcases x.run.run state with ⟨_ | _, _⟩ <;> rfl

theorem run_tryCatch (x : Editing σ α) (f : Error → Editing σ α) (state : σ) :
    (tryCatch x f).run.run state = match x.run.run state with
      | (.ok a, last) => (.ok a, last)
      | (.error e, middle) => (f e).run.run middle := by
  rw [ExceptT.run_tryCatch, StateT.run_bind]
  rcases x.run.run state with ⟨_ | _, _⟩ <;> rfl

theorem run_get_bind (f : σ → Editing σ α) (state : σ) :
    (get >>= f).run.run state = (f state).run.run state :=
  run_bind _ _ _

/-- Looking something up changes nothing. -/
theorem run_look (f : σ → Except Error α) (state : σ) :
    (look f).run.run state = (f state, state) := by
  rw [look, run_get_bind]
  cases f state <;> rfl

theorem run_zoom {part : σ → Except Error τ} {put : τ → σ → σ} {edit : Editing τ α} {state : σ}
    {t : τ} (h : part state = .ok t) : (zoom part put edit).run.run state =
      ((edit.run.run t).1, put (edit.run.run t).2 state) := by
  rw [zoom, run_bind, run_look, h]
  exact (run_bind ..).trans (run_look ..)

theorem run_zoom_of_error {part : σ → Except Error τ} {put : τ → σ → σ} {edit : Editing τ α}
    {state : σ} {e : Error} (h : part state = .error e) :
    (zoom part put edit).run.run state = (.error e, state) := by
  rw [zoom, run_bind, run_look, h]

/-! ## Steps that succeed -/

theorem run_bind_eq_ok_iff {x : Editing σ α} {f : α → Editing σ β} {b : β} {state last : σ} :
    (x >>= f).run.run state = (.ok b, last) ↔
      ∃ a middle, x.run.run state = (.ok a, middle) ∧ (f a).run.run middle = (.ok b, last) := by
  rw [run_bind]
  rcases x.run.run state with ⟨e | a, middle⟩
  · constructor
    · nofun
    · rintro ⟨a, middle', ⟨⟩, -⟩
  · constructor
    · exact fun h => ⟨a, middle, rfl, h⟩
    · rintro ⟨a', middle', ⟨⟩, h⟩
      exact h

theorem run_map_eq_ok_iff {f : α → β} {x : Editing σ α} {b : β} {state last : σ} :
    (f <$> x).run.run state = (.ok b, last) ↔ ∃ a, x.run.run state = (.ok a, last) ∧ f a = b := by
  rw [run_map, Prod.mk.injEq, map_eq_ok_iff]
  constructor
  · rintro ⟨⟨a, ha, hb⟩, hlast⟩
    exact ⟨a, Prod.ext ha hlast, hb⟩
  · rintro ⟨a, ha, hb⟩
    rw [ha]
    exact ⟨⟨a, rfl, hb⟩, rfl⟩

theorem run_look_eq_ok_iff {f : σ → Except Error α} {a : α} {state last : σ} :
    (look f).run.run state = (.ok a, last) ↔ f state = .ok a ∧ state = last := by
  rw [run_look, Prod.mk.injEq]

theorem run_zoom_eq_ok_iff {part : σ → Except Error τ} {put : τ → σ → σ} {edit : Editing τ α}
    {a : α} {state last : σ} : (zoom part put edit).run.run state = (.ok a, last) ↔
      ∃ old new, part state = .ok old ∧ edit.run.run old = (.ok a, new) ∧
        last = put new state := by
  cases hpart : part state with
  | error e =>
      rw [run_zoom_of_error hpart]
      constructor
      · nofun
      · rintro ⟨_, _, ⟨⟩, -⟩
  | ok old =>
      rw [run_zoom hpart]
      constructor
      · rintro h
        obtain ⟨hanswer, rfl⟩ := Prod.mk.injEq .. ▸ h
        exact ⟨old, _, rfl, Prod.ext hanswer rfl, rfl⟩
      · rintro ⟨_, new, ⟨⟩, hedit, rfl⟩
        rw [hedit]

theorem granted_eq_ok_iff {edit : Editing σ α} {a : α} {state next : σ} :
    edit.granted state = .ok (a, next) ↔ edit.run.run state = (.ok a, next) := by
  rw [granted]
  rcases edit.run.run state with ⟨e | b, last⟩
  · exact iff_of_false nofun nofun
  · constructor <;> rintro ⟨⟩ <;> rfl

theorem result_eq_ok_iff {edit : Editing σ Unit} {state next : σ} :
    edit.result state = .ok next ↔ edit.run.run state = (.ok (), next) := by
  rw [result, map_eq_ok_iff]
  constructor
  · rintro ⟨⟨⟨⟩, _⟩, h, rfl⟩
    exact granted_eq_ok_iff.mp h
  · exact fun h => ⟨_, granted_eq_ok_iff.mpr h, rfl⟩

/-! ## What an edit comes to -/

/-- The edit gives an answer and makes a new state, or it fails and leaves the state as it was. -/
def ComesTo (edit : Editing σ α) (state : σ) (outcome : Except Error (α × σ)) : Prop :=
  edit.run.run state = match outcome with
    | .ok (a, next) => (.ok a, next)
    | .error e => (.error e, state)

variable {edit : Editing σ α} {state : σ} {outcome : Except Error (α × σ)}

theorem ComesTo.granted_eq (h : edit.ComesTo state outcome) : edit.granted state = outcome := by
  rw [granted, h]
  rcases outcome with _ | ⟨_, _⟩ <;> rfl

theorem ComesTo.result_eq {edit : Editing σ Unit} {made : Except Error σ}
    (h : edit.ComesTo state (made.map ((), ·))) : edit.result state = made := by
  rw [result, h.granted_eq]
  cases made <;> rfl

theorem ComesTo.made {edit : Editing σ Unit} {made : Except Error σ}
    (h : edit.ComesTo state (made.map ((), ·))) :
    edit.ComesTo state ((edit.result state).map ((), ·)) := by
  rwa [h.result_eq]

theorem comesTo_throw (e : Error) : (throw e : Editing σ α).ComesTo state (.error e) := rfl

theorem comesTo_pure (a : α) : (pure a : Editing σ α).ComesTo state (.ok (a, state)) := rfl

theorem comesTo_modify (change : σ → σ) :
    (modify change : Editing σ PUnit).ComesTo state (.ok ((), change state)) := rfl

theorem ComesTo.map (f : α → β) (h : edit.ComesTo state outcome) :
    (f <$> edit).ComesTo state (outcome.map fun (a, next) => (f a, next)) := by
  refine (run_map f edit state).trans ?_
  rw [h]
  rcases outcome with _ | ⟨_, _⟩ <;> rfl

theorem ComesTo.get_bind {next : σ → Editing σ α} (h : (next state).ComesTo state outcome) :
    (get >>= next).ComesTo state outcome :=
  (run_get_bind next state).trans h

/-- What is looked up first cannot leave anything behind. -/
theorem ComesTo.look_bind {part : σ → Except Error β} {next : β → Editing σ α}
    {f : β → Except Error (α × σ)} (h : ∀ b, part state = .ok b → (next b).ComesTo state (f b)) :
    (look part >>= next).ComesTo state (part state >>= f) := by
  refine (run_bind ..).trans ?_
  rw [run_look]
  cases hpart : part state with
  | error e => rfl
  | ok b => exact h b hpart

/-! ## Edits that leave nothing behind -/

/-- Wherever the edit fails, the state is what it was. -/
def Atomic (edit : Editing σ α) : Prop :=
  ∀ state e left, edit.run.run state = (.error e, left) → left = state

theorem atomic_of_comesTo {f : σ → Except Error (α × σ)} (h : ∀ state, edit.ComesTo state (f state)) :
    edit.Atomic := by
  intro state e left hfails
  rw [h state] at hfails
  rcases hmade : f state with _ | ⟨_, _⟩ <;> rw [hmade] at hfails
  · exact (congrArg Prod.snd hfails).symm
  · cases congrArg Prod.fst hfails

theorem Atomic.comesTo (h : edit.Atomic) (state : σ) : edit.ComesTo state (edit.granted state) := by
  rw [granted]
  rcases hrun : edit.run.run state with ⟨e | a, left⟩
  · obtain rfl := h _ _ _ hrun
    exact hrun
  · exact hrun

theorem Atomic.map (f : α → β) (h : edit.Atomic) : (f <$> edit).Atomic :=
  atomic_of_comesTo fun state => (h.comesTo state).map f

/-- Where an edit of a part fails, what is put back is what was there. -/
theorem Atomic.zoom {part : σ → Except Error τ} {put : τ → σ → σ} {edit : Editing τ α}
    (h : edit.Atomic) (hput : ∀ t, part state = .ok t → put t state = state) :
    (Editing.zoom part put edit).ComesTo state
      (part state >>= fun t => (edit.granted t).map fun (a, next) => (a, put next state)) := by
  cases hpart : part state with
  | error e => exact run_zoom_of_error hpart
  | ok t =>
      refine (run_zoom hpart).trans ?_
      rw [h.comesTo t, ok_bind]
      rcases edit.granted t with _ | ⟨a, next⟩
      · exact congrArg (_, ·) (hput t hpart)
      · rfl

end DexGraft.Editing
