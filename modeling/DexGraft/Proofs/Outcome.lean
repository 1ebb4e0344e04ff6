import Mathlib.Data.List.Forall2

/-!
# Computations that succeed or fail

What it takes for a composed computation to succeed: that its parts do.  And what its failures are
like: like those of its parts.
-/

universe u v w

namespace DexGraft.Outcome

variable {ε : Type u} {α : Type v} {β : Type v}

theorem map_eq_ok_iff {f : α → β} {x : Except ε α} {b : β} :
    x.map f = .ok b ↔ ∃ a, x = .ok a ∧ f a = b := by
  cases x <;> simp [Except.map]

theorem bind_eq_ok_iff {x : Except ε α} {f : α → Except ε β} {b : β} :
    x >>= f = .ok b ↔ ∃ a, x = .ok a ∧ f a = .ok b := by
  cases x <;> simp [bind, Except.bind]

@[simp] theorem ok_bind (a : α) (f : α → Except ε β) : (Except.ok a >>= f) = f a := rfl

theorem map_bind {γ : Type v} (x : Except ε α) (f : α → Except ε β) (g : β → γ) :
    (x >>= f).map g = x >>= fun a => (f a).map g := by
  cases x <;> rfl

theorem of_toOption {x : Except ε α} {a : α} (h : x.toOption = some a) : x = .ok a := by
  cases x with
  | error e => cases h
  | ok b => exact congrArg Except.ok (Option.some.inj h)

/-! ## Lists of items -/

/-- Reading each item succeeds exactly if every item is read, and gives what they are read as. -/
theorem mapM_eq_ok_iff {f : α → Except ε β} {l : List α} {l' : List β} :
    l.mapM f = .ok l' ↔ List.Forall₂ (fun a b => f a = .ok b) l l' := by
  induction l generalizing l' with
  | nil =>
      rw [List.mapM_nil, List.forall₂_nil_left_iff]
      constructor
      · rintro ⟨⟩
        rfl
      · rintro rfl
        rfl
  | cons a l ih =>
      rw [List.mapM_cons, List.forall₂_cons_left_iff, bind_eq_ok_iff]
      constructor
      · rintro ⟨b, hb, h⟩
        obtain ⟨bs, hbs, h⟩ := bind_eq_ok_iff.mp h
        cases h
        exact ⟨b, bs, hb, ih.mp hbs, rfl⟩
      · rintro ⟨b, bs, hb, hbs, rfl⟩
        rw [ih.mpr hbs]
        exact ⟨b, hb, rfl⟩

/-- Reading each item succeeds if every item does. -/
theorem mapM_eq_ok {f : α → Except ε β} {g : α → β} {l : List α} (h : ∀ a ∈ l, f a = .ok (g a)) :
    l.mapM f = .ok (l.map g) :=
  mapM_eq_ok_iff.mpr (List.forall₂_map_right_iff.mpr (List.forall₂_same.mpr h))

theorem length_of_mapM {f : α → Except ε β} {l : List α} {l' : List β}
    (h : l.mapM f = .ok l') : l'.length = l.length :=
  (mapM_eq_ok_iff.mp h).length_eq.symm

/-- Each result is the one of some item. -/
theorem exists_of_forall₂ {α β : Type} {R : α → β → Prop} {l : List α} {l' : List β}
    (h : List.Forall₂ R l l') {b : β} (hmem : b ∈ l') : ∃ a ∈ l, R a b := by
  induction h with
  | nil => cases hmem
  | cons head _ ih =>
      rcases List.mem_cons.mp hmem with rfl | hmem
      · exact ⟨_, List.mem_cons_self, head⟩
      · obtain ⟨a, ha, hread⟩ := ih hmem
        exact ⟨a, List.mem_cons_of_mem _ ha, hread⟩

/-- Items have results if each of them has one. -/
theorem exists_forall₂_iff {α β : Type} {R : α → β → Prop} {l : List α} :
    (∃ l', List.Forall₂ R l l') ↔ ∀ a ∈ l, ∃ b, R a b := by
  induction l with
  | nil => exact iff_of_true ⟨[], .nil⟩ (List.forall_mem_nil _)
  | cons a l ih =>
      rw [List.forall_mem_cons, ← ih]
      constructor
      · rintro ⟨_, h⟩
        obtain ⟨b, l', hb, hl', -⟩ := List.forall₂_cons_left_iff.mp h
        exact ⟨⟨b, hb⟩, l', hl'⟩
      · rintro ⟨⟨b, hb⟩, l', hl'⟩
        exact ⟨b :: l', .cons hb hl'⟩

theorem exists_of_forall₂_append {α β : Type} {R : α → β → Prop} {front back : List α}
    {l : List β} (h : List.Forall₂ R (front ++ back) l) :
    ∃ l₁ l₂, l = l₁ ++ l₂ ∧ List.Forall₂ R front l₁ ∧ List.Forall₂ R back l₂ := by
  have htake := List.forall₂_take front.length h
  have hdrop := List.forall₂_drop front.length h
  rw [List.take_left] at htake
  rw [List.drop_left] at hdrop
  exact ⟨_, _, (List.take_append_drop front.length l).symm, htake, hdrop⟩

/-! ## Steps one after the other -/

/-- Steps that succeed come to the same as others that succeed with the same. -/
theorem foldlM_eq_ok_of_forall {f g : β → α → Except ε β} {l : List α} {b b' : β}
    (hstep : ∀ a ∈ l, ∀ b b', f b a = .ok b' → g b a = .ok b') (h : l.foldlM f b = .ok b') :
    l.foldlM g b = .ok b' := by
  induction l generalizing b with
  | nil => exact h
  | cons a l ih =>
      rw [List.forall_mem_cons] at hstep
      rw [List.foldlM_cons] at h ⊢
      obtain ⟨next, hnext, h⟩ := bind_eq_ok_iff.mp h
      exact bind_eq_ok_iff.mpr ⟨next, hstep.1 b next hnext, ih hstep.2 h⟩

/-- Steps none of which changes anything come to nothing. -/
theorem foldlM_eq_ok_self {f : β → α → Except ε β} {l : List α} {b : β}
    (h : ∀ a ∈ l, f b a = .ok b) : l.foldlM f b = .ok b := by
  induction l with
  | nil => rfl
  | cons a l ih =>
      rw [List.forall_mem_cons] at h
      rw [List.foldlM_cons, h.1]
      exact ih h.2

/-! ## Computations that end alike -/

/-- Both fail, and alike, or both succeed with results that go together. -/
inductive Alike {σ τ : Type w} (R : σ → τ → Prop) : Except ε σ → Except ε τ → Prop
  | ok {s : σ} {t : τ} (h : R s t) : Alike R (.ok s) (.ok t)
  | error (e : ε) : Alike R (.error e) (.error e)

namespace Alike

variable {σ τ σ' τ' : Type w} {R : σ → τ → Prop} {R' : σ' → τ' → Prop}

theorem bind {x : Except ε σ} {y : Except ε τ} {f : σ → Except ε σ'} {g : τ → Except ε τ'}
    (h : Alike R x y) (hnext : ∀ s t, R s t → Alike R' (f s) (g t)) :
    Alike R' (x >>= f) (y >>= g) := by
  cases h with
  | ok h => exact hnext _ _ h
  | error e => exact .error e

/-- What succeeds on one side is only looked at in another way. -/
theorem view {x : Except ε σ} {y : Except ε τ} {f : σ → σ'} {R' : σ' → τ → Prop}
    (h : Alike R x y) (hview : ∀ s t, R s t → R' (f s) t) :
    Alike R' (x >>= fun s => .ok (f s)) y := by
  cases h with
  | ok h => exact .ok (hview _ _ h)
  | error e => exact .error e

/-- Steps that keep two states together end alike. -/
theorem foldlM {f : σ → α → Except ε σ} {g : τ → α → Except ε τ} {l : List α}
    (hstep : ∀ a ∈ l, ∀ s t, R s t → Alike R (f s a) (g t a)) {s : σ} {t : τ} (h : R s t) :
    Alike R (l.foldlM f s) (l.foldlM g t) := by
  induction l generalizing s t with
  | nil => exact .ok h
  | cons a l ih =>
      rw [List.forall_mem_cons] at hstep
      rw [List.foldlM_cons, List.foldlM_cons]
      exact (hstep.1 s t h).bind fun _ _ => ih hstep.2

theorem eq {x y : Except ε σ} (h : Alike (· = ·) x y) : x = y := by
  cases h with
  | ok h => rw [h]
  | error e => rfl

end Alike

/-! ## Failures -/

/-- Whatever the computation fails with satisfies `P`. -/
def FailsWith (P : ε → Prop) (x : Except ε α) : Prop := ∀ e, x = .error e → P e

namespace FailsWith

variable {P : ε → Prop} {x : Except ε α}

theorem ok (a : α) : FailsWith P (.ok a : Except ε α) := nofun

theorem error {e : ε} (h : P e) : FailsWith P (.error e : Except ε α) := by
  rintro _ ⟨⟩
  exact h

theorem map (f : α → β) (h : FailsWith P x) : FailsWith P (x.map f) := by
  cases x with
  | error e => exact .error (h e rfl)
  | ok a => exact .ok (f a)

theorem bind {f : α → Except ε β} (h : FailsWith P x) (hf : ∀ a, x = .ok a → FailsWith P (f a)) :
    FailsWith P (x >>= f) := by
  cases x with
  | error e => exact .error (h e rfl)
  | ok a => exact hf a rfl

theorem mapM {f : α → Except ε β} (hf : ∀ a, FailsWith P (f a)) (l : List α) :
    FailsWith P (l.mapM f) := by
  induction l with
  | nil => exact .ok []
  | cons a l ih =>
      rw [List.mapM_cons]
      exact (hf a).bind fun b _ => ih.bind fun bs _ => .ok (b :: bs)

end FailsWith

end DexGraft.Outcome
