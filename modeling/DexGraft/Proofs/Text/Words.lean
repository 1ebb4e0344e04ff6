import DexGraft.Proofs.Text.Blank

/-!
# Words

The words of a text are what stands between its blanks.  `Spaced` says this without a word about how
they are found, and the main statement is that `words` gives the words of every text.  Words that are
put together with blanks between them are read back.
-/

namespace DexGraft.Text

/-- The characters make up a word: there are some, and none of them is blank. -/
structure Solid (word : List Char) : Prop where
  ne_nil : word ≠ []
  not_blank : ∀ c ∈ word, isBlank c = false

/-- The text consists of the words, in order, and blanks.  A word goes on up to a blank or to the end
of the text. -/
inductive Spaced : List Char → List (List Char) → Prop
  | blanks {cs : List Char} (blank : Blanks cs) : Spaced cs []
  | word {front word rest : List Char} {others : List (List Char)} (blank : Blanks front)
      (solid : Solid word) (ends : ∀ c ∈ rest.head?, isBlank c) (behind : Spaced rest others) :
      Spaced (front ++ word ++ rest) (word :: others)

variable {cs front word rest sep : List Char} {ws : List (List Char)}

theorem blanks_append {a b : List Char} (ha : Blanks a) (hb : Blanks b) : Blanks (a ++ b) :=
  fun c hc => (List.mem_append.mp hc).elim (ha c) (hb c)

namespace Spaced

theorem solid (h : Spaced cs ws) : ∀ word ∈ ws, Solid word := by
  induction h with
  | blanks _ => nofun
  | word _ solid _ _ ih => exact List.forall_mem_cons.mpr ⟨solid, ih⟩

/-- Blanks in front of a text are not part of a word. -/
theorem blanks_append (hfront : Blanks front) (h : Spaced cs ws) : Spaced (front ++ cs) ws := by
  cases h with
  | blanks blank => exact .blanks (Text.blanks_append hfront blank)
  | word blank solid ends behind =>
      rw [← List.append_assoc, ← List.append_assoc]
      exact .word (Text.blanks_append hfront blank) solid ends behind

theorem nil : Spaced [] [] := .blanks nofun

/-- A word at the beginning of a text. -/
theorem cons {others : List (List Char)} (solid : Solid word) (ends : ∀ c ∈ rest.head?, isBlank c)
    (behind : Spaced rest others) : Spaced (word ++ rest) (word :: others) := by
  have hnil : Blanks [] := nofun
  exact .word hnil solid ends behind

/-- Words between which there are blanks. -/
theorem intercalate (hne : sep ≠ []) (hsep : Blanks sep) (hws : ∀ word ∈ ws, Solid word) :
    Spaced (sep.intercalate ws) ws := by
  induction ws with
  | nil => exact nil
  | cons word ws ih =>
      obtain ⟨hword, hws⟩ := List.forall_mem_cons.mp hws
      cases ws with
      | nil =>
          have h : Spaced (word ++ []) [word] := cons hword nofun nil
          rw [List.intercalate_singleton]
          rwa [List.append_nil] at h
      | cons next ws =>
          rw [List.intercalate_cons_cons, List.append_assoc]
          refine cons hword (fun c hc => ?_) ((ih hws).blanks_append hsep)
          rw [List.head?_append_of_ne_nil _ hne] at hc
          exact hsep c (List.mem_of_head? hc)

end Spaced

/-! ## Reading -/

theorem wordsFrom_blanks_append (hfront : Blanks front) :
    wordsFrom [] (front ++ cs) = wordsFrom [] cs := by
  induction front with
  | nil => rfl
  | cons c front ih =>
      obtain ⟨hc, hfront⟩ := List.forall_mem_cons.mp hfront
      rw [List.cons_append, wordsFrom, if_pos hc, List.isEmpty_nil, if_pos rfl]
      exact ih hfront

/-- Characters that are not blank go on with the word. -/
theorem wordsFrom_append (hword : ∀ c ∈ word, isBlank c = false) (front : List Char) :
    wordsFrom front (word ++ rest) = wordsFrom (word.reverse ++ front) rest := by
  induction word generalizing front with
  | nil => rfl
  | cons c word ih =>
      obtain ⟨hc, hword⟩ := List.forall_mem_cons.mp hword
      rw [List.cons_append, wordsFrom, hc, if_neg Bool.false_ne_true, ih hword,
        List.reverse_cons, List.append_assoc, List.singleton_append]

/-- A word ends in front of a blank, and at the end of the text. -/
theorem wordsFrom_of_ends (hne : word ≠ []) (hends : ∀ c ∈ rest.head?, isBlank c) :
    wordsFrom word rest = word.reverse :: wordsFrom [] rest := by
  have hempty : ¬ word.isEmpty := fun h => hne (List.isEmpty_iff.mp h)
  cases rest with
  | nil => rw [wordsFrom, if_neg hempty, wordsFrom, List.isEmpty_nil, if_pos rfl]
  | cons c rest =>
      have hc : isBlank c := hends c rfl
      rw [wordsFrom, if_pos hc, if_neg hempty, wordsFrom, if_pos hc, List.isEmpty_nil, if_pos rfl]

theorem Spaced.words_eq (h : Spaced cs ws) : words cs = ws := by
  induction h with
  | @blanks cs blank =>
      rw [words, ← List.append_nil cs, wordsFrom_blanks_append blank]
      rfl
  | @word front word rest others blank solid ends _ ih =>
      rw [words, List.append_assoc, wordsFrom_blanks_append blank, wordsFrom_append solid.not_blank,
        List.append_nil, wordsFrom_of_ends (mt List.reverse_eq_nil_iff.mp solid.ne_nil) ends,
        List.reverse_reverse, ← words, ih]

theorem solid_reverse {read : List Char} (hread : ∀ c ∈ read, isBlank c = false)
    (hempty : ¬ read.isEmpty) : Solid read.reverse :=
  ⟨mt List.reverse_eq_nil_iff.mp (mt List.isEmpty_iff.mpr hempty),
    fun c hc => hread c (List.mem_reverse.mp hc)⟩

/-- What is found of a text of which a word has been read, last character first, that may go on. -/
theorem spaced_wordsFrom (cs : List Char) {read : List Char}
    (hread : ∀ c ∈ read, isBlank c = false) : Spaced (read.reverse ++ cs) (wordsFrom read cs) := by
  induction cs generalizing read with
  | nil =>
      rw [wordsFrom]
      split
      · rename_i hempty
        rw [List.isEmpty_iff.mp hempty]
        exact .nil
      · rename_i hempty
        exact .cons (solid_reverse hread hempty) nofun .nil
  | cons c cs ih =>
      rw [wordsFrom]
      split
      · rename_i hc
        have hblank : Blanks [c] := List.forall_mem_singleton.mpr hc
        have hbehind : Spaced cs (wordsFrom [] cs) := ih (List.forall_mem_nil _)
        have hrest : Spaced (c :: cs) (wordsFrom [] cs) := hbehind.blanks_append hblank
        split
        · rename_i hempty
          rw [List.isEmpty_iff.mp hempty]
          exact hrest
        · rename_i hempty
          refine .cons (solid_reverse hread hempty) ?_ hrest
          rintro _ ⟨⟩
          exact hc
      · rename_i hc
        have hlonger : ∀ d ∈ c :: read, isBlank d = false :=
          List.forall_mem_cons.mpr ⟨Bool.eq_false_iff.mpr hc, hread⟩
        have h := ih hlonger
        rwa [List.reverse_cons, List.append_assoc] at h

/-- The words of every text are found. -/
theorem words_eq_iff : words cs = ws ↔ Spaced cs ws := by
  refine ⟨?_, Spaced.words_eq⟩
  rintro rfl
  exact spaced_wordsFrom cs (List.forall_mem_nil _)

end DexGraft.Text
