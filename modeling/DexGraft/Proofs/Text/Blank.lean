import DexGraft.Text.Blank
import Mathlib.Data.List.DropRight

/-!
# Trimming

What `trim` takes away is blank, and what it leaves has no blank at either end.
-/

namespace DexGraft.Text

/-- Every character is blank. -/
def Blanks (cs : List Char) : Prop := ∀ c ∈ cs, isBlank c

theorem blanks_of_all {cs : List Char} (h : cs.all isBlank) : Blanks cs := List.all_eq_true.mp h

theorem trimBack_eq (cs : List Char) : trimBack cs = cs.rdropWhile isBlank := rfl

/-- Blanks behind a text are trimmed away. -/
theorem trimBack_append (cs : List Char) {back : List Char} (h : Blanks back) :
    trimBack (cs ++ back) = trimBack cs := by
  have hback : ∀ c ∈ back.reverse, isBlank c := fun c hc => h c (List.mem_reverse.mp hc)
  rw [trimBack, List.reverse_append, List.dropWhile_append_of_pos hback, trimBack]

/-- Blanks around a text are trimmed away. -/
theorem trim_surround {front back : List Char} (cs : List Char) (hfront : Blanks front)
    (hback : Blanks back) : trim (front ++ cs ++ back) = trim cs := by
  rw [trim, trimFront, List.append_assoc, List.dropWhile_append_of_pos hfront,
    List.dropWhile_append]
  split
  · rename_i h
    rw [List.isEmpty_iff] at h
    rw [trim, trimFront, h, List.dropWhile_eq_nil_iff.mpr hback]
  · exact trimBack_append _ hback

/-- Blanks in front of a text are trimmed away. -/
theorem trim_blanks_append {front : List Char} (cs : List Char) (h : Blanks front) :
    trim (front ++ cs) = trim cs := by
  have hnil : Blanks [] := nofun
  simpa using trim_surround cs h hnil

theorem trim_append_blanks {back : List Char} (cs : List Char) (h : Blanks back) :
    trim (cs ++ back) = trim cs := by
  have hnil : Blanks [] := nofun
  simpa using trim_surround cs hnil h

/-- A text is its trimmed form between blanks. -/
theorem exists_eq_trim (cs : List Char) :
    ∃ front back, Blanks front ∧ Blanks back ∧ cs = front ++ trim cs ++ back := by
  refine ⟨cs.takeWhile isBlank, (trimFront cs).rtakeWhile isBlank,
    fun c => List.mem_takeWhile_imp, fun c => List.mem_rtakeWhile_imp, ?_⟩
  rw [List.append_assoc, trim, trimBack_eq, List.rdropWhile_append_rtakeWhile, trimFront,
    List.takeWhile_append_dropWhile]

theorem mem_of_mem_trim {cs : List Char} {c : Char} (h : c ∈ trim cs) : c ∈ cs := by
  obtain ⟨front, back, -, -, heq⟩ := exists_eq_trim cs
  rw [heq]
  simp [h]

theorem trim_eq_self_iff {cs : List Char} :
    trim cs = cs ↔ (∀ c ∈ cs.head?, isBlank c = false) ∧ ∀ c ∈ cs.getLast?, isBlank c = false := by
  constructor
  · intro h
    have hback : trimBack cs = cs := by
      calc trimBack cs = trimBack (trim cs) := by rw [h]
        _ = trim cs := List.rdropWhile_idempotent _ (trimFront cs)
        _ = cs := h
    have hfront : trimFront cs = cs := by
      refine (List.dropWhile_sublist _).eq_of_length_le ?_
      calc cs.length = (trim cs).length := by rw [h]
        _ ≤ (trimFront cs).length := (List.rdropWhile_prefix _ (trimFront cs)).length_le
    refine ⟨?_, ?_⟩
    · intro c hc
      have := List.head?_dropWhile_not isBlank cs
      rw [← trimFront, hfront, Option.mem_def.mp hc] at this
      exact this
    · intro c hc
      obtain ⟨hne, rfl⟩ := List.mem_getLast?_eq_getLast hc
      simpa using List.rdropWhile_eq_self_iff.mp hback hne
  · rintro ⟨hhead, hlast⟩
    have hfront : trimFront cs = cs := by
      cases cs with
      | nil => rfl
      | cons c cs => simp [trimFront, hhead c rfl]
    rw [trim, hfront]
    refine List.rdropWhile_eq_self_iff.mpr fun hne => ?_
    simp [hlast _ (List.getLast?_eq_some_getLast hne)]

@[simp] theorem trim_trim (cs : List Char) : trim (trim cs) = trim cs := by
  obtain ⟨front, back, hfront, hback, h⟩ := exists_eq_trim cs
  rw [← trim_surround (trim cs) hfront hback, ← h]

/-- Nothing is trimmed from the back up to a character that is not blank. -/
theorem trimBack_append_left (a b : List Char) {c : Char} (hc : isBlank c = false) :
    trimBack (a ++ c :: b) = a ++ c :: trimBack b := by
  have hsplit : a ++ c :: b = a ++ [c] ++ b := by simp
  have hhead : (a ++ [c]).reverse.dropWhile isBlank = (a ++ [c]).reverse := by
    rw [List.reverse_append, List.reverse_singleton, List.singleton_append, List.dropWhile_cons, hc]
    rfl
  rw [trimBack, hsplit, List.reverse_append, List.dropWhile_append]
  split
  · rename_i hempty
    rw [List.isEmpty_iff] at hempty
    rw [hhead, trimBack, hempty]
    simp
  · rw [trimBack]
    simp

/-- A text that begins without a blank is trimmed only behind a character that is not blank. -/
theorem trim_cons_append (a b : List Char) {c d : Char} (hd : isBlank d = false)
    (hc : isBlank c = false) : trim (d :: (a ++ c :: b)) = d :: (a ++ c :: trimBack b) := by
  have hfront : trimFront (d :: (a ++ c :: b)) = d :: a ++ c :: b := by
    rw [trimFront, List.dropWhile_cons, hd]
    rfl
  rw [trim, hfront, trimBack_append_left (d :: a) b hc, List.cons_append]

/-- Only the front is trimmed if what stands behind it begins and ends with characters that are not
blank. -/
theorem trim_append {cs : List Char} (a : List Char) (hne : cs ≠ [])
    (hhead : ∀ c ∈ cs.head?, isBlank c = false) (hlast : ∀ c ∈ cs.getLast?, isBlank c = false) :
    trim (a ++ cs) = trimFront a ++ cs := by
  have hsplit : a ++ cs = a.takeWhile isBlank ++ (trimFront a ++ cs) := by
    rw [← List.append_assoc, trimFront, List.takeWhile_append_dropWhile]
  have hblanks : Blanks (a.takeWhile isBlank) := fun c => List.mem_takeWhile_imp
  rw [hsplit, trim_blanks_append _ hblanks, trim_eq_self_iff]
  constructor
  · intro c hc
    cases hfront : trimFront a with
    | nil =>
        rw [hfront] at hc
        exact hhead c hc
    | cons d rest =>
        rw [hfront] at hc
        cases hc
        have := List.head?_dropWhile_not isBlank a
        rw [← trimFront, hfront] at this
        simpa using this
  · rwa [List.getLast?_append_of_ne_nil _ hne]
theorem trimBack_trimBack (cs : List Char) : trimBack (trimBack cs) = trimBack cs :=
  List.rdropWhile_idempotent isBlank cs

/-- What a text begins with, trimmed, is still what it begins with, if it has nothing to trim. -/
theorem trim_isPrefix {a cs : List Char} (h : a <+: cs) (htrim : trim cs = cs) : trim a <+: cs := by
  have hfront : trimFront a = a := by
    cases a with
    | nil => rfl
    | cons c a =>
        obtain ⟨rest, rfl⟩ := h
        have := (trim_eq_self_iff.mp htrim).1 c rfl
        rw [trimFront, List.dropWhile_cons, this]
        rfl
  rw [trim, hfront]
  exact (List.rdropWhile_prefix isBlank a).trans h

/-- What a text begins with, trimmed, is what the trimmed text begins with. -/
theorem trim_isPrefix_trim {a cs : List Char} (h : a <+: cs) : trim a <+: trim cs := by
  obtain ⟨front, back, hfront, hback, heq⟩ := exists_eq_trim cs
  obtain ⟨rest, hrest⟩ := h
  rw [heq, List.append_assoc] at hrest
  rcases List.append_eq_append_iff.mp hrest with ⟨c, rfl, -⟩ | ⟨c, rfl, hc⟩
  · have ha : Blanks a := fun d hd => hfront d (List.mem_append_left c hd)
    have hnil : trim a = [] := by
      rw [← List.append_nil a, trim_blanks_append [] ha]
      rfl
    rw [hnil]
    exact List.nil_prefix
  · rw [trim_blanks_append c hfront]
    rcases List.append_eq_append_iff.mp hc with ⟨d, rfl, hd⟩ | ⟨d, hd, -⟩
    · have hblanks : Blanks d := fun e he => hback e (hd ▸ List.mem_append_left rest he)
      exact ⟨[], by rw [List.append_nil, trim_append_blanks _ hblanks, trim_trim]⟩
    · refine trim_isPrefix ?_ (trim_trim cs)
      rw [hd]
      exact List.prefix_append c d

/-- A text that does not end with a blank is trimmed to less when it is cut short. -/
theorem eq_of_isPrefix_of_trim_eq {a cs : List Char} (h : a <+: cs)
    (hlast : ∀ c ∈ cs.getLast?, isBlank c = false) (htrim : trim a = trim cs) : a = cs := by
  obtain ⟨rest, rfl⟩ := h
  obtain ⟨front, back, hfront, hback, heq⟩ := exists_eq_trim a
  rcases List.eq_nil_or_concat rest with rfl | ⟨rest, c, rfl⟩
  · exact (List.append_nil a).symm
  have hc : isBlank c = false := hlast c (by simp)
  exfalso
  rw [List.concat_eq_append] at htrim
  cases htrimmed : trim a with
  | nil =>
      obtain ⟨front', back', hfront', hback', heq'⟩ := exists_eq_trim (a ++ (rest ++ [c]))
      rw [← htrim, htrimmed, List.append_nil] at heq'
      have hmem : c ∈ front' ++ back' := by
        rw [← heq']
        simp
      have hblank : isBlank c := (List.mem_append.mp hmem).elim (hfront' c) (hback' c)
      rw [hc] at hblank
      cases hblank
  | cons d cs =>
      have hd : isBlank d = false := by
        refine (trim_eq_self_iff.mp (trim_trim a)).1 d ?_
        rw [htrimmed]
        rfl
      have hlong : trim (a ++ (rest ++ [c])) = d :: (cs ++ (back ++ rest) ++ [c]) := by
        have hsplit : a ++ (rest ++ [c]) = front ++ (d :: (cs ++ (back ++ rest) ++ c :: [])) := by
          rw [heq, htrimmed]
          simp
        rw [hsplit, trim_blanks_append _ hfront, trim_cons_append _ [] hd hc]
        rfl
      rw [← htrim, htrimmed] at hlong
      have hlength := congrArg List.length hlong
      simp only [List.length_cons, List.length_append] at hlength
      omega

@[simp] theorem trim_trimBack (cs : List Char) : trim (trimBack cs) = trim cs := by
  obtain ⟨back, hback, heq⟩ : ∃ back, Blanks back ∧ cs = trimBack cs ++ back :=
    ⟨cs.rtakeWhile isBlank, fun c => List.mem_rtakeWhile_imp,
      List.rdropWhile_append_rtakeWhile.symm⟩
  conv_rhs => rw [heq, trim_append_blanks _ hback]

/-- A text without blanks has nothing to trim. -/
theorem trim_eq_self_of_forall {cs : List Char} (h : ∀ c ∈ cs, isBlank c = false) :
    trim cs = cs :=
  trim_eq_self_iff.mpr
    ⟨fun c hc => h c (List.mem_of_head? hc), fun c hc => h c (List.mem_of_getLast? hc)⟩

end DexGraft.Text
