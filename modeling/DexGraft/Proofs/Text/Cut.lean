import DexGraft.Text.Cut

/-!
# Cuts

Each way of splitting a text gives back all of it but the marks, and where the marks stood is what
the split is named for: at the first place, at the last one, at every one.
-/

universe u

namespace DexGraft.Text

variable {α : Type u} {p : α → Bool}

/-! ## Cuts in two -/

theorem of_cut? {cs a b : List α} (h : cut? p cs = some (a, b)) :
    ∃ c, p c = true ∧ cs = a ++ c :: b ∧ ∀ x ∈ a, p x = false := by
  induction cs generalizing a with
  | nil => simp [cut?] at h
  | cons d cs ih =>
      rw [cut?] at h
      split at h
      · rename_i hd
        cases h
        exact ⟨d, hd, rfl, nofun⟩
      · rename_i hd
        obtain ⟨⟨a', b'⟩, h, heq⟩ := Option.map_eq_some_iff.mp h
        cases heq
        obtain ⟨c, hc, rfl, hall⟩ := ih h
        exact ⟨c, hc, rfl, List.forall_mem_cons.mpr ⟨by simpa using hd, hall⟩⟩

theorem cut?_append {a b : List α} {c : α} (h : ∀ x ∈ a, p x = false) (hc : p c = true) :
    cut? p (a ++ c :: b) = some (a, b) := by
  induction a with
  | nil => simp [cut?, hc]
  | cons d a ih =>
      rw [List.forall_mem_cons] at h
      simp [cut?, h.1, ih h.2]

/-- More text behind a cut does not move it. -/
theorem cut?_append_right {cs a b : List α} (h : cut? p cs = some (a, b)) (more : List α) :
    cut? p (cs ++ more) = some (a, b ++ more) := by
  obtain ⟨c, hc, rfl, hall⟩ := of_cut? h
  rw [List.append_assoc]
  exact cut?_append hall hc

theorem cutLast?_eq_none_iff {cs : List α} : cutLast? p cs = none ↔ ∀ x ∈ cs, p x = false := by
  induction cs with
  | nil => exact iff_of_true rfl nofun
  | cons c cs ih =>
      rw [cutLast?, List.forall_mem_cons, ← ih]
      cases cutLast? p cs <;> simp

theorem of_cutLast? {cs a b : List α} (h : cutLast? p cs = some (a, b)) :
    ∃ c, p c = true ∧ cs = a ++ c :: b ∧ ∀ x ∈ b, p x = false := by
  induction cs generalizing a with
  | nil => cases h
  | cons d cs ih =>
      rw [cutLast?] at h
      split at h
      · rename_i a' b' hsome
        cases h
        obtain ⟨c, hc, rfl, hall⟩ := ih hsome
        exact ⟨c, hc, rfl, hall⟩
      · rename_i hnone
        split at h
        · rename_i hd
          cases h
          exact ⟨d, hd, rfl, cutLast?_eq_none_iff.mp hnone⟩
        · cases h

theorem cutLast?_append {a b : List α} {c : α} (hc : p c = true) (h : ∀ x ∈ b, p x = false) :
    cutLast? p (a ++ c :: b) = some (a, b) := by
  induction a with
  | nil =>
      rw [List.nil_append, cutLast?, cutLast?_eq_none_iff.mpr h]
      exact if_pos hc
  | cons d a ih => rw [List.cons_append, cutLast?, ih]

theorem eq_append_of_cutOn? {mark cs a b : List Char} (h : cutOn? mark cs = some (a, b)) :
    cs = a ++ mark ++ b := by
  induction cs generalizing a with
  | nil =>
      simp only [cutOn?] at h
      split at h <;> simp_all
  | cons c cs ih =>
      rw [cutOn?] at h
      split at h
      · rename_i hp
        cases h
        obtain ⟨rest, hrest⟩ := List.isPrefixOf_iff_prefix.mp hp
        simp [← hrest]
      · obtain ⟨⟨a', b'⟩, h, heq⟩ := Option.map_eq_some_iff.mp h
        cases heq
        simp [ih h]

/-- More text behind a mark does not move the first place where it stands. -/
theorem cutOn?_append_right {mark cs a b : List Char} (h : cutOn? mark cs = some (a, b))
    (more : List Char) : cutOn? mark (cs ++ more) = some (a, b ++ more) := by
  induction cs generalizing a with
  | nil =>
      simp only [cutOn?] at h
      split at h
      · rename_i hmark
        cases h
        rw [List.isEmpty_iff] at hmark
        subst hmark
        cases more <;> simp [cutOn?]
      · cases h
  | cons c cs ih =>
      rw [cutOn?] at h
      split at h
      · rename_i hprefix
        cases h
        obtain ⟨rest, hrest⟩ := List.isPrefixOf_iff_prefix.mp hprefix
        rw [← hrest, List.drop_left, List.append_assoc]
        cases mark with
        | nil => cases rest ++ more <;> simp [cutOn?]
        | cons m mark => simp [cutOn?]
      · rename_i hprefix
        obtain ⟨⟨a', b'⟩, h, heq⟩ := Option.map_eq_some_iff.mp h
        cases heq
        have hlength : mark.length ≤ (c :: cs).length := by
          rw [eq_append_of_cutOn? h]
          simp only [List.length_cons, List.length_append]
          omega
        have hnot : ¬ mark.isPrefixOf (c :: (cs ++ more)) := by
          intro hmark
          have hmark := List.isPrefixOf_iff_prefix.mp hmark
          have hcs : c :: cs <+: c :: (cs ++ more) := List.prefix_append (c :: cs) more
          exact hprefix (List.isPrefixOf_iff_prefix.mpr
            (List.prefix_of_prefix_length_le hmark hcs hlength))
        rw [List.cons_append, cutOn?, if_neg hnot, ih h]
        rfl

/-- A mark is not found in a text without its first character. -/
theorem cutOn?_eq_none {m : Char} {mark cs : List Char} (h : m ∉ cs) :
    cutOn? (m :: mark) cs = none := by
  induction cs with
  | nil => rfl
  | cons c cs ih =>
      rw [List.mem_cons, not_or] at h
      simp [cutOn?, List.isPrefixOf, h.1, ih h.2]

/-- A mark is found behind a text without its first character. -/
theorem cutOn?_append {m : Char} {mark a : List Char} (b : List Char) (h : m ∉ a) :
    cutOn? (m :: mark) (a ++ (m :: mark) ++ b) = some (a, b) := by
  induction a with
  | nil => simp [cutOn?]
  | cons c a ih =>
      rw [List.mem_cons, not_or] at h
      have := ih h.2
      simp only [List.append_assoc, List.cons_append] at this
      simp [cutOn?, List.isPrefixOf, h.1, this]

/-- A mark that stands in a text is found there, or in front. -/
theorem exists_cutOn?_append (mark a : List Char) :
    ∃ a' b, cutOn? mark (a ++ mark) = some (a', b) := by
  induction a with
  | nil =>
      cases mark with
      | nil => exact ⟨[], [], rfl⟩
      | cons m mark => exact ⟨[], [], by simp [cutOn?]⟩
  | cons c a ih =>
      obtain ⟨a', b, h⟩ := ih
      rw [List.cons_append, cutOn?]
      split
      · exact ⟨_, _, rfl⟩
      · exact ⟨c :: a', b, by rw [h, Option.map_some]⟩

/-- A mark does not stand in front of the place where it is found. -/
theorem not_infix_of_cutOn? {mark cs a b : List Char} (hne : mark ≠ [])
    (h : cutOn? mark cs = some (a, b)) : ¬ mark <:+: a := by
  induction cs generalizing a with
  | nil =>
      rw [cutOn?, if_neg fun hempty => hne (List.isEmpty_iff.mp hempty)] at h
      cases h
  | cons c cs ih =>
      rw [cutOn?] at h
      split at h
      · cases h
        exact fun hinfix => hne (List.eq_nil_of_infix_nil hinfix)
      · rename_i hprefix
        obtain ⟨⟨a', b'⟩, h, heq⟩ := Option.map_eq_some_iff.mp h
        cases heq
        rw [List.infix_cons_iff]
        rintro (hstart | hinfix)
        · have hcs : c :: a' <+: c :: cs := by
            rw [eq_append_of_cutOn? h, List.append_assoc]
            exact List.prefix_append (c :: a') _
          exact hprefix (List.isPrefixOf_iff_prefix.mpr (hstart.trans hcs))
        · exact ih h hinfix

/-- A mark that is not found does not stand anywhere. -/
theorem not_infix_of_cutOn?_eq_none {mark cs : List Char} (hne : mark ≠ [])
    (h : cutOn? mark cs = none) : ¬ mark <:+: cs := by
  induction cs with
  | nil => exact fun hinfix => hne (List.eq_nil_of_infix_nil hinfix)
  | cons c cs ih =>
      rw [cutOn?] at h
      split at h
      · cases h
      · rename_i hprefix
        rw [List.infix_cons_iff]
        rintro (hstart | hinfix)
        · exact hprefix (List.isPrefixOf_iff_prefix.mpr hstart)
        · exact ih (Option.map_eq_none_iff.mp h) hinfix

/-- A mark of two different characters is found behind a text in which it does not stand, since it
cannot begin in the text and end behind it. -/
theorem cutOn?_append_of_not_infix {m n : Char} {a : List Char} (hne : m ≠ n)
    (h : ¬ [m, n] <:+: a) (b : List Char) : cutOn? [m, n] (a ++ [m, n] ++ b) = some (a, b) := by
  induction a with
  | nil => simp [cutOn?]
  | cons c a ih =>
      rw [List.infix_cons_iff, not_or] at h
      have hnot : ¬ [m, n].isPrefixOf (c :: (a ++ [m, n] ++ b)) := by
        rw [List.isPrefixOf_iff_prefix, List.cons_prefix_cons]
        rintro ⟨rfl, hstart⟩
        cases a with
        | nil => exact hne (List.cons_prefix_cons.mp hstart).1.symm
        | cons d a =>
            obtain rfl := (List.cons_prefix_cons.mp hstart).1
            exact h.1 (List.prefix_append [m, n] a)
      rw [List.cons_append, List.cons_append, cutOn?, if_neg hnot, ih h.2]
      rfl

/-! ## Parts -/

theorem parts_append {a : List α} {c : α} (b : List α) (h : ∀ x ∈ a, p x = false)
    (hc : p c = true) : parts p (a ++ c :: b) = a :: parts p b := by
  induction a with
  | nil => simp [parts, hc]
  | cons d a ih =>
      rw [List.forall_mem_cons] at h
      simp [parts, h.1, ih h.2]

theorem parts_ne_nil (a : List α) : parts p a ≠ [] := by
  cases a with
  | nil => nofun
  | cons d a =>
      rw [parts]
      split
      · nofun
      · split <;> nofun

/-- The parts in front of a mark, and those behind it. -/
theorem parts_append_cons (a b : List α) {c : α} (hc : p c = true) :
    parts p (a ++ c :: b) = parts p a ++ parts p b := by
  induction a with
  | nil =>
      show parts p (c :: b) = [] :: parts p b
      rw [parts, if_pos hc]
  | cons d a ih =>
      rw [List.cons_append, parts, parts, ih]
      split
      · rfl
      · obtain ⟨part, rest, hparts⟩ := List.exists_cons_of_ne_nil (parts_ne_nil (p := p) a)
        rw [hparts]
        rfl

theorem parts_eq_singleton {a : List α} (h : ∀ x ∈ a, p x = false) : parts p a = [a] := by
  induction a with
  | nil => rfl
  | cons d a ih =>
      rw [List.forall_mem_cons] at h
      simp [parts, h.1, ih h.2]

theorem toList_join (sep : String) (l : List String) :
    (join sep l).toList = sep.toList.intercalate (l.map String.toList) := by
  fun_induction join sep l with
  | case1 => rfl
  | case2 s => simp
  | case3 s t rest ih =>
      rw [String.toList_append, String.toList_append, ih]
      simp [List.intercalate_cons_cons]

theorem toList_join_empty (l : List String) :
    (join "" l).toList = (l.map String.toList).flatten := by
  rw [toList_join]
  induction l with
  | nil => rfl
  | cons s l ih =>
      cases l with
      | nil => simp
      | cons t l => simp_all [List.intercalate_cons_cons]

/-- Behind the first text, each text stands behind a separator. -/
theorem intercalate_cons (sep a : List α) (back : List (List α)) :
    sep.intercalate (a :: back) = a ++ back.flatMap (sep ++ ·) := by
  induction back generalizing a with
  | nil => simp
  | cons b back ih =>
      rw [List.intercalate_cons_cons, ih b, List.flatMap_cons, List.append_assoc,
        List.append_assoc]

theorem intercalate_append (sep : List α) {front : List (List α)} (back : List (List α))
    (h : front ≠ []) :
    sep.intercalate (front ++ back) = sep.intercalate front ++ back.flatMap (sep ++ ·) := by
  cases front with
  | nil => exact absurd rfl h
  | cons a front =>
      rw [List.cons_append, intercalate_cons, intercalate_cons, List.flatMap_append,
        List.append_assoc]

/-! ## Lines -/

theorem linesFrom_cons {c : Char} (line cs : List Char) (h : c ≠ '\n') :
    linesFrom line (c :: cs) = linesFrom (c :: line) cs := by
  simp [linesFrom, h]

/-- A line feed ends the line, which has at most a carriage return more. -/
theorem linesFrom_lineFeed (line cs : List Char) :
    (linesFrom line ('\n' :: cs) = line.reverse :: linesFrom [] cs ∧ line.head? ≠ some '\r') ∨
      ∃ rest, line = '\r' :: rest ∧
        linesFrom line ('\n' :: cs) = rest.reverse :: linesFrom [] cs := by
  rcases line with - | ⟨c, rest⟩
  · exact .inl ⟨rfl, nofun⟩
  · by_cases hc : c = '\r'
    · subst hc
      exact .inr ⟨rest, rfl, rfl⟩
    · exact .inl ⟨by simp [linesFrom, hc], by simpa using hc⟩

theorem linesFrom_append {a : List Char} (line b : List Char) (h : '\n' ∉ a) :
    linesFrom line (a ++ b) = linesFrom (a.reverse ++ line) b := by
  induction a generalizing line with
  | nil => rfl
  | cons c a ih =>
      rw [List.mem_cons, not_or] at h
      rw [List.cons_append, linesFrom_cons _ _ (Ne.symm h.1), ih (c :: line) h.2]
      simp

/-- A text without a line feed is one line. -/
theorem lines_eq_singleton {a : List Char} (h : '\n' ∉ a) (hne : a ≠ []) : lines a = [a] := by
  have := linesFrom_append [] [] h
  simp only [List.append_nil] at this
  simp [lines, this, linesFrom, hne]

/-- A text up to a line feed is a line, unless a carriage return stands in front of it. -/
theorem lines_append {a : List Char} (b : List Char) (h : '\n' ∉ a)
    (hlast : a.getLast? ≠ some '\r') : lines (a ++ '\n' :: b) = a :: lines b := by
  rw [lines, linesFrom_append [] _ h, List.append_nil]
  rcases linesFrom_lineFeed a.reverse b with ⟨heq, -⟩ | ⟨rest, heq, -⟩
  · rw [heq, List.reverse_reverse, lines]
  · rw [← List.head?_reverse, heq] at hlast
    exact absurd rfl hlast

/-- The lines in front of a line feed, and those behind it. -/
theorem linesFrom_append_lineFeed (line a b : List Char) :
    linesFrom line (a ++ '\n' :: b) = linesFrom line (a ++ ['\n']) ++ lines b := by
  induction a generalizing line with
  | nil => rfl
  | cons c a ih =>
      by_cases hc : c = '\n'
      · subst hc
        simp only [List.cons_append, linesFrom, ih]
        rfl
      · rw [List.cons_append, List.cons_append, linesFrom_cons _ _ hc, linesFrom_cons _ _ hc, ih]

/-- A line feed behind a text ends the last line, which may lose a carriage return, or ends an empty
line more. -/
theorem exists_linesFrom_append_singleton (line a : List Char) :
    ∃ front last, linesFrom line (a ++ ['\n']) = front ++ [last] ∧
      (linesFrom line a = front ∧ last = [] ∨ linesFrom line a = front ++ [last] ∨
        linesFrom line a = front ++ [last ++ ['\r']]) := by
  induction a generalizing line with
  | nil =>
      rcases linesFrom_lineFeed line [] with ⟨heq, -⟩ | ⟨rest, rfl, heq⟩
      · refine ⟨[], line.reverse, heq, ?_⟩
        cases line with
        | nil => exact .inl ⟨rfl, rfl⟩
        | cons c line => exact .inr (.inl rfl)
      · refine ⟨[], rest.reverse, heq, .inr (.inr ?_)⟩
        simp [linesFrom]
  | cons c a ih =>
      by_cases hc : c = '\n'
      · subst hc
        obtain ⟨front, last, heq, hopen⟩ := ih []
        obtain ⟨ended, hended⟩ : ∃ ended, ∀ cs, linesFrom line ('\n' :: cs) =
            ended :: linesFrom [] cs := ⟨_, fun cs => rfl⟩
        refine ⟨ended :: front, last, ?_, ?_⟩
        · rw [List.cons_append, hended, heq, List.cons_append]
        · simpa only [hended, List.cons_append, List.cons_inj_right] using hopen
      · rw [List.cons_append, linesFrom_cons _ _ hc, linesFrom_cons _ _ hc]
        exact ih (c :: line)

/-- What stands in front of a text stands in front of its first line. -/
theorem exists_linesFrom_append {front : List Char} (hfront : front ≠ [])
    (hlast : front.getLast? ≠ some '\r') (begun cs : List Char) :
    ∃ line rest, line <+: begun ++ cs ∧
      linesFrom (begun.reverse ++ front.reverse) cs = (front ++ line) :: rest := by
  induction cs generalizing begun with
  | nil =>
      refine ⟨begun, [], List.prefix_append _ _, ?_⟩
      simp [linesFrom, hfront]
  | cons c cs ih =>
      by_cases hc : c = '\n'
      · subst hc
        rcases linesFrom_lineFeed (begun.reverse ++ front.reverse) cs with
          ⟨heq, -⟩ | ⟨rest, hreturn, heq⟩
        · refine ⟨begun, linesFrom [] cs, List.prefix_append _ _, ?_⟩
          rw [heq, List.reverse_append, List.reverse_reverse, List.reverse_reverse]
        · rcases List.eq_nil_or_concat begun with rfl | ⟨begun', c, rfl⟩
          · rw [List.reverse_nil, List.nil_append] at hreturn
            rw [← List.head?_reverse, hreturn] at hlast
            exact absurd rfl hlast
          · -- the carriage return belongs to the end of the line
            rw [List.concat_eq_append, List.reverse_append, List.reverse_singleton,
              List.singleton_append, List.cons_append, List.cons.injEq] at hreturn
            refine ⟨begun', linesFrom [] cs, ?_, ?_⟩
            · rw [List.concat_eq_append, List.append_assoc]
              exact List.prefix_append _ _
            · rw [heq, ← hreturn.2, List.reverse_append, List.reverse_reverse, List.reverse_reverse]
      · have hnext := ih (begun ++ [c])
        rw [List.append_assoc, List.singleton_append] at hnext
        rw [linesFrom_cons _ _ hc]
        simpa using hnext

theorem exists_lines_append {front : List Char} (hfront : front ≠ [])
    (hlast : front.getLast? ≠ some '\r') (hline : '\n' ∉ front) (cs : List Char) :
    ∃ line rest, line <+: cs ∧ lines (front ++ cs) = (front ++ line) :: rest := by
  obtain ⟨line, rest, hprefix, heq⟩ := exists_linesFrom_append hfront hlast [] cs
  refine ⟨line, rest, hprefix, ?_⟩
  rwa [lines, linesFrom_append [] cs hline, List.append_nil]

theorem not_mem_of_mem_linesFrom {line begun cs : List Char} (hbegun : '\n' ∉ begun)
    (h : line ∈ linesFrom begun cs) : '\n' ∉ line := by
  induction cs generalizing begun with
  | nil =>
      simp only [linesFrom] at h
      split at h <;> simp_all
  | cons c cs ih =>
      by_cases hc : c = '\n'
      · subst hc
        rcases linesFrom_lineFeed begun cs with ⟨heq, -⟩ | ⟨rest, rfl, heq⟩
        · rw [heq, List.mem_cons] at h
          rcases h with rfl | h
          · simpa using hbegun
          · exact ih List.not_mem_nil h
        · rw [heq, List.mem_cons] at h
          rcases h with rfl | h
          · simp_all
          · exact ih List.not_mem_nil h
      · rw [linesFrom_cons _ _ hc] at h
        refine ih ?_ h
        simp [hbegun, Ne.symm hc]

theorem not_mem_of_mem_lines {line cs : List Char} (h : line ∈ lines cs) : '\n' ∉ line :=
  not_mem_of_mem_linesFrom List.not_mem_nil h

end DexGraft.Text
