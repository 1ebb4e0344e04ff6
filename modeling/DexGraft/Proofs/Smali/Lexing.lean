import DexGraft.Proofs.Outcome
import DexGraft.Proofs.Text.Blank
import DexGraft.Proofs.Text.Cut
import DexGraft.Smali.Line

/-!
# Operands and lines

Comments are cut off a line and operands are split at commas by two scans that keep track of strings
in the same way.  `Nesting.pass?` follows both through a text that neither of them interrupts; an
*operand* is such a text with nothing to trim.  The main statements are that operands written one
behind the other, with commas between them, are split into the same operands, and that whatever
operands a line is split into are of that sort.
-/

namespace DexGraft.Smali

open Text Outcome

/-! ## Scanning a text -/

namespace Nesting

/-- What encloses the character behind a text, if no operand and no line ends within the text. -/
def pass? (nesting : Nesting) : List Char → Option Nesting
  | [] => some nesting
  | c :: cs =>
    if (c = ',' ∧ nesting.isOpen) ∨ (c = '#' ∧ nesting.quoting = .outside) then none
    else match nesting.next c with
      | .ok next => next.pass? cs
      | .error _ => none

@[simp] theorem pass?_nil (nesting : Nesting) : nesting.pass? [] = some nesting := rfl

theorem pass?_append (nesting : Nesting) (a b : List Char) :
    nesting.pass? (a ++ b) = (nesting.pass? a).bind fun next => next.pass? b := by
  induction a generalizing nesting with
  | nil => rfl
  | cons c a ih =>
      rw [List.cons_append, pass?, pass?]
      split
      · rfl
      · split
        · exact ih _
        · rfl

/-- The first character of a text that is passed, and what encloses the second. -/
theorem of_pass?_cons {nesting last : Nesting} {c : Char} {cs : List Char}
    (h : nesting.pass? (c :: cs) = some last) :
    ¬ (c = ',' ∧ nesting.isOpen) ∧ ¬ (c = '#' ∧ nesting.quoting = .outside) ∧
      ∃ next, nesting.next c = .ok next ∧ next.pass? cs = some last := by
  rw [pass?] at h
  split at h
  · cases h
  · rename_i hnot
    rw [not_or] at hnot
    split at h
    · rename_i next hnext
      exact ⟨hnot.1, hnot.2, next, hnext, h⟩
    · cases h

/-- Both scans agree on the strings. -/
theorem quoting_of_next {nesting next : Nesting} {c : Char} (h : nesting.next c = .ok next) :
    next.quoting = nesting.quoting.next c := by
  simp only [Nesting.next] at h
  repeat' split at h
  all_goals cases h <;> rfl

theorem isOpen_iff {nesting : Nesting} : nesting.isOpen ↔ nesting = {} := by
  cases nesting
  simp [isOpen, and_assoc]

theorem isClosed_iff {nesting : Nesting} :
    nesting.isClosed ↔ nesting.quoting = .outside ∧ nesting.braces = 0 := by
  simp [isClosed]

end Nesting

/-! ## Characters without a meaning -/

/-- The character means nothing outside of strings. -/
def IsPlain (c : Char) : Prop := c ∉ ['"', '#', ',', '\x7b', '\x7d', '(', ')']

instance : DecidablePred IsPlain := fun c => inferInstanceAs (Decidable (c ∉ _))

theorem isPlain_of_isBlank {c : Char} (h : isBlank c) : IsPlain c := by
  intro hmem
  simp only [List.mem_cons, List.not_mem_nil, or_false] at hmem
  rcases hmem with rfl | rfl | rfl | rfl | rfl | rfl | rfl <;> revert h <;> decide

theorem Nesting.next_of_isPlain {nesting : Nesting} {c : Char} (hc : IsPlain c)
    (h : nesting.quoting = .outside) : nesting.next c = .ok nesting := by
  simp only [IsPlain, List.mem_cons, List.not_mem_nil, or_false, not_or] at hc
  cases nesting
  subst h
  simp [Nesting.next, Quoting.next, hc]

theorem Nesting.pass?_of_forall_isPlain {nesting : Nesting} {cs : List Char}
    (h : nesting.quoting = .outside) (hcs : ∀ c ∈ cs, IsPlain c) :
    nesting.pass? cs = some nesting := by
  induction cs with
  | nil => rfl
  | cons c cs ih =>
      rw [List.forall_mem_cons] at hcs
      have hc := hcs.1
      simp only [IsPlain, List.mem_cons, List.not_mem_nil, or_false, not_or] at hc
      simp [Nesting.pass?, hc, Nesting.next_of_isPlain hcs.1 h, ih hcs.2]

/-- Blanks that lead out of strings have been outside of them. -/
theorem Nesting.eq_of_pass?_blanks {nesting last : Nesting} {cs : List Char} (hcs : Blanks cs)
    (h : nesting.pass? cs = some last) (hlast : last.quoting = .outside) : nesting = last := by
  induction cs generalizing nesting with
  | nil => simpa using h
  | cons c cs ih =>
      have hc := isPlain_of_isBlank (hcs c List.mem_cons_self)
      obtain ⟨-, -, next, hnext, h⟩ := of_pass?_cons h
      have := ih (fun d hd => hcs d (List.mem_cons_of_mem _ hd)) h
      subst this
      have hquoting := quoting_of_next hnext
      cases hq : nesting.quoting with
      | outside =>
          rw [next_of_isPlain hc hq] at hnext
          cases hnext
          rfl
      | inside =>
          simp only [IsPlain, List.mem_cons, List.not_mem_nil, or_false, not_or] at hc
          rw [hlast, hq, Quoting.next] at hquoting
          split at hquoting <;> simp_all
      | escaped =>
          rw [hlast, hq] at hquoting
          cases hquoting

theorem Nesting.pass?_trim {last : Nesting} {cs : List Char}
    (h : Nesting.pass? {} cs = some last) (hlast : last.quoting = .outside) :
    Nesting.pass? {} (trim cs) = some last := by
  obtain ⟨front, back, hfront, hback, heq⟩ := exists_eq_trim cs
  rw [heq, pass?_append, pass?_append,
    pass?_of_forall_isPlain rfl fun c hc => isPlain_of_isBlank (hfront c hc),
    Option.bind_some, Option.bind_eq_some_iff] at h
  obtain ⟨next, hnext, h⟩ := h
  rw [hnext, eq_of_pass?_blanks hback h hlast]

/-! ## Comments -/

theorem stripComment_append {nesting last : Nesting} {a : List Char}
    (h : nesting.pass? a = some last) (b : List Char) :
    stripComment nesting.quoting (a ++ b) = a ++ stripComment last.quoting b := by
  induction a generalizing nesting with
  | nil =>
      cases h
      rfl
  | cons c a ih =>
      obtain ⟨-, hc, next, hnext, h⟩ := Nesting.of_pass?_cons h
      rw [List.cons_append, stripComment, if_neg (fun h => hc ⟨h.2, h.1⟩),
        ← Nesting.quoting_of_next hnext, ih h, List.cons_append]

/-- A text that is passed has no comment. -/
theorem stripComment_eq_self {nesting last : Nesting} {a : List Char}
    (h : nesting.pass? a = some last) : stripComment nesting.quoting a = a := by
  simpa [stripComment] using stripComment_append h []

theorem stripComment_idem (quoting : Quoting) (cs : List Char) :
    stripComment quoting (stripComment quoting cs) = stripComment quoting cs := by
  induction cs generalizing quoting with
  | nil => rfl
  | cons c cs ih =>
      by_cases h : quoting = .outside ∧ c = '#'
      · simp [stripComment, h]
      · simp only [stripComment, if_neg h, ih]

/-- A line without a comment has none behind any text that keeps to itself. -/
theorem stripComment_of_append {quoting : Quoting} {a b : List Char}
    (h : stripComment quoting (a ++ b) = a ++ b) :
    stripComment (a.foldl Quoting.next quoting) b = b := by
  induction a generalizing quoting with
  | nil => exact h
  | cons c a ih =>
      rw [List.cons_append, stripComment] at h
      split at h
      · cases h
      · exact ih (List.cons_inj_right c |>.mp h)

theorem stripComment_of_append_left {quoting : Quoting} {a b : List Char}
    (h : stripComment quoting (a ++ b) = a ++ b) : stripComment quoting a = a := by
  induction a generalizing quoting with
  | nil => rfl
  | cons c a ih =>
      rw [List.cons_append, stripComment] at h
      split at h
      · cases h
      · rename_i hc
        rw [stripComment, if_neg hc, ih (List.cons_inj_right c |>.mp h)]

/-- What is put behind a line stands in its comment, or behind the line. -/
theorem stripComment_append_or (quoting : Quoting) (a b : List Char) :
    stripComment quoting (a ++ b) = stripComment quoting a ∨
      stripComment quoting a = a ∧
        stripComment quoting (a ++ b) = a ++ stripComment (a.foldl Quoting.next quoting) b := by
  induction a generalizing quoting with
  | nil => exact .inr ⟨rfl, rfl⟩
  | cons c a ih =>
      rw [List.cons_append, stripComment, stripComment]
      split
      · exact .inl rfl
      · exact (ih (quoting.next c)).imp (congrArg (c :: ·)) fun h =>
          ⟨congrArg (c :: ·) h.1, congrArg (c :: ·) h.2⟩

theorem stripComment_of_blanks (quoting : Quoting) {cs : List Char} (h : Blanks cs) :
    stripComment quoting cs = cs := by
  induction cs generalizing quoting with
  | nil => rfl
  | cons c cs ih =>
      have hcomment : c ≠ '#' := by
        rintro rfl
        exact absurd (h '#' List.mem_cons_self) (by decide)
      rw [stripComment, if_neg fun hc => hcomment hc.2,
        ih _ fun d hd => h d (List.mem_cons_of_mem c hd)]

theorem foldl_next_of_forall_isPlain {cs : List Char} (h : ∀ c ∈ cs, IsPlain c) :
    cs.foldl Quoting.next .outside = .outside := by
  induction cs with
  | nil => rfl
  | cons c cs ih =>
      rw [List.forall_mem_cons] at h
      have hc := h.1
      simp only [IsPlain, List.mem_cons, List.not_mem_nil, or_false, not_or] at hc
      rw [List.foldl_cons, Quoting.next, if_neg hc.1, ih h.2]

/-- Blanks around a text that ends outside of strings do not make a string of it. -/
theorem foldl_next_of_trim {cs : List Char} (h : (trim cs).foldl Quoting.next .outside = .outside) :
    cs.foldl Quoting.next .outside = .outside := by
  obtain ⟨front, back, hfront, hback, heq⟩ := exists_eq_trim cs
  rw [heq, List.foldl_append, List.foldl_append,
    foldl_next_of_forall_isPlain fun c hc => isPlain_of_isBlank (hfront c hc), h,
    foldl_next_of_forall_isPlain fun c hc => isPlain_of_isBlank (hback c hc)]

/-! ## Operands -/

/-- A text that can stand as an operand, and what encloses the character behind it. -/
structure Operand (last : Nesting) (text : List Char) : Prop where
  trimmed : trim text = text
  oneLine : '\n' ∉ text
  passes : Nesting.pass? {} text = some last

/-- Texts that can stand one behind the other; only behind the last a parenthesis may be open. -/
def AreOperands : List (List Char) → Prop
  | [] => True
  | [text] => ∃ last, last.isClosed ∧ Operand last text
  | text :: others => Operand {} text ∧ AreOperands others

theorem areOperands_cons {text : List Char} {others : List (List Char)}
    (h : AreOperands (text :: others)) : ∃ last : Nesting, last.isClosed ∧ Operand last text := by
  cases others with
  | nil => exact h
  | cons _ _ => exact ⟨{}, rfl, h.1⟩

theorem AreOperands.cons {text : List Char} {others : List (List Char)}
    (h : Operand {} text) (hothers : AreOperands others) : AreOperands (text :: others) := by
  cases others with
  | nil => exact ⟨{}, rfl, h⟩
  | cons _ _ => exact ⟨h, hothers⟩

theorem areOperands_append {front back : List (List Char)}
    (hfront : ∀ text ∈ front, Operand {} text) (hback : AreOperands back) :
    AreOperands (front ++ back) := by
  induction front with
  | nil => exact hback
  | cons text front ih =>
      rw [List.forall_mem_cons] at hfront
      exact .cons hfront.1 (ih hfront.2)

theorem AreOperands.drop {texts : List (List Char)} (h : AreOperands texts) (count : Nat) :
    AreOperands (texts.drop count) := by
  induction count generalizing texts with
  | zero => exact h
  | succ count ih =>
      rcases texts with - | ⟨text, - | ⟨text', others⟩⟩
      · trivial
      · rw [List.drop_succ_cons, List.drop_nil]
        trivial
      · exact ih h.2

/-- Each of the texts can stand as the last operand. -/
theorem AreOperands.forall_mem {texts : List (List Char)} (h : AreOperands texts) :
    ∀ text ∈ texts, ∃ last : Nesting, last.isClosed ∧ Operand last text := by
  induction texts with
  | nil => nofun
  | cons text others ih =>
      rw [List.forall_mem_cons]
      refine ⟨areOperands_cons h, ?_⟩
      cases others with
      | nil => nofun
      | cons _ _ => exact ih h.2

/-- A text without a meaning to the scan is an operand if it has nothing to trim. -/
theorem operand_of_forall_isPlain {text : List Char} (htrim : trim text = text)
    (h : ∀ c ∈ text, IsPlain c) (hline : '\n' ∉ text) : Operand {} text :=
  ⟨htrim, hline, Nesting.pass?_of_forall_isPlain rfl h⟩

theorem operandsFrom_append {nesting last : Nesting} {a : List Char}
    (h : nesting.pass? a = some last) (begun b : List Char) :
    operandsFrom nesting begun (a ++ b) = operandsFrom last (a.reverse ++ begun) b := by
  induction a generalizing nesting begun with
  | nil =>
      cases h
      rfl
  | cons c a ih =>
      obtain ⟨hc, -, next, hnext, h⟩ := Nesting.of_pass?_cons h
      rw [List.cons_append, operandsFrom, if_neg hc, hnext, ok_bind, ih h]
      simp

/-- What stands between two commas is an operand, and so is what stands behind the last. -/
theorem areOperands_of_operandsFrom {nesting : Nesting} {begun cs : List Char}
    {texts : List (List Char)} (h : operandsFrom nesting begun cs = .ok texts)
    (hbegun : Nesting.pass? {} begun.reverse = some nesting)
    (hcs : stripComment nesting.quoting cs = cs) (hline : '\n' ∉ begun.reverse ++ cs) :
    AreOperands texts := by
  have trimmed : ∀ {last : Nesting} {cs : List Char}, Nesting.pass? {} cs = some last →
      last.quoting = .outside → '\n' ∉ cs → Operand last (trim cs) := by
    intro last cs hpass hlast hline
    refine ⟨trim_trim cs, fun hmem => hline ?_, Nesting.pass?_trim hpass hlast⟩
    obtain ⟨front, back, -, -, heq⟩ := exists_eq_trim cs
    rw [heq]
    simp [hmem]
  induction cs generalizing nesting begun texts with
  | nil =>
      rw [operandsFrom] at h
      split at h
      · rename_i hclosed
        cases h
        exact ⟨nesting, hclosed,
          trimmed hbegun (Nesting.isClosed_iff.mp hclosed).1 (by simpa using hline)⟩
      · cases h
  | cons c cs ih =>
      rw [stripComment] at hcs
      split at hcs
      · cases hcs
      rename_i hcomment
      have hcs := (List.cons_inj_right c).mp hcs
      rw [operandsFrom] at h
      split at h
      · rename_i hcomma
        have hnesting := Nesting.isOpen_iff.mp hcomma.2
        subst hnesting
        obtain ⟨others, hothers, rfl⟩ := map_eq_ok_iff.mp h
        rw [hcomma.1] at hcs
        refine .cons (trimmed hbegun rfl fun hmem => hline (by simp_all))
          (ih hothers rfl hcs ?_)
        exact fun hmem => hline (by simp_all)
      · rename_i hcomma
        obtain ⟨next, hnext, h⟩ := bind_eq_ok_iff.mp h
        refine ih h ?_ (by rwa [Nesting.quoting_of_next hnext]) (by simpa using hline)
        rw [List.reverse_cons, Nesting.pass?_append, hbegun, Option.bind_some, Nesting.pass?,
          if_neg (not_or.mpr ⟨hcomma, fun h => hcomment ⟨h.2, h.1⟩⟩), hnext]
        rfl

/-- Operands end outside of strings. -/
theorem foldl_next_of_operandsFrom {nesting : Nesting} {begun cs : List Char}
    {texts : List (List Char)} (h : operandsFrom nesting begun cs = .ok texts) :
    cs.foldl Quoting.next nesting.quoting = .outside := by
  induction cs generalizing nesting begun texts with
  | nil =>
      rw [operandsFrom] at h
      split at h
      · exact (Nesting.isClosed_iff.mp ‹_›).1
      · cases h
  | cons c cs ih =>
      rw [operandsFrom] at h
      split at h
      · rename_i hcomma
        obtain ⟨others, hothers, -⟩ := map_eq_ok_iff.mp h
        have hnesting := Nesting.isOpen_iff.mp hcomma.2
        subst hnesting
        rw [hcomma.1]
        exact ih hothers
      · obtain ⟨next, hnext, h⟩ := bind_eq_ok_iff.mp h
        rw [List.foldl_cons, ← Nesting.quoting_of_next hnext]
        exact ih h

theorem operandsFrom_ne_nil {nesting : Nesting} {begun cs : List Char} {texts : List (List Char)}
    (h : operandsFrom nesting begun cs = .ok texts) : texts ≠ [] := by
  induction cs generalizing nesting begun texts with
  | nil =>
      rw [operandsFrom] at h
      split at h <;> cases h
      nofun
  | cons c cs ih =>
      rw [operandsFrom] at h
      split at h
      · obtain ⟨others, -, rfl⟩ := map_eq_ok_iff.mp h
        nofun
      · obtain ⟨next, -, h⟩ := bind_eq_ok_iff.mp h
        exact ih h

/-- A single operand is the whole text. -/
theorem eq_trim_of_operandsFrom {nesting : Nesting} {begun cs text : List Char}
    (h : operandsFrom nesting begun cs = .ok [text]) : text = trim (begun.reverse ++ cs) := by
  induction cs generalizing nesting begun with
  | nil =>
      rw [operandsFrom] at h
      split at h <;> cases h
      rw [List.append_nil]
  | cons c cs ih =>
      rw [operandsFrom] at h
      split at h
      · obtain ⟨others, hothers, heq⟩ := map_eq_ok_iff.mp h
        rw [(List.cons.inj heq).2] at hothers
        exact absurd rfl (operandsFrom_ne_nil hothers)
      · obtain ⟨next, -, h⟩ := bind_eq_ok_iff.mp h
        rw [ih h]
        simp

/-- Blanks in front of an operand change nothing. -/
theorem Operand.behind_blanks {last : Nesting} {text front : List Char} (h : Operand last text)
    (hfront : Blanks front) :
    trim (front ++ text) = text ∧ Nesting.pass? {} (front ++ text) = some last := by
  constructor
  · rw [trim_blanks_append text hfront, h.trimmed]
  · rw [Nesting.pass?_append,
      Nesting.pass?_of_forall_isPlain rfl fun c hc => isPlain_of_isBlank (hfront c hc)]
    exact h.passes

/-- Operands with commas between them are split into the same operands. -/
theorem operandsFrom_intercalate {texts : List (List Char)} (h : AreOperands texts)
    (hne : texts ≠ []) {front : List Char} (hfront : Blanks front) :
    operandsFrom {} [] (front ++ [',', ' '].intercalate texts) = .ok texts := by
  induction texts generalizing front with
  | nil => exact absurd rfl hne
  | cons text others ih =>
      cases others with
      | nil =>
          obtain ⟨last, hclosed, operand⟩ := h
          obtain ⟨htrim, hpass⟩ := operand.behind_blanks hfront
          have := operandsFrom_append hpass [] []
          simp only [List.append_nil] at this
          rw [List.intercalate_singleton, this, operandsFrom, if_pos hclosed,
            List.reverse_reverse, htrim]
      | cons text' others =>
          obtain ⟨operand, hothers⟩ := h
          obtain ⟨htrim, hpass⟩ := operand.behind_blanks hfront
          have hblank : Blanks [' '] := blanks_of_all rfl
          rw [List.intercalate_cons_cons, List.append_assoc, ← List.append_assoc front,
            operandsFrom_append hpass, List.append_nil]
          simp only [List.cons_append, List.nil_append]
          rw [operandsFrom, if_pos ⟨rfl, rfl⟩, List.reverse_reverse, htrim,
            ← List.singleton_append, ih hothers (List.cons_ne_nil _ _) hblank]
          rfl

/-! ## Comments and operands -/

/-- Trimming a text without a comment leaves no comment. -/
theorem stripComment_trim {cs : List Char} (h : stripComment .outside cs = cs) :
    stripComment .outside (trim cs) = trim cs := by
  obtain ⟨front, back, hfront, -, heq⟩ := exists_eq_trim cs
  rw [heq] at h
  have := stripComment_of_append (stripComment_of_append_left h)
  rwa [foldl_next_of_forall_isPlain fun c hc => isPlain_of_isBlank (hfront c hc)] at this

theorem stripComment_isPrefix (quoting : Quoting) (cs : List Char) :
    stripComment quoting cs <+: cs := by
  induction cs generalizing quoting with
  | nil => exact List.prefix_rfl
  | cons c cs ih =>
      rw [stripComment]
      split
      · exact List.nil_prefix
      · exact (List.prefix_cons_inj c).mpr (ih _)

theorem mem_of_mem_stripComment {quoting : Quoting} {cs : List Char} {c : Char}
    (h : c ∈ stripComment quoting cs) : c ∈ cs :=
  (stripComment_isPrefix quoting cs).subset h

/-- Operands with commas between them have no comment. -/
theorem stripComment_intercalate {texts : List (List Char)} (h : AreOperands texts) :
    stripComment .outside ([',', ' '].intercalate texts) = [',', ' '].intercalate texts := by
  induction texts with
  | nil => rfl
  | cons text others ih =>
      cases others with
      | nil =>
          obtain ⟨last, -, operand⟩ := h
          rw [List.intercalate_singleton]
          exact stripComment_eq_self operand.passes
      | cons text' others =>
          obtain ⟨operand, hothers⟩ := h
          rw [List.intercalate_cons_cons, List.append_assoc,
            stripComment_append operand.passes]
          simp [stripComment, Quoting.next, ih hothers]

theorem not_mem_intercalate {texts : List (List Char)} (h : AreOperands texts) :
    '\n' ∉ [',', ' '].intercalate texts := by
  have hline : ∀ text ∈ texts, '\n' ∉ text := fun text hmem =>
    (h.forall_mem text hmem).elim fun _ h => h.2.oneLine
  cases texts with
  | nil => nofun
  | cons text others =>
      rw [List.forall_mem_cons] at hline
      rw [intercalate_cons, List.mem_append, List.mem_flatMap]
      rintro (hmem | ⟨other, hother, hmem⟩)
      · exact hline.1 hmem
      · exact hline.2 other hother (by simpa using hmem)

theorem intercalate_ne_nil {texts : List (List Char)} (hne : texts ≠ [])
    (hlast : texts.getLast? ≠ some []) : [',', ' '].intercalate texts ≠ [] := by
  rcases texts with - | ⟨text, - | ⟨text', others⟩⟩
  · exact absurd rfl hne
  · simpa using hlast
  · simp [List.intercalate_cons_cons]

/-- Operands with commas between them have no blanks around them, unless the last one is empty. -/
theorem trim_intercalate {texts : List (List Char)} (h : ∀ text ∈ texts, trim text = text)
    (hlast : texts.getLast? ≠ some []) :
    trim ([',', ' '].intercalate texts) = [',', ' '].intercalate texts := by
  refine trim_eq_self_iff.mpr ⟨?_, ?_⟩
  · cases texts with
    | nil => nofun
    | cons text others =>
        have hhead := (trim_eq_self_iff.mp (h text List.mem_cons_self)).1
        cases others with
        | nil => rwa [List.intercalate_singleton]
        | cons text' others =>
            rw [List.intercalate_cons_cons, List.append_assoc]
            cases text with
            | nil =>
                intro c hc
                cases hc
                rfl
            | cons d text => exact hhead
  · induction texts with
    | nil => nofun
    | cons text others ih =>
        cases others with
        | nil =>
            rw [List.intercalate_singleton]
            exact (trim_eq_self_iff.mp (h text List.mem_cons_self)).2
        | cons text' others =>
            rw [List.forall_mem_cons] at h
            rw [List.getLast?_cons_cons] at hlast
            have hne := intercalate_ne_nil (List.cons_ne_nil text' others) hlast
            rw [List.intercalate_cons_cons, List.getLast?_append_of_ne_nil _ hne]
            exact ih h.2 hlast

end DexGraft.Smali
