import DexGraft.Fingerprint.Pattern
import DexGraft.Proofs.Code.Opcode
import DexGraft.Proofs.Smali.Line
import DexGraft.Proofs.Text.Words

/-!
# Written patterns

A pattern is written as words, one for each place, with blanks between them.  A place may be spelled in
more than one way, and so may the blanks; of all spellings of a pattern its text is the one with single
spaces and no lone question mark.  The main statement is that every pattern is read back from its text,
and which texts are read at all.
-/

namespace DexGraft.OpcodePattern

open Text Outcome

/-! ## Places -/

/-- The word is a spelling of the place. -/
inductive Spells : List Char → Option Opcode → Prop
  | mark : Spells ['?'] none
  | marks : Spells ['?', '?'] none
  | mnemonic (opcode : Opcode) : Spells opcode.mnemonic.toList (some opcode)

variable {word : List Char} {words : List (List Char)} {place : Option Opcode}
  {pattern : OpcodePattern} {s : String}

/-- No mnemonic reads as an open place. -/
theorem mnemonic_not_mem_wildcards (opcode : Opcode) : opcode.mnemonic.toList ∉ wildcards := by
  have hnone : ∀ word ∈ wildcards, Opcode.ofMnemonic? (String.ofList word) = none := by
    decide +kernel
  intro h
  have hfound := opcode.ofMnemonic?_mnemonic
  rw [← String.ofList_toList (s := opcode.mnemonic), hnone _ h] at hfound
  cases hfound

theorem readPlace_eq_ok_iff : readPlace word = .ok place ↔ Spells word place := by
  rw [readPlace]
  constructor
  · intro h
    split at h
    · rename_i hwild
      cases h
      rw [wildcards, List.mem_cons, List.mem_singleton] at hwild
      rcases hwild with rfl | rfl
      · exact .marks
      · exact .mark
    · split at h
      · rename_i opcode hfound
        cases h
        have hmnemonic : opcode.mnemonic.toList = word := by
          rw [Smali.mnemonic_of_ofMnemonic? hfound, String.toList_ofList]
        exact hmnemonic ▸ .mnemonic opcode
      · cases h
  · intro h
    cases h with
    | mark => exact if_pos (by decide)
    | marks => exact if_pos (by decide)
    | mnemonic opcode =>
        rw [if_neg (mnemonic_not_mem_wildcards opcode), String.ofList_toList,
          opcode.ofMnemonic?_mnemonic]

theorem Spells.solid (h : Spells word place) : Solid word := by
  cases h with
  | mark => exact ⟨List.cons_ne_nil _ _, List.forall_mem_singleton.mpr rfl⟩
  | marks =>
      exact ⟨List.cons_ne_nil _ _,
        List.forall_mem_cons.mpr ⟨rfl, List.forall_mem_singleton.mpr rfl⟩⟩
  | mnemonic opcode =>
      obtain ⟨c, cs, hmnemonic, hletters⟩ := Smali.exists_mnemonic opcode
      rw [hmnemonic, String.toList_ofList]
      exact ⟨List.cons_ne_nil c cs, fun d hd => (hletters d hd).2.1⟩

theorem exists_spells_iff : (∃ place, Spells word place) ↔
    word = ['?'] ∨ word = ['?', '?'] ∨ ∃ opcode : Opcode, word = opcode.mnemonic.toList := by
  constructor
  · rintro ⟨place, h⟩
    cases h with
    | mark => exact .inl rfl
    | marks => exact .inr (.inl rfl)
    | mnemonic opcode => exact .inr (.inr ⟨opcode, rfl⟩)
  · rintro (rfl | rfl | ⟨opcode, rfl⟩)
    · exact ⟨none, .mark⟩
    · exact ⟨none, .marks⟩
    · exact ⟨some opcode, .mnemonic opcode⟩

/-! ## Texts -/

/-- The words are spellings of the places, one for each, and there is at least one. -/
structure SpellsAll (words : List (List Char)) (pattern : OpcodePattern) : Prop where
  ne_nil : words ≠ []
  spells : List.Forall₂ Spells words pattern

theorem SpellsAll.pattern_ne_nil (h : SpellsAll words pattern) : pattern ≠ [] := by
  rintro rfl
  exact h.ne_nil (List.forall₂_nil_right_iff.mp h.spells)

/-- A text is read as a pattern exactly if its words are spellings of the places. -/
theorem parse_eq_ok_iff :
    parse s = .ok pattern ↔ ∃ words, Spaced s.toList words ∧ SpellsAll words pattern := by
  have hread : ∀ words : List (List Char), words.mapM readPlace = .ok pattern ↔
      List.Forall₂ Spells words pattern := by
    intro words
    simp only [mapM_eq_ok_iff, readPlace_eq_ok_iff]
  rw [parse, bind_eq_ok_iff]
  constructor
  · rintro ⟨found, hfound, h⟩
    split at h
    · cases h
    · rename_i hne
      cases h
      refine ⟨Text.words s.toList, words_eq_iff.mp rfl, fun hnil => hne ?_, (hread _).mp hfound⟩
      rw [hnil] at hfound
      cases hfound
      rfl
  · rintro ⟨words, hwords, hspells⟩
    rw [words_eq_iff.mpr hwords]
    refine ⟨pattern, (hread words).mpr hspells.spells, if_neg fun hempty => ?_⟩
    exact hspells.pattern_ne_nil (List.isEmpty_iff.mp hempty)

/-- The words of the text of a pattern. -/
def placeWords (pattern : OpcodePattern) : List (List Char) :=
  pattern.map fun place => (placeText place).toList

theorem toList_text : pattern.text.toList = [' '].intercalate pattern.placeWords := by
  rw [text, toList_join, List.map_map]
  rfl

theorem spells_placeText (place : Option Opcode) : Spells (placeText place).toList place := by
  cases place with
  | none => exact .marks
  | some opcode => exact .mnemonic opcode

theorem placeText_ne (place : Option Opcode) : (placeText place).toList ≠ ['?'] := by
  cases place with
  | none => decide
  | some opcode => exact fun h => mnemonic_not_mem_wildcards opcode (h ▸ by decide)

theorem spellsAll_placeWords (hne : pattern ≠ []) : SpellsAll pattern.placeWords pattern where
  ne_nil := mt List.map_eq_nil_iff.mp hne
  spells := List.forall₂_map_left_iff.mpr (List.forall₂_same.mpr fun place _ => spells_placeText place)

theorem spaced_text (pattern : OpcodePattern) : Spaced pattern.text.toList pattern.placeWords := by
  rw [toList_text]
  refine .intercalate (List.cons_ne_nil _ _) (blanks_of_all rfl) fun word hword => ?_
  obtain ⟨place, -, rfl⟩ := List.mem_map.mp hword
  exact (spells_placeText place).solid

/-- A pattern with at least one place is read back from its text. -/
theorem parse_text (hne : pattern ≠ []) : parse pattern.text = .ok pattern :=
  parse_eq_ok_iff.mpr ⟨_, pattern.spaced_text, spellsAll_placeWords hne⟩

/-- Every pattern with a place is read back from its text.  Of whatever text a pattern was read, its
own text has single spaces between the words and `??` for every open place, and it is a fixed point of
reading and writing.  A text is read exactly if it has a word and every word is a wildcard or a
mnemonic. -/
theorem patterns_read_as_written :
    (∀ pattern : OpcodePattern, pattern ≠ [] → parse pattern.text = .ok pattern) ∧
    (∀ s pattern, parse s = .ok pattern →
      (∃ words, pattern.text.toList = [' '].intercalate words ∧ Spaced pattern.text.toList words ∧
        List.Forall₂ (fun word place => Spells word place ∧ word ≠ ['?']) words pattern) ∧
      parse pattern.text = .ok pattern ∧
      ∀ again, parse pattern.text = .ok again → again.text = pattern.text) ∧
    ∀ s, (∃ pattern, parse s = .ok pattern) ↔
      ∃ words, Spaced s.toList words ∧ words ≠ [] ∧ ∀ word ∈ words,
        word = ['?'] ∨ word = ['?', '?'] ∨ ∃ opcode : Opcode, word = opcode.mnemonic.toList := by
  refine ⟨fun pattern => parse_text, fun s pattern h => ?_, fun s => ?_⟩
  · obtain ⟨words, -, hspells⟩ := parse_eq_ok_iff.mp h
    have hparse := parse_text hspells.pattern_ne_nil
    refine ⟨⟨pattern.placeWords, toList_text, pattern.spaced_text, ?_⟩, hparse, ?_⟩
    · exact List.forall₂_map_left_iff.mpr (List.forall₂_same.mpr fun place _ =>
        ⟨spells_placeText place, placeText_ne place⟩)
    · intro again hagain
      rw [hparse] at hagain
      cases hagain
      rfl
  · simp only [← exists_spells_iff, ← exists_forall₂_iff]
    constructor
    · rintro ⟨pattern, h⟩
      obtain ⟨words, hwords, hspells⟩ := parse_eq_ok_iff.mp h
      exact ⟨words, hwords, hspells.ne_nil, pattern, hspells.spells⟩
    · rintro ⟨words, hwords, hne, pattern, hspells⟩
      exact ⟨pattern, parse_eq_ok_iff.mpr ⟨words, hwords, hne, hspells⟩⟩

/-- Both spellings of an open place, and blanks of several sorts that are not single spaces. -/
theorem patterns_read_as_written_mixedBlanks :
    let s := "\u2003iget-object\t?  ??\u00a0invoke-static/range\n"
    let pattern : OpcodePattern := [some .igetObject, none, none, some .invokeStaticRange]
    pattern ≠ [] ∧ parse s = .ok pattern ∧
      pattern.text = "iget-object ?? ?? invoke-static/range" ∧ parse pattern.text = .ok pattern ∧
      ∃ words, Spaced s.toList words ∧ words.length = 4 := by
  intro s pattern
  have hne : pattern ≠ [] := List.cons_ne_nil _ _
  have hread : parse s = .ok pattern := by decide +kernel
  obtain ⟨readsText, -, accepts⟩ := patterns_read_as_written
  obtain ⟨words, hwords, -, -⟩ := (accepts s).mp ⟨pattern, hread⟩
  refine ⟨hne, hread, by decide +kernel, readsText pattern hne, words, hwords, ?_⟩
  rw [← words_eq_iff.mpr hwords]
  decide +kernel

end DexGraft.OpcodePattern
