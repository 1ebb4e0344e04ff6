import DexGraft.Code.Flags
import DexGraft.Proofs.Text.Blank
import DexGraft.Proofs.Text.Cut
import DexGraft.Proofs.Text.Numeral
import Mathlib.Data.Nat.Bitwise

/-!
# Flags read back

Flags are stored by the names of the bits that have one, and by one number for all others.  Whichever
of the 32 bits are set, the stored form reads as the same flags.
-/

namespace DexGraft.AccessFlags

open Text

/-! ## Bits -/

/-- Every name stands for one bit. -/
theorem toNat_named : ∀ known ∈ named, ∃ k < 32, known.2.toNat = 2 ^ k := by decide

theorem and_eq_self_or_zero (bits : UInt32) {bit : UInt32} {k : Nat} (h : bit.toNat = 2 ^ k) :
    bits &&& bit = bit ∨ bits &&& bit = 0 := by
  have hand : (bits &&& bit).toNat = (bits.toNat.testBit k).toNat * 2 ^ k := by
    rw [UInt32.toNat_and, h, Nat.and_two_pow]
  cases hbit : bits.toNat.testBit k with
  | true =>
      refine .inl (UInt32.toNat_inj.mp ?_)
      rw [hand, hbit, h, Bool.toNat_true, Nat.one_mul]
  | false =>
      refine .inr (UInt32.toNat_inj.mp ?_)
      rw [hand, hbit, Bool.toNat_false, Nat.zero_mul]
      rfl

theorem and_or_distrib (bits a b : UInt32) : bits &&& (a ||| b) = bits &&& a ||| bits &&& b :=
  UInt32.toBitVec_inj.mp BitVec.and_or_distrib_left

/-- Any mask splits the flags in two. -/
theorem and_or_and_not (bits mask : UInt32) : bits &&& mask ||| bits &&& ~~~mask = bits := by
  rw [← and_or_distrib, UInt32.or_not_self, UInt32.and_neg_one]

/-- What a mask keeps has no bit outside of it. -/
theorem unnamed_inter_all (flags : AccessFlags) : (flags.inter all).unnamed = 0 := by
  rw [unnamed, inter, UInt32.and_assoc, UInt32.and_not_self, UInt32.and_zero]

/-- Flags are compared as a whole exactly if all bits that are set have a name. -/
theorem inter_all_eq_self_iff {flags : AccessFlags} :
    flags.inter all = flags ↔ flags.unnamed = 0 := by
  constructor
  · intro h
    rw [← h, unnamed_inter_all]
  · intro h
    have hsplit : flags.bits &&& all.bits ||| flags.unnamed = flags.bits :=
      and_or_and_not flags.bits all.bits
    rw [h, UInt32.or_zero] at hsplit
    exact congrArg AccessFlags.mk hsplit

/-- The flag that the name stands for is set. -/
def has (flags : AccessFlags) (known : String × UInt32) : Bool := flags.contains ⟨known.2⟩

theorem names_eq (flags : AccessFlags) : flags.names = (named.filter flags.has).map (·.1) := rfl

/-- The bits among `known` that are set make up what the flags have of them. -/
theorem foldl_filter (flags : AccessFlags) {known : List (String × UInt32)}
    (h : ∀ one ∈ known, flags.bits &&& one.2 = one.2 ∨ flags.bits &&& one.2 = 0)
    (others : AccessFlags) :
    (known.filter flags.has).foldl (fun all one => all.union ⟨one.2⟩) others =
      ⟨others.bits ||| flags.bits &&& known.foldr (fun one all => one.2 ||| all) 0⟩ := by
  induction known generalizing others with
  | nil =>
      show others = ⟨others.bits ||| flags.bits &&& 0⟩
      rw [UInt32.and_zero, UInt32.or_zero]
  | cons one known ih =>
      rw [List.forall_mem_cons] at h
      rw [List.foldr_cons, and_or_distrib, ← UInt32.or_assoc]
      by_cases hset : flags.bits &&& one.2 = one.2
      · have hhas : flags.has one := beq_iff_eq.mpr hset
        rw [List.filter_cons_of_pos hhas, List.foldl_cons, ih h.2, hset]
        rfl
      · have hhas : ¬ flags.has one := fun h => hset (beq_iff_eq.mp h)
        rw [List.filter_cons_of_neg hhas, ih h.2, h.1.resolve_left hset, UInt32.or_zero]

/-! ## Parts -/

/-- What stands between two bars, added to what stood in front. -/
def addPart? (flags : AccessFlags) (part : List Char) : Option AccessFlags :=
  (ofPart? part).map flags.union

theorem addPart?_surround {front back : List Char} (flags : AccessFlags) (part : List Char)
    (hfront : Blanks front) (hback : Blanks back) :
    addPart? flags (front ++ part ++ back) = addPart? flags part := by
  rw [addPart?, addPart?, ofPart?, ofPart?, trim_surround part hfront hback]

/-- The bars and the blanks around them make no difference to what is read. -/
theorem foldlM_parts (front : List Char) {words : List String} (hne : words ≠ [])
    (hwords : ∀ word ∈ words, '|' ∉ word.toList) (hfront : Blanks front) (flags : AccessFlags) :
    (parts (· == '|') (front ++ (join " | " words).toList)).foldlM addPart? flags =
      (words.map String.toList).foldlM addPart? flags := by
  have plain : ∀ {cs : List Char}, '|' ∉ cs → ∀ c ∈ cs, (c == '|') = false := fun h c hc =>
    beq_eq_false_iff_ne.mpr fun heq => h (heq ▸ hc)
  have hbar : '|' ∉ front := fun hmem => Bool.false_ne_true (hfront '|' hmem)
  have hblank : Blanks [' '] := by
    rintro _ (- | ⟨_, ⟨⟩⟩)
    rfl
  -- what stands in front of the next word is the blank behind a bar, hence any `front`
  induction words generalizing front flags with
  | nil => exact absurd rfl hne
  | cons word words ih =>
      rw [List.forall_mem_cons] at hwords
      cases words with
      | nil =>
          have hparts : parts (· == '|') (front ++ word.toList) = [front ++ word.toList] :=
            parts_eq_singleton (plain fun h => (List.mem_append.mp h).elim hbar hwords.1)
          have hpart := addPart?_surround flags word.toList hfront (List.forall_mem_nil _)
          rw [List.append_nil] at hpart
          rw [join, hparts, List.foldlM_cons, hpart]
          rfl
      | cons next words =>
          have htext : front ++ (join " | " (word :: next :: words)).toList =
              (front ++ word.toList ++ [' ']) ++
                '|' :: ([' '] ++ (join " | " (next :: words)).toList) := by
            simp [join]
          have hparts : ∀ c ∈ front ++ word.toList ++ [' '], (c == '|') = false := by
            refine plain fun h => ?_
            rcases List.mem_append.mp h with h | h
            · exact (List.mem_append.mp h).elim hbar hwords.1
            · exact absurd (List.mem_singleton.mp h) (by decide)
          rw [htext, parts_append _ hparts (beq_self_eq_true '|'), List.foldlM_cons,
            addPart?_surround flags word.toList hfront hblank, List.map_cons, List.foldlM_cons]
          congr 1
          funext flags'
          exact ih [' '] (List.cons_ne_nil _ _) hwords.2 hblank flags' (by decide)

/-- Every name reads as its bit. -/
theorem ofPart?_named : ∀ known ∈ named, ofPart? known.1.toList = some ⟨known.2⟩ := by decide

theorem not_mem_named : ∀ known ∈ named, '|' ∉ known.1.toList := by decide

/-- Names add their bits. -/
theorem foldlM_names {known : List (String × UInt32)} (h : ∀ one ∈ known, one ∈ named)
    (flags : AccessFlags) (more : List (List Char)) :
    (known.map (·.1.toList) ++ more).foldlM addPart? flags =
      more.foldlM addPart? (known.foldl (fun all one => all.union ⟨one.2⟩) flags) := by
  induction known generalizing flags with
  | nil => rfl
  | cons one known ih =>
      rw [List.forall_mem_cons] at h
      have hpart : addPart? flags one.1.toList = some (flags.union ⟨one.2⟩) := by
        rw [addPart?, ofPart?_named one h.1, Option.map_some]
      rw [List.map_cons, List.cons_append, List.foldlM_cons, hpart]
      exact ih h.2 _

/-- What the bits without a name are stored as. -/
def restText (bits : UInt32) : String := "0x" ++ Numeral.hex bits.toNat

theorem toList_restText (bits : UInt32) :
    (restText bits).toList = '0' :: 'x' :: Numeral.digitsOf 14 bits.toNat := by
  rw [restText, String.toList_append, Numeral.toList_hex]
  rfl

theorem ofPart?_restText (bits : UInt32) : ofPart? (restText bits).toList = some ⟨bits⟩ := by
  have htrim : trim (restText bits).toList = (restText bits).toList := by
    refine trim_eq_self_of_forall fun c hc => ?_
    rw [toList_restText] at hc
    rcases List.mem_cons.mp hc with rfl | hc
    · rfl
    rcases List.mem_cons.mp hc with rfl | hc
    · rfl
    obtain ⟨d, hd, rfl⟩ := Numeral.exists_of_mem_digitsOf hc
    interval_cases d <;> rfl
  have hread : Numeral.unsigned? 16 UInt32.size (Numeral.digitsOf 14 bits.toNat) =
      some bits.toNat :=
    Numeral.unsigned?_digitsOf (by decide) bits.toNat_lt
  rw [ofPart?, htrim, toList_restText]
  simp only [hread, Option.map_some]
  exact congrArg (some ∘ AccessFlags.mk) UInt32.ofNat_toNat

theorem not_mem_restText (bits : UInt32) : '|' ∉ (restText bits).toList := by
  rw [toList_restText, List.mem_cons, List.mem_cons, not_or, not_or]
  exact ⟨by decide, by decide, Numeral.not_mem_digitsOf (by decide) (by decide)⟩

/-! ## The stored form -/

/-- The flags that have a name, as they are stored. -/
theorem names_union (flags : AccessFlags) :
    (named.filter flags.has).foldl (fun all one => all.union ⟨one.2⟩) empty =
      flags.inter all := by
  have hnamed : ∀ one ∈ named, flags.bits &&& one.2 = one.2 ∨ flags.bits &&& one.2 = 0 := by
    intro one hone
    obtain ⟨k, -, hbit⟩ := toNat_named one hone
    exact and_eq_self_or_zero flags.bits hbit
  rw [foldl_filter flags hnamed]
  exact congrArg AccessFlags.mk UInt32.zero_or

/-- The parts of the stored form. -/
def words (flags : AccessFlags) : List String :=
  flags.names ++ if flags.unnamed = 0 then [] else [restText flags.unnamed]

theorem text_eq (flags : AccessFlags) : flags.text = join " | " flags.words := rfl

/-- A part of the stored form is a name or a number. -/
theorem of_mem_words {flags : AccessFlags} {word : String} (h : word ∈ flags.words) :
    (∃ known ∈ named, word = known.1) ∨ word = restText flags.unnamed := by
  rcases List.mem_append.mp h with h | h
  · obtain ⟨known, hknown, rfl⟩ := List.mem_map.mp h
    exact .inl ⟨known, List.mem_of_mem_filter hknown, rfl⟩
  · split at h
    · cases h
    · exact .inr (List.mem_singleton.mp h)

theorem not_mem_of_mem_words {flags : AccessFlags} {word : String} (h : word ∈ flags.words) :
    '|' ∉ word.toList := by
  rcases of_mem_words h with ⟨known, hknown, rfl⟩ | rfl
  · exact not_mem_named known hknown
  · exact not_mem_restText flags.unnamed

/-- The parts add up to the flags. -/
theorem foldlM_words (flags : AccessFlags) :
    (flags.words.map String.toList).foldlM addPart? empty = some flags := by
  have hall : flags.inter all = ⟨flags.bits &&& all.bits⟩ := rfl
  have hsplit : flags.bits &&& all.bits ||| flags.unnamed = flags.bits :=
    and_or_and_not flags.bits all.bits
  rw [words, names_eq, List.map_append, List.map_map]
  refine (foldlM_names (fun one => List.mem_of_mem_filter) empty _).trans ?_
  rw [names_union, hall]
  split
  · rename_i hrest
    rw [hrest, UInt32.or_zero] at hsplit
    exact congrArg (some ∘ AccessFlags.mk) hsplit
  · rw [List.map_singleton, List.foldlM_cons, addPart?, ofPart?_restText, Option.map_some]
    exact congrArg (some ∘ AccessFlags.mk) hsplit

theorem any_visible_named : ∀ known ∈ named, known.1.toList.any (!isBlank ·) := by decide

/-- No part is blank. -/
theorem exists_not_blank {flags : AccessFlags} {word : String} (h : word ∈ flags.words) :
    ∃ c ∈ word.toList, isBlank c = false := by
  rcases of_mem_words h with ⟨known, hknown, rfl⟩ | rfl
  · obtain ⟨c, hc, hvisible⟩ := List.any_eq_true.mp (any_visible_named known hknown)
    exact ⟨c, hc, by simpa using hvisible⟩
  · rw [toList_restText]
    exact ⟨'0', List.mem_cons_self, rfl⟩

theorem trim_join_ne_nil {word : String} {words : List String}
    (h : ∃ c ∈ word.toList, isBlank c = false) :
    ¬ (trim (join " | " (word :: words)).toList).isEmpty := by
  obtain ⟨c, hc, hvisible⟩ := h
  have hmem : c ∈ (join " | " (word :: words)).toList := by
    cases words with
    | nil => exact hc
    | cons next words =>
        rw [join, String.toList_append, String.toList_append, List.append_assoc]
        exact List.mem_append_left _ hc
  intro hempty
  obtain ⟨front, back, hfront, hback, heq⟩ := exists_eq_trim (join " | " (word :: words)).toList
  rw [List.isEmpty_iff.mp hempty, List.append_nil] at heq
  rw [heq] at hmem
  have hblank : isBlank c := (List.mem_append.mp hmem).elim (hfront c) (hback c)
  rw [hvisible] at hblank
  cases hblank

/-- Whichever bits are set, flags read as they were stored. -/
theorem read?_text (flags : AccessFlags) : read? flags.text.toList = some flags := by
  have hread := foldlM_words flags
  have hplain : ∀ word ∈ flags.words, '|' ∉ word.toList := fun _ => not_mem_of_mem_words
  have hvisible : ∀ word ∈ flags.words, ∃ c ∈ word.toList, isBlank c = false :=
    fun _ => exists_not_blank
  rw [text_eq, read?]
  generalize flags.words = words at hread hplain hvisible ⊢
  cases words with
  | nil => exact hread
  | cons word words =>
      rw [if_neg (trim_join_ne_nil (hvisible word List.mem_cons_self)), ← hread]
      exact foldlM_parts [] (List.cons_ne_nil _ _) hplain (List.forall_mem_nil _) empty

end DexGraft.AccessFlags
