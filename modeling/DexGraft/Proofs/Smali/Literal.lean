import DexGraft.Proofs.Smali.Assembly
import Mathlib.Data.Int.ModEq

/-!
# Literals

A literal is written as a number in base ten or sixteen, with or without a minus sign in front, and
with or without letters `L` behind.  The main statement is that a literal is read exactly if the size
of the number takes no more than 64 bits, and then as the signed number of 64 bits that is congruent
to it; and that the literal in the text of an instruction is read back.
-/

namespace DexGraft.Smali

open Text Outcome

/-! ## What is written -/

/-- The text writes the size of a literal, without what stands around it. -/
inductive WritesMagnitude : List Char → Nat → Prop
  | decimal {cs : List Char} {n : Nat} (writes : Numeral.WritesUnsigned 10 cs n) :
      WritesMagnitude cs n
  | hexadecimal {x : Char} {cs : List Char} {n : Nat} (mark : x = 'x' ∨ x = 'X')
      (writes : Numeral.WritesUnsigned 16 cs n) : WritesMagnitude ('0' :: x :: cs) n

/-- The text holds letters that mark a literal as a long one, and nothing else. -/
def Longs (cs : List Char) : Prop := ∀ c ∈ cs, c = 'L' ∨ c = 'l'

/-- The text writes the literal with the number. -/
inductive WritesLiteral : List Char → Int → Prop
  | plain {body suffix : List Char} {n : Nat} (writes : WritesMagnitude body n)
      (longs : Longs suffix) : WritesLiteral (body ++ suffix) n
  | minus {body suffix : List Char} {n : Nat} (writes : WritesMagnitude body n)
      (longs : Longs suffix) : WritesLiteral ('-' :: (body ++ suffix)) (-(n : Int))

/-- A digit, or one of the marks of a size. -/
def IsNumeric (c : Char) : Prop :=
  c ∈ ['+', 'x', 'X'] ++ Numeral.lowerDigits ++ Numeral.upperDigits

instance : DecidablePred IsNumeric := fun c => inferInstanceAs (Decidable (c ∈ _))

theorem mem_of_writesUnsigned {base n : Nat} {cs : List Char}
    (h : Numeral.WritesUnsigned base cs n) :
    ∀ c ∈ cs, c ∈ ['+'] ++ Numeral.lowerDigits ++ Numeral.upperDigits := by
  obtain ⟨sign, digits, rfl, hsign, -, values, hvalues, -⟩ := h
  intro c hc
  rcases List.mem_append.mp hc with hc | hc
  · rcases hsign with rfl | rfl
    · cases hc
    · exact List.mem_append_left _ (List.mem_append_left _ hc)
  · obtain ⟨value, -, -, hdigit⟩ := exists_of_forall₂ hvalues.flip hc
    rcases hdigit with hdigit | hdigit
    · exact List.mem_append_left _ (List.mem_append_right _ (List.mem_of_getElem? hdigit))
    · exact List.mem_append_right _ (List.mem_of_getElem? hdigit)

theorem isNumeric_of_writesMagnitude {cs : List Char} {n : Nat} (h : WritesMagnitude cs n) :
    ∀ c ∈ cs, IsNumeric c := by
  have hunsigned : ∀ {base : Nat} {cs : List Char}, Numeral.WritesUnsigned base cs n →
      ∀ c ∈ cs, IsNumeric c := by
    intro base cs h c hc
    have hmem := mem_of_writesUnsigned h c hc
    simp only [IsNumeric, List.mem_append, List.mem_cons, List.not_mem_nil, or_false] at hmem ⊢
    tauto
  cases h with
  | decimal writes => exact hunsigned writes
  | hexadecimal mark writes =>
      rw [List.forall_mem_cons, List.forall_mem_cons]
      refine ⟨by decide, ?_, hunsigned writes⟩
      rcases mark with rfl | rfl <;> decide

/-! ## What is read -/

/-- The letters behind a text that does not end with one are those that are dropped. -/
theorem dropWhile_reverse_append {body suffix : List Char} (hbody : ∀ c ∈ body, IsNumeric c)
    (hsuffix : Longs suffix) :
    ((body ++ suffix).reverse.dropWhile fun c => c == 'L' || c == 'l').reverse = body := by
  have hlong : ∀ c ∈ suffix.reverse, (c == 'L' || c == 'l') = true := by
    intro c hc
    simpa using hsuffix c (List.mem_reverse.mp hc)
  have hkept : body.rdropWhile (fun c => c == 'L' || c == 'l') = body := by
    refine List.rdropWhile_eq_self_iff.mpr fun hne hlast => ?_
    have hnumeric := hbody _ (List.getLast_mem hne)
    rw [Bool.or_eq_true, beq_iff_eq, beq_iff_eq] at hlast
    rcases hlast with hlast | hlast <;> rw [hlast] at hnumeric <;> revert hnumeric <;> decide
  rw [List.reverse_append, List.dropWhile_append_of_pos hlong]
  exact hkept

/-- A number that fits is kept whole in the word that it is read into. -/
theorem map_unsigned?_eq_some_iff {base : Nat} {cs : List Char} {magnitude : UInt64}
    (hbase : base ≤ 16) : (Numeral.unsigned? base UInt64.size cs).map .ofNat = some magnitude ↔
      Numeral.WritesUnsigned base cs magnitude.toNat := by
  rw [Option.map_eq_some_iff]
  constructor
  · rintro ⟨n, hn, rfl⟩
    obtain ⟨hwrites, hlt⟩ := (Numeral.unsigned?_eq_some_iff hbase).mp hn
    rwa [UInt64.toNat_ofNat_of_lt' hlt]
  · intro hwrites
    exact ⟨_, (Numeral.unsigned?_eq_some_iff hbase).mpr ⟨hwrites, magnitude.toNat_lt_size⟩,
      UInt64.ofNat_toNat⟩

theorem readMagnitude?_eq_some_iff {cs : List Char} {magnitude : UInt64} :
    readMagnitude? cs = some magnitude ↔ ∃ body suffix, cs = body ++ suffix ∧
      WritesMagnitude body magnitude.toNat ∧ Longs suffix := by
  constructor
  · intro h
    refine ⟨cs.rdropWhile fun c => c == 'L' || c == 'l', cs.rtakeWhile fun c => c == 'L' || c == 'l',
      List.rdropWhile_append_rtakeWhile.symm, ?_⟩
    have hlongs : Longs (cs.rtakeWhile fun c => c == 'L' || c == 'l') := by
      intro c hc
      simpa using List.mem_rtakeWhile_imp hc
    refine ⟨?_, hlongs⟩
    simp only [readMagnitude?] at h
    rw [List.rdropWhile]
    split at h
    · rename_i heq
      exact heq ▸ .hexadecimal (.inl rfl) ((map_unsigned?_eq_some_iff (by decide)).mp h)
    · rename_i heq
      exact heq ▸ .hexadecimal (.inr rfl) ((map_unsigned?_eq_some_iff (by decide)).mp h)
    · exact .decimal ((map_unsigned?_eq_some_iff (by decide)).mp h)
  · rintro ⟨body, suffix, rfl, hwrites, hlongs⟩
    rw [readMagnitude?, dropWhile_reverse_append (isNumeric_of_writesMagnitude hwrites) hlongs]
    cases hwrites with
    | decimal writes =>
        -- neither mark of the base is a decimal digit
        have hnot : ∀ {x : Char} {hex : List Char}, body = '0' :: x :: hex → x ≠ 'x' ∧ x ≠ 'X' := by
          rintro x hex rfl
          have hmem := mem_of_writesUnsigned writes x (by simp)
          constructor <;> rintro rfl <;> revert hmem <;> decide
        split
        · exact absurd rfl (hnot rfl).1
        · exact absurd rfl (hnot rfl).2
        · exact (map_unsigned?_eq_some_iff (by decide)).mpr writes
    | hexadecimal mark writes =>
        have hread := (map_unsigned?_eq_some_iff (by decide)).mpr writes
        rcases mark with rfl | rfl
        · exact hread
        · exact hread

/-- What stands behind the sign of a literal has no sign. -/
theorem splitSign_eq_of_writes {body suffix : List Char} {n : Nat} (writes : WritesMagnitude body n)
    (longs : Longs suffix) : splitSign (body ++ suffix) = (false, body ++ suffix) := by
  rw [splitSign]
  intro rest heq
  have hmem : '-' ∈ body ++ suffix := by
    rw [heq]
    exact List.mem_cons_self
  rcases List.mem_append.mp hmem with hmem | hmem
  · exact absurd (isNumeric_of_writesMagnitude writes _ hmem) (by decide)
  · exact absurd (longs _ hmem) (by decide)

/-- A literal is its sign and its size. -/
theorem writesLiteral_iff {cs : List Char} {n : Int} :
    WritesLiteral cs n ↔ ∃ m : Nat, n = (if (splitSign cs).1 then -(m : Int) else m) ∧
      ∃ body suffix, (splitSign cs).2 = body ++ suffix ∧ WritesMagnitude body m ∧ Longs suffix := by
  constructor
  · rintro (⟨writes, longs⟩ | ⟨writes, longs⟩)
    · rw [splitSign_eq_of_writes writes longs]
      exact ⟨_, rfl, _, _, rfl, writes, longs⟩
    · exact ⟨_, rfl, _, _, rfl, writes, longs⟩
  · rintro ⟨m, rfl, body, suffix, hbody, writes, longs⟩
    rw [splitSign.eq_def] at hbody ⊢
    split at hbody <;> dsimp only at hbody ⊢
    · rw [hbody]
      exact .minus writes longs
    · rw [hbody]
      exact .plain writes longs

/-! ## Numbers of 64 bits -/

theorem ofInt_modEq (n : Int) : (Int64.ofInt n).toInt ≡ n [ZMOD 2 ^ 64] := by
  rw [Int64.toInt_ofInt]
  exact Int.bmod_emod

/-- There is one signed number of 64 bits that is congruent to a number. -/
theorem modEq_iff_eq_ofInt {n : Int} {value : Int64} :
    value.toInt ≡ n [ZMOD 2 ^ 64] ↔ value = .ofInt n := by
  constructor
  · intro h
    have hcongr : value.toInt ≡ (Int64.ofInt n).toInt [ZMOD 2 ^ 64] := h.trans (ofInt_modEq n).symm
    have := value.toInt_lt
    have := value.le_toInt
    have := (Int64.ofInt n).toInt_lt
    have := (Int64.ofInt n).le_toInt
    refine Int64.toInt_inj.mp ?_
    rw [Int.ModEq] at hcongr
    omega
  · rintro rfl
    exact ofInt_modEq n

/-- It is the number itself where that takes no more than 64 bits. -/
theorem toInt_ofInt_of_fits {n : Int} (hle : -2 ^ 63 ≤ n) (hlt : n < 2 ^ 63) :
    (Int64.ofInt n).toInt = n := by
  rw [Int64.toInt_ofInt]
  exact Int.bmod_eq_of_le (by rw [Int64.size]; omega) (by rw [Int64.size]; omega)

/-! ## Literals -/

theorem readLiteral_eq_ok_iff {operand : List Char} {value : Int64} :
    readLiteral operand = .ok value ↔ ∃ n, WritesLiteral (trim operand) n ∧
      n.natAbs < UInt64.size ∧ value = .ofInt n := by
  have habs (negative : Bool) (m : Nat) : (if negative then -(m : Int) else m).natAbs = m := by
    split <;> simp
  constructor
  · intro h
    rw [readLiteral_eq] at h
    split at h
    · rename_i magnitude hread
      cases h
      refine ⟨_, writesLiteral_iff.mpr ⟨magnitude.toNat, rfl, readMagnitude?_eq_some_iff.mp hread⟩,
        ?_, ?_⟩
      · rw [habs]
        exact magnitude.toNat_lt_size
      · rw [toInt64_eq_ofInt]
        split
        · exact (Int64.ofInt_neg _).symm
        · rfl
    · cases h
  · rintro ⟨n, hwrites, hlt, rfl⟩
    obtain ⟨m, rfl, body, suffix, hbody, writes, longs⟩ := writesLiteral_iff.mp hwrites
    rw [habs] at hlt
    refine readLiteral_of_splitSign rfl (readMagnitude?_eq_some_iff.mpr ⟨body, suffix, hbody, ?_,
      longs⟩) hlt
    rwa [UInt64.toNat_ofNat_of_lt' hlt]

theorem readLiteral_ok_or_error (operand : List Char) :
    (∃ value, readLiteral operand = .ok value) ∨
      readLiteral operand = .error (.invalidLiteral (String.ofList (trim operand))) := by
  rw [readLiteral_eq]
  split
  · exact .inl ⟨_, rfl⟩
  · exact .inr rfl

/-- The text of an instruction shows its literal behind its registers. -/
theorem exists_text_eq_of_literal {instruction : Instruction} {value : Int64}
    (h : instruction.literal = some value)
    (hformat : instruction.opcode.format ≠ ⟨.fixed 0, .nothing⟩) :
    ∃ others, instruction.text = instruction.opcode.mnemonic ++ " " ++
      instruction.registersText ++ ", " ++ Instruction.literalText value ++ others := by
  rw [Instruction.text, if_neg hformat, h]
  exact ⟨Instruction.operandText Reference.text instruction.reference ++
    Instruction.operandText id instruction.prototype ++
    Instruction.operandText Instruction.labelText instruction.target, by
      simp only [Instruction.operandText, String.append_assoc]⟩

/-- An instruction with a literal has no run of registers, and no label to branch to. -/
theorem plain_of_literal {instruction : Instruction}
    (h : instruction.opcode.format.trailing = .literal) : instruction.Plain := by
  have hform : ∀ opcode : Opcode, opcode.format.trailing = .literal →
      opcode.format.registers ≠ .range := by
    intro opcode
    cases opcode <;> decide
  refine ⟨fun heq => ?_, fun hrange => absurd hrange (hform _ h)⟩
  rw [heq] at h
  cases h

/-- The text of an instruction with a literal assembles into the instruction. -/
theorem assembleAt_text_of_literal {opcode : Opcode} {registers : List Register} {value : Int64}
    (hliteral : opcode.format.trailing = .literal)
    (hregisters : opcode.format.registers = .fixed registers.length) (method : Method) (base : Nat)
    (external : List ExternalLabel) :
    assembleAt (Instruction.text ⟨opcode, registers, some value, none, none, none⟩) method base
      external = .ok [⟨opcode, registers, some value, none, none, none⟩] := by
  have hassembled : Assembled ⟨opcode, registers, some value, none, none, none⟩ := by
    refine ⟨opcode.ofMnemonic?_mnemonic, fun count hcount => ?_, ?_⟩
    · exact RegisterForm.fixed.inj (hregisters.symm.trans hcount)
    · rw [hliteral]
      exact .literal value
  rw [assembleAt_text hassembled, instructions_singleton_iff]
  exact instruction_operandTexts hassembled (plain_of_literal hliteral) nofun

/--
An operand is a literal exactly if it writes a number of less than 64 bits in size, and is refused by
its text otherwise.  The value is the one signed number of 64 bits that is congruent to the number, and
so the number itself if that fits.  The text of an instruction shows its literal so that it is read
back, and the text of an instruction that takes a literal assembles into the instruction.
-/
theorem literals_read_as_written :
    (∀ operand, (∃ value, readLiteral operand = .ok value) ↔
      ∃ n, WritesLiteral (trim operand) n ∧ n.natAbs < 2 ^ 64) ∧
    (∀ operand, (¬ ∃ n, WritesLiteral (trim operand) n ∧ n.natAbs < 2 ^ 64) →
      readLiteral operand = .error (.invalidLiteral (String.ofList (trim operand)))) ∧
    (∀ operand n, WritesLiteral (trim operand) n → n.natAbs < 2 ^ 64 →
      ∃ value, readLiteral operand = .ok value ∧
        (∀ other : Int64, other.toInt ≡ n [ZMOD 2 ^ 64] ↔ other = value) ∧
        (-2 ^ 63 ≤ n → n < 2 ^ 63 → value.toInt = n)) ∧
    (∀ (instruction : Instruction) (value : Int64), instruction.literal = some value →
      instruction.opcode.format ≠ ⟨.fixed 0, .nothing⟩ →
      (∃ others, instruction.text = instruction.opcode.mnemonic ++ " " ++
        instruction.registersText ++ ", " ++ Instruction.literalText value ++ others) ∧
      readLiteral (Instruction.literalText value).toList = .ok value) ∧
    ∀ (opcode : Opcode) (registers : List Register) (value : Int64),
      opcode.format.trailing = .literal → opcode.format.registers = .fixed registers.length →
      ∀ method base external,
        assembleAt (Instruction.text ⟨opcode, registers, some value, none, none, none⟩) method base
          external = .ok [⟨opcode, registers, some value, none, none, none⟩] := by
  have haccepted : ∀ operand, (∃ value, readLiteral operand = .ok value) ↔
      ∃ n, WritesLiteral (trim operand) n ∧ n.natAbs < 2 ^ 64 := by
    intro operand
    constructor
    · rintro ⟨value, hread⟩
      obtain ⟨n, hwrites, hn, -⟩ := readLiteral_eq_ok_iff.mp hread
      exact ⟨n, hwrites, hn⟩
    · rintro ⟨n, hwrites, hn⟩
      exact ⟨.ofInt n, readLiteral_eq_ok_iff.mpr ⟨n, hwrites, hn, rfl⟩⟩
  refine ⟨haccepted, fun operand hnot => ?_, fun operand n hwrites hn => ?_,
    fun instruction value h hformat => ?_, fun opcode registers value hliteral hregisters => ?_⟩
  · exact (readLiteral_ok_or_error operand).resolve_left (mt (haccepted operand).mp hnot)
  · exact ⟨.ofInt n, readLiteral_eq_ok_iff.mpr ⟨n, hwrites, hn, rfl⟩,
      fun other => modEq_iff_eq_ofInt, toInt_ofInt_of_fits⟩
  · exact ⟨exists_text_eq_of_literal h hformat, readLiteral_literalText value⟩
  · exact assembleAt_text_of_literal hliteral hregisters

/-- The largest size with every part that a literal can have, and the least number of 64 bits. -/
theorem literals_read_as_written_wrapped :
    let operand := " -0X+FFFFffffFFFFffffLl ".toList
    let least : Int64 := .ofInt (-2 ^ 63)
    let instruction : Instruction := ⟨.constWide, [4], some least, none, none, none⟩
    WritesLiteral (trim operand) (-18446744073709551615) ∧
      (∃ value, readLiteral operand = .ok value ∧ value = 1) ∧
      readLiteral (Instruction.literalText least).toList = .ok least ∧
      assembleAt instruction.text ⟨"La;", "b", [], "V", .empty, 8, []⟩ 0 [] = .ok [instruction] := by
  intro operand least instruction
  have written : WritesLiteral (trim operand) (-18446744073709551615) := by
    have digits : Numeral.WritesUnsigned 16 "+FFFFffffFFFFffff".toList 18446744073709551615 :=
      ((Numeral.unsigned?_eq_some_iff (by decide)).mp
        (show Numeral.unsigned? 16 UInt64.size _ = _ by decide)).1
    have suffix : Longs ['L', 'l'] :=
      List.forall_mem_cons.mpr ⟨.inl rfl, List.forall_mem_singleton.mpr (.inr rfl)⟩
    exact .minus (.hexadecimal (.inr rfl) digits) suffix
  obtain ⟨-, -, read, printed, assembled⟩ := literals_read_as_written
  obtain ⟨value, hread, hunique, -⟩ := read operand _ written (by decide)
  exact ⟨written, ⟨value, hread, ((hunique 1).mp (by decide)).symm⟩,
    (printed instruction least rfl (by decide)).2,
    assembled .constWide [4] least rfl rfl _ 0 []⟩

end DexGraft.Smali
