import DexGraft.Proofs.Code.Reference
import DexGraft.Proofs.Smali.Lexing
import DexGraft.Proofs.Text.Numeral
import DexGraft.Smali.Assembly

/-!
# Operands read back

Each sort of operand, as a listing shows it, is a text that keeps to itself between commas, and
reads as what it shows.
-/

namespace DexGraft

open Text Outcome Smali

/-! ## Digits -/

/-- What holds of the sixteen digits holds of all characters of a number. -/
theorem forall_mem_digitsOf {P : Char → Prop} {base : Nat} (hbase : base + 2 ≤ 16)
    (h : ∀ d < 16, P (Numeral.digitChar d)) (n : Nat) : ∀ c ∈ Numeral.digitsOf base n, P c := by
  intro c hc
  obtain ⟨d, hd, rfl⟩ := Numeral.exists_of_mem_digitsOf hc
  exact h d (by omega)

/-- The character may be part of a register or a number. -/
def IsWord (c : Char) : Prop := IsPlain c ∧ isBlank c = false ∧ c ≠ '.'

instance : DecidablePred IsWord := fun c => inferInstanceAs (Decidable (IsPlain c ∧ _ ∧ _))

theorem isWord_of_all {cs : List Char} (h : cs.all fun c => decide (IsWord c)) :
    ∀ c ∈ cs, IsWord c :=
  fun c hc => of_decide_eq_true (List.all_eq_true.mp h c hc)

theorem isWord_of_mem_digitsOf {base : Nat} (hbase : base + 2 ≤ 16) (n : Nat) :
    ∀ c ∈ Numeral.digitsOf base n, IsWord c :=
  forall_mem_digitsOf hbase (by decide) n

/-- A word is an operand. -/
theorem operand_of_forall_isWord {text : List Char} (h : ∀ c ∈ text, IsWord c) :
    Operand {} text := by
  refine operand_of_forall_isPlain (trim_eq_self_of_forall fun c hc => (h c hc).2.1)
    (fun c hc => (h c hc).1) fun hline => ?_
  exact absurd (h _ hline).2.1 (by decide)

/-! ## Registers -/

namespace Register

theorem toList_text (register : Register) :
    register.text.toList = 'v' :: Numeral.digitsOf 8 register.toNat := by
  simp [text]

theorem isWord_of_mem_text (register : Register) : ∀ c ∈ register.text.toList, IsWord c := by
  rw [toList_text, List.forall_mem_cons]
  exact ⟨by decide, isWord_of_mem_digitsOf (by decide) _⟩

theorem operand_text (register : Register) : Operand {} register.text.toList :=
  operand_of_forall_isWord register.isWord_of_mem_text

@[simp] theorem trim_text (register : Register) :
    trim register.text.toList = register.text.toList :=
  register.operand_text.trimmed

theorem text_ne_nil (register : Register) : register.text.toList ≠ [] := by
  rw [toList_text]
  nofun

theorem not_mem_text {register : Register} {c : Char} (h : ¬ IsWord c) :
    c ∉ register.text.toList :=
  fun hc => h (register.isWord_of_mem_text c hc)

end Register

namespace Smali

variable (method : Method)

/-- Blanks around a register make no difference. -/
theorem readRegister_congr {a b : List Char} (h : trim a = trim b) :
    readRegister method a = readRegister method b := by
  simp only [readRegister, h]

theorem readRegister_text (register : Register) :
    readRegister method register.text.toList = .ok register := by
  have hread : readRegisterNumber register.text.toList (Numeral.digitsOf 8 register.toNat) =
      .ok register.toNat := by
    rw [readRegisterNumber, Numeral.unsigned?_digitsOf (by decide) register.toNat_lt]
  rw [readRegister, Register.trim_text]
  simp only [Register.toList_text] at hread ⊢
  simp [hread, Except.map]

/-! ## Register lists -/

/-- The characters of a register list: words, commas and single blanks. -/
theorem toList_listText (registers : List Register) :
    (Register.listText registers).toList =
      [',', ' '].intercalate (registers.map (·.text.toList)) := by
  rw [Register.listText, toList_join, List.map_map]
  rfl

theorem isWord_or_of_mem_listText (registers : List Register) :
    ∀ c ∈ (Register.listText registers).toList, IsWord c ∨ c = ',' ∨ c = ' ' := by
  rw [toList_listText]
  induction registers with
  | nil => nofun
  | cons register registers ih =>
      cases registers with
      | nil =>
          intro c hc
          rw [List.map_singleton, List.intercalate_singleton] at hc
          exact .inl (register.isWord_of_mem_text c hc)
      | cons register' registers =>
          intro c hc
          rw [List.map_cons, List.map_cons, List.intercalate_cons_cons, List.append_assoc,
            List.mem_append] at hc
          rcases hc with hc | hc
          · exact .inl (register.isWord_of_mem_text c hc)
          · rw [List.cons_append, List.cons_append, List.nil_append, List.mem_cons,
              List.mem_cons] at hc
            rcases hc with hc | hc | hc
            · exact .inr (.inl hc)
            · exact .inr (.inr hc)
            · exact ih c hc

theorem trim_listText (registers : List Register) :
    trim (Register.listText registers).toList = (Register.listText registers).toList := by
  rw [toList_listText]
  refine trim_intercalate ?_ fun h => ?_
  · simp
  · obtain ⟨register, -, h⟩ := List.mem_map.mp (List.mem_of_getLast? h)
    exact register.text_ne_nil h

/-- A text between braces may hold commas. -/
theorem operand_braced {inner : List Char}
    (h : ∀ c ∈ inner, IsWord c ∨ c = ',' ∨ c = ' ' ∨ c = '.') :
    Operand {} ('\x7b' :: inner ++ ['\x7d']) := by
  have hpass : ∀ cs : List Char, (∀ c ∈ cs, IsWord c ∨ c = ',' ∨ c = ' ' ∨ c = '.') →
      Nesting.pass? ⟨.outside, 1, 0⟩ cs = some ⟨.outside, 1, 0⟩ := by
    intro cs hcs
    induction cs with
    | nil => rfl
    | cons c cs ih =>
        rw [List.forall_mem_cons] at hcs
        rcases hcs.1 with hc | rfl | rfl | rfl
        · rw [← List.singleton_append, Nesting.pass?_append,
            Nesting.pass?_of_forall_isPlain rfl (by simpa using hc.1), Option.bind_some, ih hcs.2]
        all_goals
          rw [Nesting.pass?]
          exact ih hcs.2
  refine ⟨?_, ?_, ?_⟩
  · refine trim_eq_self_iff.mpr ⟨?_, ?_⟩
    · intro c hc
      cases hc
      rfl
    · intro c hc
      rw [List.getLast?_append_of_ne_nil _ (List.cons_ne_nil _ _)] at hc
      cases hc
      rfl
  · intro hmem
    rw [List.cons_append, List.mem_cons, List.mem_append, List.mem_singleton] at hmem
    rcases hmem with hmem | hmem | hmem
    · cases hmem
    · have := h _ hmem
      revert this
      decide
    · cases hmem
  · rw [List.cons_append, Nesting.pass?, if_neg (by decide)]
    show Nesting.pass? ⟨.outside, 1, 0⟩ (inner ++ ['\x7d']) = some {}
    rw [Nesting.pass?_append, hpass inner h]
    rfl

/-- The braces around a text that has nothing to trim are found. -/
theorem insideBraces?_braced {inner : List Char} (h : trim inner = inner)
    (hoperand : Operand {} ('\x7b' :: inner ++ ['\x7d'])) :
    insideBraces? ('\x7b' :: inner ++ ['\x7d']) = some inner := by
  rw [insideBraces?, hoperand.trimmed]
  simp [before?, h]

theorem mapM_readRegister_parts {registers : List Register} (hne : registers ≠ [])
    {front : List Char} (hfront : Blanks front) :
    (parts (· == ',') (front ++ [',', ' '].intercalate (registers.map (·.text.toList)))).mapM
      (readRegister method) = .ok registers := by
  induction registers generalizing front with
  | nil => exact absurd rfl hne
  | cons register registers ih =>
      have hread : readRegister method (front ++ register.text.toList) = .ok register := by
        rw [readRegister_congr method (trim_blanks_append _ hfront), readRegister_text]
      have hcomma : ∀ c ∈ front ++ register.text.toList, (c == ',') = false := by
        intro c hc
        rw [beq_eq_false_iff_ne]
        rintro rfl
        rcases List.mem_append.mp hc with hc | hc
        · exact absurd (hfront _ hc) (by decide)
        · exact Register.not_mem_text (by decide) hc
      cases registers with
      | nil =>
          rw [List.map_singleton, List.intercalate_singleton, parts_eq_singleton hcomma]
          simp [hread]
      | cons register' registers =>
          have hblank : Blanks [' '] := blanks_of_all rfl
          have hrest := ih (List.cons_ne_nil _ _) hblank
          rw [List.map_cons, List.map_cons, List.intercalate_cons_cons, List.append_assoc,
            ← List.append_assoc front, List.cons_append, parts_append _ hcomma rfl, List.mapM_cons,
            hread]
          rw [List.map_cons] at hrest
          rw [ok_bind, List.cons_append, List.nil_append, ← List.singleton_append, hrest]
          rfl

theorem toList_braced (inner : String) :
    ("\x7b" ++ inner ++ "\x7d").toList = '\x7b' :: inner.toList ++ ['\x7d'] := by
  simp

theorem operand_list (registers : List Register) :
    Operand {} ("\x7b" ++ Register.listText registers ++ "\x7d").toList := by
  rw [toList_braced]
  refine operand_braced fun c hc => ?_
  rcases isWord_or_of_mem_listText registers c hc with h | h | h
  · exact .inl h
  · exact .inr (.inl h)
  · exact .inr (.inr (.inl h))

/-- A list of registers between braces reads as these registers. -/
theorem readRegisterList_list (registers : List Register) :
    readRegisterList method ("\x7b" ++ Register.listText registers ++ "\x7d").toList =
      .ok registers := by
  have hoperand := operand_list registers
  rw [toList_braced] at hoperand ⊢
  rw [readRegisterList, insideBraces?_braced (trim_listText registers) hoperand]
  cases registers with
  | nil => rfl
  | cons register others =>
      have hne : (Register.listText (register :: others)).toList ≠ [] := by
        intro hnil
        rw [toList_listText, List.map_cons, intercalate_cons] at hnil
        exact register.text_ne_nil (List.append_eq_nil_iff.mp hnil).1
      have hdot : '.' ∉ (Register.listText (register :: others)).toList := by
        intro hdot
        exact absurd (isWord_or_of_mem_listText _ _ hdot) (by decide)
      have hread := mapM_readRegister_parts method (List.cons_ne_nil register others)
        (List.forall_mem_nil _)
      rw [List.nil_append, ← toList_listText] at hread
      simp only [List.isEmpty_iff, if_neg hne, cutOn?_eq_none hdot]
      exact hread

/-- The text between the braces of a run. -/
theorem toList_runText (first last : Register) :
    (first.text ++ " .. " ++ last.text).toList =
      first.text.toList ++ [' '] ++ ['.', '.'] ++ ([' '] ++ last.text.toList) := by
  simp

theorem operand_run (first last : Register) :
    Operand {} ("\x7b" ++ (first.text ++ " .. " ++ last.text) ++ "\x7d").toList := by
  rw [toList_braced, toList_runText]
  refine operand_braced fun c hc => ?_
  simp only [List.mem_append, List.mem_cons, List.not_mem_nil, or_false] at hc
  rcases hc with ((hc | hc) | hc | hc) | hc | hc
  · exact .inl (first.isWord_of_mem_text c hc)
  · exact .inr (.inr (.inl hc))
  · exact .inr (.inr (.inr hc))
  · exact .inr (.inr (.inr hc))
  · exact .inr (.inr (.inl hc))
  · exact .inl (last.isWord_of_mem_text c hc)

theorem trim_runText (first last : Register) :
    trim (first.text ++ " .. " ++ last.text).toList =
      (first.text ++ " .. " ++ last.text).toList := by
  refine trim_eq_self_iff.mpr ⟨?_, ?_⟩
  · intro c hc
    rw [toList_runText, Register.toList_text] at hc
    cases hc
    rfl
  · rw [String.toList_append, List.getLast?_append_of_ne_nil _ last.text_ne_nil]
    exact (trim_eq_self_iff.mp last.trim_text).2

/-- The ends of a run of registers between braces read as the run. -/
theorem readRegisterList_run (first last : Register) :
    readRegisterList method ("\x7b" ++ (first.text ++ " .. " ++ last.text) ++ "\x7d").toList =
      if last < first then
        .error (.invalidRegisterRange ("\x7b" ++ (first.text ++ " .. " ++ last.text) ++ "\x7d"))
      else .ok (registerRange first last) := by
  have hblank : Blanks [' '] := blanks_of_all rfl
  have hfirst : readRegister method (first.text.toList ++ [' ']) = .ok first := by
    rw [readRegister_congr method (trim_append_blanks _ hblank), readRegister_text]
  have hlast : readRegister method ([' '] ++ last.text.toList) = .ok last := by
    rw [readRegister_congr method (trim_blanks_append _ hblank), readRegister_text]
  have hcut : cutOn? ['.', '.'] (first.text ++ " .. " ++ last.text).toList =
      some (first.text.toList ++ [' '], [' '] ++ last.text.toList) := by
    rw [toList_runText]
    refine cutOn?_append _ fun hdot => ?_
    rcases List.mem_append.mp hdot with hdot | hdot
    · exact Register.not_mem_text (by decide) hdot
    · revert hdot
      decide
  have hne : (first.text ++ " .. " ++ last.text).toList ≠ [] := by simp
  have hinside := insideBraces?_braced (trim_runText first last)
    (toList_braced _ ▸ operand_run first last)
  rw [← toList_braced] at hinside
  rw [readRegisterList, hinside]
  simp only [List.isEmpty_iff, if_neg hne, hcut, hfirst, hlast, ok_bind, String.ofList_toList]

/-! ## Literals and labels -/

theorem toList_literalText (literal : Int64) :
    (Instruction.literalText literal).toList =
      (if literal.toInt < 0 then ['-', '0', 'x'] else ['0', 'x']) ++
        Numeral.digitsOf 14 literal.toInt.natAbs := by
  rw [Instruction.literalText, String.toList_append, Numeral.toList_hex]
  split <;> rfl

theorem operand_literalText (literal : Int64) :
    Operand {} (Instruction.literalText literal).toList := by
  refine operand_of_forall_isWord fun c hc => ?_
  rw [toList_literalText, List.mem_append] at hc
  rcases hc with hc | hc
  · revert c
    split
    · exact isWord_of_all rfl
    · exact isWord_of_all rfl
  · exact isWord_of_mem_digitsOf (by decide) _ c hc

/-- Numbers of the size of a literal read as themselves. -/
theorem readMagnitude?_hex {n : Nat} (h : n < UInt64.size) :
    readMagnitude? ('0' :: 'x' :: Numeral.digitsOf 14 n) = some (.ofNat n) := by
  have hdigits : ∀ c ∈ Numeral.digitsOf 14 n, (c == 'L' || c == 'l') = false :=
    forall_mem_digitsOf (by decide) (by decide) n
  have hdrop : (('0' :: 'x' :: Numeral.digitsOf 14 n).reverse.dropWhile
      fun c => c == 'L' || c == 'l').reverse = '0' :: 'x' :: Numeral.digitsOf 14 n := by
    refine List.rdropWhile_eq_self_iff.mpr fun hne => ?_
    have hlast :
        List.getLast ('0' :: 'x' :: Numeral.digitsOf 14 n) hne ∈ Numeral.digitsOf 14 n := by
      rw [List.getLast_cons (List.cons_ne_nil _ _), List.getLast_cons (Numeral.digitsOf_ne_nil _ _)]
      exact List.getLast_mem _
    exact (Bool.not_eq_true _).mpr (hdigits _ hlast)
  have hread : Numeral.unsigned? 16 UInt64.size (Numeral.digitsOf 14 n) = some n :=
    Numeral.unsigned?_digitsOf (by decide) h
  rw [readMagnitude?, hdrop]
  exact congrArg (Option.map UInt64.ofNat) hread

theorem toInt64_eq_ofInt (magnitude : UInt64) : magnitude.toInt64 = .ofInt magnitude.toNat := by
  apply Int64.toBitVec_inj.mp
  simp

theorem readLiteral_eq (operand : List Char) : readLiteral operand =
    match readMagnitude? (splitSign (trim operand)).2 with
    | some magnitude =>
      .ok (if (splitSign (trim operand)).1 then -magnitude.toInt64 else magnitude.toInt64)
    | none => .error (.invalidLiteral (String.ofList (trim operand))) := rfl

theorem readLiteral_of_splitSign {operand body : List Char} {negative : Bool} {n : Nat}
    (hsign : splitSign (trim operand) = (negative, body))
    (hread : readMagnitude? body = some (.ofNat n)) (hn : n < UInt64.size) :
    readLiteral operand = .ok (.ofInt (if negative then -n else n)) := by
  have hvalue : (UInt64.ofNat n).toInt64 = .ofInt n := by
    rw [toInt64_eq_ofInt, UInt64.toNat_ofNat_of_lt' hn]
  rw [readLiteral_eq, hsign]
  dsimp only
  rw [hread]
  dsimp only
  rw [hvalue]
  cases negative with
  | true => exact congrArg Except.ok (Int64.ofInt_neg n).symm
  | false => rfl

theorem readLiteral_literalText (literal : Int64) :
    readLiteral (Instruction.literalText literal).toList = .ok literal := by
  have hsize : literal.toInt.natAbs < UInt64.size := by
    have := literal.toInt_lt
    have := literal.le_toInt
    simp only [UInt64.size]
    omega
  have hsign : splitSign (trim (Instruction.literalText literal).toList) =
      (decide (literal.toInt < 0), '0' :: 'x' :: Numeral.digitsOf 14 literal.toInt.natAbs) := by
    rw [(operand_literalText literal).trimmed, toList_literalText]
    by_cases hneg : literal.toInt < 0
    · rw [if_pos hneg, decide_eq_true hneg]
      rfl
    · rw [if_neg hneg, decide_eq_false hneg]
      rfl
  have habs : (if literal.toInt < 0 then -(literal.toInt.natAbs : Int) else literal.toInt.natAbs) =
      literal.toInt := by
    split <;> omega
  have hread := readLiteral_of_splitSign hsign (readMagnitude?_hex hsize) hsize
  simp only [decide_eq_true_eq] at hread
  rw [hread, habs, Int64.ofInt_toInt]

/-- The name that a listing gives to the instruction with the index. -/
def labelName (index : Nat) : List Char := 'L' :: Numeral.digitsOf 8 index

theorem labelName_injective {i j : Nat} (h : labelName i = labelName j) : i = j :=
  Numeral.digitsOf_injective (by decide) (List.cons_inj_right _ |>.mp h)

theorem toList_labelText (index : Nat) :
    (Instruction.labelText index).toList = ':' :: labelName index := by
  simp [Instruction.labelText, labelName]

theorem isWord_of_mem_labelName (index : Nat) : ∀ c ∈ labelName index, IsWord c := by
  rw [labelName, List.forall_mem_cons]
  exact ⟨by decide, isWord_of_mem_digitsOf (by decide) _⟩

theorem operand_labelText (index : Nat) : Operand {} (Instruction.labelText index).toList := by
  rw [toList_labelText]
  exact operand_of_forall_isWord
    (List.forall_mem_cons.mpr ⟨by decide, isWord_of_mem_labelName index⟩)

theorem readLabel_eq_ok_iff {labels : Labels} {operand : List Char} {target : Nat} :
    readLabel labels operand = .ok target ↔
      ∃ name, trim operand = ':' :: name ∧ labels.lookup name = some target := by
  rw [readLabel]
  constructor
  · intro h
    split at h
    · rename_i name hname
      split at h
      · rename_i found hfound
        cases h
        exact ⟨name, hname, hfound⟩
      · cases h
    · cases h
  · rintro ⟨name, hname, hlookup⟩
    rw [hname]
    simp only [hlookup]

theorem readLabel_labelText {labels : Labels} {index position : Nat}
    (h : labels.lookup (labelName index) = some position) :
    readLabel labels (Instruction.labelText index).toList = .ok position := by
  rw [readLabel, (operand_labelText index).trimmed, toList_labelText]
  simp only [h]

/-! ## References and prototypes -/

theorem readPrototype_toList {operand : List Char} {prototype : String}
    (h : readPrototype operand = .ok prototype) :
    prototype.toList = trim operand ∧ readPrototype prototype.toList = .ok prototype := by
  have hread : ∀ cs, readPrototype (trim cs) = readPrototype cs := by
    intro cs
    simp only [readPrototype, trim_trim]
  have htext : prototype.toList = trim operand := by
    simp only [readPrototype] at h
    split at h
    · cases h
      simp
    · cases h
  exact ⟨htext, by rw [htext, hread, h]⟩

theorem readReference_eq_ok_iff {kind : ReferenceKind} {operand : List Char}
    {reference : Reference} :
    readReference kind operand = .ok reference ↔ Reference.read kind operand = .ok reference := by
  rw [readReference]
  split <;> simp_all

/-- A quoted text keeps to itself, whatever it holds. -/
theorem operand_quote (cs : List Char) : Operand {} (Quoted.quote cs) := by
  refine ⟨Reference.trim_quote cs, ?_, ?_⟩
  · have hescape : '\n' ∉ Quoted.escape cs := by
      fun_induction Quoted.escape cs with
      | case1 => exact List.not_mem_nil
      | case2 cs ih => simpa using ih
      | case3 cs ih => simpa using ih
      | case4 cs ih => simpa using ih
      | case5 cs ih => simpa using ih
      | case6 c cs _ _ hline _ ih => simpa [ih] using Ne.symm hline
    simpa [Quoted.quote] using hescape
  · have hescape : Nesting.pass? ⟨.inside, 0, 0⟩ (Quoted.escape cs) = some ⟨.inside, 0, 0⟩ := by
      fun_induction Quoted.escape cs with
      | case1 => rfl
      | case2 cs ih => exact ih
      | case3 cs ih => exact ih
      | case4 cs ih => exact ih
      | case5 cs ih => exact ih
      | case6 c cs hquote hbackslash _ _ ih =>
          have hnext : Quoting.next .inside c = .inside := by
            rw [Quoting.next, if_neg hbackslash, if_neg hquote]
          rw [Nesting.pass?, if_neg (by simp [Nesting.isOpen])]
          simpa [Nesting.next, hnext] using ih
    rw [Quoted.quote, List.cons_append, Nesting.pass?, if_neg (by decide)]
    show Nesting.pass? ⟨.inside, 0, 0⟩ (Quoted.escape cs ++ ['"']) = some {}
    rw [Nesting.pass?_append, hescape]
    rfl

end Smali

end DexGraft
