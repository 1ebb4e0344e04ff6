import DexGraft.Proofs.Smali.Content
import DexGraft.Proofs.Smali.Instruction

/-!
# Assembled instructions read back

Whatever text instructions were assembled from, the text of each of them assembles into it again, at
any place of any method, exactly if the instruction is plain.
-/

namespace DexGraft.Smali

open Text Outcome

/-! ## What is assembled -/

/-- The lines of a text hold operands that can be written again. -/
theorem operands_of_linesFrom {first : Nat} {texts : List (List Char)} {result : List (Nat × Line)}
    (h : linesFrom first texts = .ok result) (hline : ∀ text ∈ texts, '\n' ∉ text)
    {number : Nat} {opcode : Opcode} {operands : List (List Char)}
    (hmem : (number, Line.instruction opcode operands) ∈ result) :
    Opcode.ofMnemonic? opcode.mnemonic = some opcode ∧ AreOperands operands := by
  have hread : .ok (Line.instruction opcode operands) ∈ texts.map Line.read := by
    rw [linesFrom_eq_ok_iff.mp ⟨result, h, rfl⟩]
    exact List.mem_map_of_mem (List.mem_map_of_mem hmem)
  obtain ⟨text, htext, hread⟩ := List.mem_map.mp hread
  exact Line.of_read hread (hline text htext)

theorem assembled_of_mem {text : String} {method : Method} {base : Nat}
    {external : List ExternalLabel} {items : List Instruction}
    (h : assembleAt text method base external = .ok items) {item : Instruction}
    (hmem : item ∈ items) : Assembled item := by
  obtain ⟨lines, hlines, h⟩ := bind_eq_ok_iff.mp h
  obtain ⟨labels, -, h⟩ := bind_eq_ok_iff.mp h
  obtain ⟨number, opcode, operands, hline, hread⟩ := exists_of_mem_instructions h hmem
  obtain ⟨hknown, hoperands⟩ := operands_of_linesFrom hlines (fun _ => not_mem_of_mem_lines) hline
  exact assembled_of_instruction hread hknown hoperands

/-! ## Single instructions -/

/-- The text of an instruction is one line. -/
theorem lines_text {item : Instruction} (h : Assembled item) :
    lines item.text = .ok [(1, .instruction item.opcode item.operandTexts)] := by
  have hnil : Blanks [] := nofun
  have hread := read_text h hnil
  rw [List.nil_append] at hread
  rw [lines, lines_eq_singleton (not_mem_text h) (text_ne_nil item), linesFrom, hread]
  rfl

/-- What the text of an assembled instruction assembles into. -/
theorem assembleAt_text {item : Instruction} (h : Assembled item) (method : Method) (base : Nat)
    (external : List ExternalLabel) :
    assembleAt item.text method base external =
      instructions ⟨method, externalLabels base 1 external⟩
        [(1, .instruction item.opcode item.operandTexts)] := by
  rw [assembleAt, lines_text h]
  rfl

theorem instructions_singleton_iff {scope : Scope} {opcode : Opcode}
    {operands : List (List Char)} {number : Nat} {item : Instruction} :
    instructions scope [(number, .instruction opcode operands)] = .ok [item] ↔
      instruction scope opcode operands = .ok item := by
  rw [instructions]
  split
  · simp [instructions, Except.map, *]
  · simp [*]

/--
The text of an assembled instruction assembles into this instruction, its label standing for its
target, exactly if the instruction is plain: the comma in front of the label of an unconditional
branch makes an operand too many, and registers that are no run are lost when only the ends of a run
are shown.
-/
theorem assembleAt_text_iff_plain {text : String} {method : Method} {base : Nat}
    {external : List ExternalLabel} {items : List Instruction}
    (h : assembleAt text method base external = .ok items) {item : Instruction}
    (hmem : item ∈ items) {other : Method} {position : Nat} {names : List ExternalLabel}
    (hnames : ∀ target, item.target = some target →
      (externalLabels position 1 names).lookup (labelName target) = some target) :
    assembleAt item.text other position names = .ok [item] ↔ item.Plain := by
  have hassembled := assembled_of_mem h hmem
  rw [assembleAt_text hassembled, instructions_singleton_iff]
  exact ⟨plain_of_instruction_operandTexts hassembled,
    fun hplain => instruction_operandTexts hassembled hplain hnames⟩

/-- A conditional branch to the end of its text, put in front of an instruction that has the label. -/
theorem assembleAt_text_ifEqz :
    let method : Method := ⟨"La;", "b", [], "V", .empty, 1, []⟩
    let item : Instruction := ⟨.ifEqz, [0], none, none, some 1, none⟩
    assembleAt "if-eqz v0, :end\n:end" method 0 [] = .ok [item] ∧
      (externalLabels 0 1 [⟨"L1", 0⟩]).lookup (labelName 1) = some 1 ∧
      assembleAt item.text method 0 [⟨"L1", 0⟩] = .ok [item] := by
  intro method item
  have assembles : assembleAt "if-eqz v0, :end\n:end" method 0 [] = .ok [item] := by decide
  have bound : (externalLabels 0 1 [⟨"L1", 0⟩]).lookup (labelName 1) = some 1 := by
    rw [labelName, Numeral.digitsOf]
    decide
  have names : ∀ target, item.target = some target →
      (externalLabels 0 1 [⟨"L1", 0⟩]).lookup (labelName target) = some target := by
    intro target heq
    cases heq
    exact bound
  exact ⟨assembles, bound,
    (assembleAt_text_iff_plain assembles List.mem_cons_self names).mpr (by decide)⟩

/-- The text of an unconditional branch is refused: it has a comma in front of its only operand. -/
theorem assembleAt_text_goto :
    let method : Method := ⟨"La;", "b", [], "V", .empty, 1, []⟩
    let item : Instruction := ⟨.goto, [], none, none, some 0, none⟩
    assembleAt ":top\ngoto :top" method 0 [] = .ok [item] ∧
      (externalLabels 1 1 [⟨"L0", 0⟩]).lookup (labelName 0) = some 0 ∧
      item.text = "goto , :L0" ∧
      assembleAt item.text method 1 [⟨"L0", 0⟩] = .error (.assembly 1 (.operandCount "goto" 1 2)) := by
  intro method item
  have text : item.text = "goto , :L0" := by
    have digits : Numeral.decimal 0 = "0" := by
      rw [Numeral.decimal, Numeral.digitsOf]
      rfl
    simp only [Instruction.text, Instruction.operandText, Instruction.labelText, item, digits]
    rfl
  refine ⟨by decide, ?_, text, ?_⟩
  · rw [labelName, Numeral.digitsOf]
    decide
  · rw [text]
    decide

end DexGraft.Smali
