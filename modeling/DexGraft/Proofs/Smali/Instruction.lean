import DexGraft.Proofs.Code.Opcode
import DexGraft.Proofs.Smali.Line
import DexGraft.Proofs.Smali.Operand

/-!
# Instructions read back

An instruction that was assembled shows operands which can stand on a line and read as the same
instruction, with two exceptions: an unconditional branch, whose label stands behind a comma that
nothing stands in front of, and registers that are shown as a run but are none.  `Plain` leaves the
exceptions out, and is exactly what it takes for an instruction to read as itself.
-/

namespace DexGraft

open Text Outcome Smali

/-! ## The number of operands -/

/-- How many operands the registers are. -/
def RegisterForm.operandCount : RegisterForm → Nat
  | .fixed count => count
  | .list | .range => 1

/-- How many operands there are behind the registers. -/
def Trailing.operandCount : Trailing → Nat
  | .nothing => 0
  | .literal | .reference _ | .branch | .payload => 1
  | .prototyped => 2

/-- The operands of an opcode are its registers and what follows them. -/
theorem Opcode.operandCount_format (opcode : Opcode) : opcode.format.operandCount =
    opcode.format.registers.operandCount + opcode.format.trailing.operandCount := by
  cases opcode <;> rfl

/-! ## The operands that are shown -/

/-- Each register is the one behind the register in front of it. -/
def Ascending (registers : List Register) : Prop :=
  registers.IsChain fun a b => b.toNat = a.toNat + 1

instance : DecidablePred Ascending := fun registers =>
  inferInstanceAs (Decidable (registers.IsChain _))

namespace Instruction

/-- The instruction is no unconditional branch, and shows its registers as a run only if they are. -/
def Plain (instruction : Instruction) : Prop :=
  instruction.opcode.format ≠ ⟨.fixed 0, .branch⟩ ∧
    (instruction.opcode.format.registers = .range → Ascending instruction.registers)

instance : DecidablePred Plain := fun _ => inferInstanceAs (Decidable (_ ∧ _))

/-- The operands that show the registers: an empty one where there is no register to show. -/
def registerTexts (instruction : Instruction) : List (List Char) :=
  match instruction.opcode.format.registers with
  | .fixed _ =>
    if instruction.registers = [] then [[]] else instruction.registers.map (·.text.toList)
  | .list | .range => [instruction.registersText.toList]

/-- The operands behind the registers. -/
def trailingTexts (instruction : Instruction) : List (List Char) :=
  ((instruction.literal.map literalText).toList ++
    (instruction.reference.map Reference.text).toList ++
    instruction.prototype.toList ++
    (instruction.target.map labelText).toList).map String.toList

/-- The operands in the text of the instruction. -/
def operandTexts (instruction : Instruction) : List (List Char) :=
  if instruction.opcode.format = ⟨.fixed 0, .nothing⟩ then []
  else instruction.registerTexts ++ instruction.trailingTexts

theorem toList_operandText {α : Type} (text : α → String) (value : Option α) :
    (operandText text value).toList =
      ((value.map text).toList.map String.toList).flatMap ([',', ' '] ++ ·) := by
  cases value <;> simp [operandText]

theorem registerTexts_ne_nil (instruction : Instruction) : instruction.registerTexts ≠ [] := by
  rw [registerTexts]
  split
  · split
    · nofun
    · simpa using ‹_›
  · nofun
  · nofun

theorem toList_registersText (instruction : Instruction) :
    instruction.registersText.toList = [',', ' '].intercalate instruction.registerTexts := by
  cases hform : instruction.opcode.format.registers with
  | fixed count =>
      simp only [registersText, registerTexts, hform]
      rw [toList_listText]
      split
      · rename_i hnil
        rw [hnil]
        rfl
      · rfl
  | list => simp only [registerTexts, hform, List.intercalate_singleton]
  | range => simp only [registerTexts, hform, List.intercalate_singleton]

/-- The text is the mnemonic and the operands behind it. -/
theorem toList_text (instruction : Instruction) :
    instruction.text.toList = instruction.opcode.mnemonic.toList ++
      if instruction.opcode.format = ⟨.fixed 0, .nothing⟩ then []
      else ' ' :: [',', ' '].intercalate instruction.operandTexts := by
  rw [text, operandTexts]
  split
  · rw [List.append_nil]
  · rw [intercalate_append _ _ instruction.registerTexts_ne_nil]
    simp only [String.toList_append, toList_operandText, toList_registersText, trailingTexts,
      List.map_append, List.flatMap_append]
    simp

end Instruction

/-! ## What assembling provides -/

/--
What an instruction has behind its registers, by the form of its opcode: nothing else, and texts that
can be written as operands and read again.
-/
inductive Trails :
    Trailing → Option Int64 → Option Reference → Option Nat → Option String → Prop
  | nothing : Trails .nothing none none none none
  | literal (value : Int64) : Trails .literal (some value) none none none
  | reference {kind : ReferenceKind} {reference : Reference} {last : Nesting}
      (closed : last.isClosed) (operand : Operand last reference.text.toList)
      (read : readReference kind reference.text.toList = .ok reference) :
      Trails (.reference kind) none (some reference) none none
  | prototyped {reference : Reference} {prototype : String} {last : Nesting}
      (operand : Operand {} reference.text.toList)
      (read : readReference .method reference.text.toList = .ok reference)
      (closed : last.isClosed) (operand' : Operand last prototype.toList)
      (read' : readPrototype prototype.toList = .ok prototype) :
      Trails .prototyped none (some reference) none (some prototype)
  | branch (target : Nat) : Trails .branch none none (some target) none
  | payload (target : Nat) : Trails .payload none none (some target) none

/-- What assembling provides an instruction with. -/
structure Assembled (instruction : Instruction) : Prop where
  known : Opcode.ofMnemonic? instruction.opcode.mnemonic = some instruction.opcode
  count : ∀ count, instruction.opcode.format.registers = .fixed count →
    instruction.registers.length = count
  trails : Trails instruction.opcode.format.trailing instruction.literal instruction.reference
    instruction.target instruction.prototype

namespace Smali

/-- A reference can be written where it was read. -/
theorem operand_of_readReference {kind : ReferenceKind} {operand : List Char} {last : Nesting}
    {reference : Reference} (h : readReference kind operand = .ok reference)
    (hoperand : Operand last operand) (hkind : kind ≠ .string) :
    Operand last reference.text.toList ∧
      readReference kind reference.text.toList = .ok reference := by
  have htext := Reference.toList_text_of_read (readReference_eq_ok_iff.mp h) hkind
  rw [hoperand.trimmed] at htext
  rw [htext]
  exact ⟨hoperand, h⟩

/-- A string can be written anywhere. -/
theorem operand_of_readReference_string {operand : List Char} {reference : Reference}
    (h : readReference .string operand = .ok reference) :
    Operand {} reference.text.toList ∧
      readReference .string reference.text.toList = .ok reference := by
  obtain ⟨value, rfl⟩ := Reference.exists_of_read_string (readReference_eq_ok_iff.mp h)
  refine ⟨?_, readReference_eq_ok_iff.mpr (Reference.read_string_text value)⟩
  rw [Reference.text, String.toList_ofList]
  exact operand_quote value.toList

/-- The operands behind the registers, and how many registers the opcode makes them. -/
theorem of_readRegisters {method : Method} {form : RegisterForm}
    {operands rest : List (List Char)} {registers : List Register}
    (h : readRegisters method form operands = .ok (registers, rest)) :
    (∃ count, rest = operands.drop count) ∧
      ∀ count, form = .fixed count → registers.length = min count operands.length := by
  cases form with
  | fixed count =>
      rw [readRegisters, bind_eq_ok_iff] at h
      obtain ⟨read, hread, h⟩ := h
      cases h
      refine ⟨⟨count, rfl⟩, fun count' hcount => ?_⟩
      cases hcount
      rw [length_of_mapM hread, List.length_take]
  | list | range =>
      refine ⟨?_, nofun⟩
      cases operands with
      | nil =>
          cases h
          exact ⟨0, rfl⟩
      | cons operand operands =>
          rw [readRegisters, bind_eq_ok_iff] at h
          obtain ⟨read, -, h⟩ := h
          cases h
          exact ⟨1, rfl⟩

/-- What the operands behind the registers read as, by the form of the opcode. -/
inductive Reads (labels : Labels) :
    Trailing → List (List Char) → Option Int64 → Option Reference → Option Nat → Option String → Prop
  | nothing : Reads labels .nothing [] none none none none
  | literal {text : List Char} {value : Int64} (read : readLiteral text = .ok value) :
      Reads labels .literal [text] (some value) none none none
  | reference {kind : ReferenceKind} {text : List Char} {reference : Reference}
      (read : readReference kind text = .ok reference) :
      Reads labels (.reference kind) [text] none (some reference) none none
  | prototyped {text text' : List Char} {reference : Reference} {prototype : String}
      (read : readReference .method text = .ok reference)
      (read' : readPrototype text' = .ok prototype) :
      Reads labels .prototyped [text, text'] none (some reference) none (some prototype)
  | branch {text : List Char} {target : Nat} (read : readLabel labels text = .ok target) :
      Reads labels .branch [text] none none (some target) none
  | payload {text : List Char} {target : Nat} (read : readLabel labels text = .ok target) :
      Reads labels .payload [text] none none (some target) none

/-- The kind of reference that an opcode takes is the one that its form says. -/
theorem readReferenceFor_eq {opcode : Opcode} {kind : ReferenceKind}
    (h : opcode.format.trailing = .reference kind) (operand : List Char) :
    readReferenceFor opcode operand = readReference kind operand := by
  rw [readReferenceFor, opcode.referenceKind?_eq, h]
  rfl

theorem readReferenceFor_eq_of_prototyped {opcode : Opcode}
    (h : opcode.format.trailing = .prototyped) (operand : List Char) :
    readReferenceFor opcode operand = readReference .method operand := by
  rw [readReferenceFor, opcode.referenceKind?_eq, h]
  rfl

/-- An instruction consists of what its operands read as, and their number is right. -/
theorem of_instruction {scope : Scope} {opcode : Opcode} {operands : List (List Char)}
    {result : Instruction} (h : instruction scope opcode operands = .ok result) :
    operands.length = opcode.format.operandCount ∧ result.opcode = opcode ∧
      ∃ rest, readRegisters scope.method opcode.format.registers operands =
          .ok (result.registers, rest) ∧
        Reads scope.labels opcode.format.trailing rest result.literal result.reference result.target
          result.prototype := by
  simp only [instruction] at h
  split at h
  · cases h
  rename_i hlength
  obtain ⟨⟨registers, rest⟩, hregisters, h⟩ := bind_eq_ok_iff.mp h
  rw [hregisters]
  refine ⟨not_not.mp hlength, ?_⟩
  dsimp only at h
  split at h
  · rename_i htrailing
    cases h
    exact ⟨rfl, _, rfl, htrailing ▸ .nothing⟩
  · rename_i text htrailing
    obtain ⟨value, hread, h⟩ := bind_eq_ok_iff.mp h
    cases h
    exact ⟨rfl, _, rfl, htrailing ▸ .literal hread⟩
  · rename_i kind text htrailing
    obtain ⟨reference, hread, h⟩ := bind_eq_ok_iff.mp h
    rw [readReferenceFor_eq htrailing] at hread
    cases h
    exact ⟨rfl, _, rfl, htrailing ▸ .reference hread⟩
  · rename_i text text' htrailing
    obtain ⟨reference, hread, h⟩ := bind_eq_ok_iff.mp h
    obtain ⟨prototype, hread', h⟩ := bind_eq_ok_iff.mp h
    rw [readReferenceFor_eq_of_prototyped htrailing] at hread
    cases h
    exact ⟨rfl, _, rfl, htrailing ▸ .prototyped hread hread'⟩
  · rename_i text htrailing
    obtain ⟨target, hread, h⟩ := bind_eq_ok_iff.mp h
    cases h
    exact ⟨rfl, _, rfl, htrailing ▸ .branch hread⟩
  · rename_i text htrailing
    obtain ⟨target, hread, h⟩ := bind_eq_ok_iff.mp h
    cases h
    exact ⟨rfl, _, rfl, htrailing ▸ .payload hread⟩
  all_goals cases h

/-- What the operands read as makes up the instruction, if their number is right. -/
theorem instruction_of_reads {scope : Scope} {opcode : Opcode} {operands rest : List (List Char)}
    {registers : List Register} {literal : Option Int64} {reference : Option Reference}
    {target : Option Nat} {prototype : Option String}
    (hlength : operands.length = opcode.format.operandCount)
    (hregisters : readRegisters scope.method opcode.format.registers operands =
      .ok (registers, rest))
    (hreads : Reads scope.labels opcode.format.trailing rest literal reference target prototype) :
    instruction scope opcode operands =
      .ok ⟨opcode, registers, literal, reference, target, prototype⟩ := by
  rw [instruction, if_neg (not_not.mpr hlength), hregisters, ok_bind]
  generalize htrailing : opcode.format.trailing = trailing at hreads ⊢
  cases hreads with
  | nothing => rfl
  | literal read =>
      show (readLiteral _ >>= fun _ => _) = _
      rw [read]
      rfl
  | reference read =>
      show (readReferenceFor _ _ >>= fun _ => _) = _
      rw [readReferenceFor_eq htrailing, read]
      rfl
  | prototyped read read' =>
      show (readReferenceFor _ _ >>= fun _ => readPrototype _ >>= fun _ => _) = _
      rw [readReferenceFor_eq_of_prototyped htrailing, read, ok_bind, read']
      rfl
  | branch read | payload read =>
      show (readLabel scope.labels _ >>= fun _ => _) = _
      rw [read]
      rfl

/-- Operands that were read can be written again. -/
theorem Reads.trails {labels : Labels} {trailing : Trailing} {rest : List (List Char)}
    {literal : Option Int64} {reference : Option Reference} {target : Option Nat}
    {prototype : Option String} (h : Reads labels trailing rest literal reference target prototype)
    (hrest : AreOperands rest) : Trails trailing literal reference target prototype := by
  cases h with
  | nothing => exact .nothing
  | literal read => exact .literal _
  | @reference kind text reference read =>
      obtain ⟨last, hclosed, hoperand⟩ := hrest
      by_cases hkind : kind = .string
      · subst hkind
        obtain ⟨hoperand, hread⟩ := operand_of_readReference_string read
        exact .reference rfl hoperand hread
      · obtain ⟨hoperand, hread⟩ := operand_of_readReference read hoperand hkind
        exact .reference hclosed hoperand hread
  | prototyped read read' =>
      obtain ⟨hoperand, last, hclosed, hoperand'⟩ := hrest
      obtain ⟨hoperand, hread⟩ := operand_of_readReference read hoperand nofun
      obtain ⟨htext, hread'⟩ := readPrototype_toList read'
      rw [hoperand'.trimmed] at htext
      exact .prototyped hoperand hread hclosed (htext ▸ hoperand') hread'
  | branch read => exact .branch _
  | payload read => exact .payload _

/-- A target is what a label stands for. -/
theorem Reads.exists_readLabel {labels : Labels} {trailing : Trailing} {rest : List (List Char)}
    {literal : Option Int64} {reference : Option Reference} {target : Nat}
    {prototype : Option String}
    (h : Reads labels trailing rest literal reference (some target) prototype) :
    ∃ text, readLabel labels text = .ok target := by
  cases h with
  | branch read => exact ⟨_, read⟩
  | payload read => exact ⟨_, read⟩

/-- What assembling reads can be written again. -/
theorem assembled_of_instruction {scope : Scope} {opcode : Opcode} {operands : List (List Char)}
    {result : Instruction} (h : instruction scope opcode operands = .ok result)
    (hknown : Opcode.ofMnemonic? opcode.mnemonic = some opcode) (hoperands : AreOperands operands) :
    Assembled result := by
  obtain ⟨hlength, rfl, rest, hregisters, hreads⟩ := of_instruction h
  obtain ⟨⟨dropped, rfl⟩, hcount⟩ := of_readRegisters hregisters
  refine ⟨hknown, fun count hform => ?_, hreads.trails (hoperands.drop dropped)⟩
  rw [hcount count hform, hlength, Opcode.operandCount_format, hform]
  exact Nat.min_eq_left (Nat.le_add_right count _)

/-! ## Registers read back -/

/-- A run of registers is the one between its ends. -/
theorem map_toNat_of_ascending {registers : List Register} {first : Register}
    (h : Ascending (first :: registers)) :
    (first :: registers).map (·.toNat) = List.range' first.toNat (registers.length + 1) := by
  induction registers generalizing first with
  | nil => rfl
  | cons second registers ih =>
      rw [Ascending, List.isChain_cons_cons] at h
      rw [List.map_cons, ih h.2, h.1, List.length_cons]
      rfl

theorem registerRange_of_ascending {registers : List Register} {first last : Register}
    (h : Ascending registers) (hfirst : registers.head? = some first)
    (hlast : registers.getLast? = some last) :
    ¬ last < first ∧ registerRange first last = registers := by
  obtain ⟨rest, rfl⟩ : ∃ rest, registers = first :: rest := by
    cases registers with
    | nil => cases hfirst
    | cons register rest =>
        cases hfirst
        exact ⟨rest, rfl⟩
  have hmap := map_toNat_of_ascending h
  have hnat : last.toNat = first.toNat + rest.length := by
    have := congrArg List.getLast? hmap
    rw [List.getLast?_map, hlast, List.range'_concat] at this
    simpa using this
  constructor
  · rw [UInt16.lt_iff_toNat_lt]
    omega
  · have hcount : first.toNat + rest.length + 1 - first.toNat = rest.length + 1 := by omega
    rw [registerRange, hnat, hcount, ← hmap, List.map_map]
    simp [Function.comp_def]

theorem ascending_range' {first count : Nat} (h : first + count ≤ UInt16.size) :
    Ascending ((List.range' first count).map .ofNat) := by
  induction count generalizing first with
  | zero => exact .nil
  | succ count ih =>
      cases count with
      | zero => exact .singleton _
      | succ count =>
          rw [List.range'_succ, List.range'_succ, List.map_cons, List.map_cons, Ascending,
            List.isChain_cons_cons]
          refine ⟨?_, ?_⟩
          · rw [UInt16.toNat_ofNat_of_lt' (by omega), UInt16.toNat_ofNat_of_lt' (by omega)]
          · exact ih (by omega)

/-- What is read between two registers is a run. -/
theorem ascending_registerRange (first last : Register) : Ascending (registerRange first last) := by
  have := last.toNat_lt
  by_cases h : first.toNat ≤ last.toNat
  · exact ascending_range' (by rw [UInt16.size]; omega)
  · have hcount : last.toNat + 1 - first.toNat = 0 := by omega
    rw [registerRange, hcount]
    exact .nil

variable {instruction : Instruction} {method : Method} {rest : List (List Char)}

/-- What a run of registers is shown as: its ends, if there are any. -/
theorem registersText_range (hform : instruction.opcode.format.registers = .range) :
    (instruction.registers = [] ∧
        instruction.registersText = "\x7b" ++ Register.listText instruction.registers ++ "\x7d") ∨
      ∃ first last, instruction.registers.head? = some first ∧
        instruction.registers.getLast? = some last ∧
        instruction.registersText = "\x7b" ++ (first.text ++ " .. " ++ last.text) ++ "\x7d" := by
  cases hregisters : instruction.registers with
  | nil =>
      refine .inl ⟨rfl, ?_⟩
      simp only [Instruction.registersText, hform, hregisters]
      rfl
  | cons first registers =>
      refine .inr ⟨first, (first :: registers).getLast (List.cons_ne_nil _ _), rfl,
        List.getLast?_eq_some_getLast _, ?_⟩
      simp only [Instruction.registersText, hform, hregisters, List.head?_cons,
        List.getLast?_eq_some_getLast (List.cons_ne_nil first registers), String.append_assoc]

theorem registers_ne_nil (h : Assembled instruction)
    (hform : instruction.opcode.format.registers ≠ .fixed 0) {count : Nat}
    (hregisters : instruction.opcode.format.registers = .fixed count) :
    instruction.registers ≠ [] := by
  intro hnil
  have hlength := h.count count hregisters
  rw [hnil] at hlength
  rw [hregisters, ← hlength] at hform
  exact hform rfl

/-- The registers read as themselves, unless they are shown as a run that they are not. -/
theorem readRegisters_registerTexts (h : Assembled instruction)
    (hform : instruction.opcode.format.registers ≠ .fixed 0)
    (hrange : instruction.opcode.format.registers = .range → Ascending instruction.registers) :
    readRegisters method instruction.opcode.format.registers (instruction.registerTexts ++ rest) =
      .ok (instruction.registers, rest) := by
  cases hregisters : instruction.opcode.format.registers with
  | fixed count =>
      have hlength := h.count count hregisters
      have hne := registers_ne_nil h hform hregisters
      have hread : (instruction.registers.map (·.text.toList)).mapM (readRegister method) =
          .ok instruction.registers := by
        rw [List.mapM_map]
        have := mapM_eq_ok (l := instruction.registers)
          fun register _ => readRegister_text method register
        rwa [List.map_id'] at this
      have htake : (instruction.registers.map (·.text.toList)).length = count := by
        rw [List.length_map, hlength]
      simp only [Instruction.registerTexts, hregisters, if_neg hne, readRegisters,
        List.take_left' htake, List.drop_left' htake, hread, ok_bind]
  | list =>
      simp only [Instruction.registerTexts, Instruction.registersText, hregisters, readRegisters,
        List.singleton_append, readRegisterList_list method instruction.registers, ok_bind]
  | range =>
      have hread : readRegisterList method instruction.registersText.toList =
          .ok instruction.registers := by
        rcases registersText_range hregisters with ⟨-, htext⟩ | ⟨first, last, hfirst, hlast, htext⟩
        · rw [htext, readRegisterList_list method _]
        · obtain ⟨hlt, heq⟩ := registerRange_of_ascending (hrange hregisters) hfirst hlast
          rw [htext, readRegisterList_run method first last, if_neg hlt, heq]
      simp only [Instruction.registerTexts, hregisters, readRegisters, List.singleton_append, hread,
        ok_bind]

/-- Registers that are shown as a run do not read as themselves if they are none. -/
theorem ascending_of_readRegisters (hform : instruction.opcode.format.registers = .range)
    {rest' : List (List Char)}
    (h : readRegisters method .range (instruction.registerTexts ++ rest) =
      .ok (instruction.registers, rest')) : Ascending instruction.registers := by
  simp only [Instruction.registerTexts, hform, List.singleton_append, readRegisters] at h
  obtain ⟨registers, hread, heq⟩ := bind_eq_ok_iff.mp h
  cases heq
  rcases registersText_range hform with ⟨hnil, -⟩ | ⟨first, last, -, -, htext⟩
  · rw [hnil]
    exact .nil
  · rw [htext, readRegisterList_run method first last] at hread
    split at hread
    · cases hread
    · rw [← Except.ok.inj hread]
      exact ascending_registerRange first last

/-! ## Operands read back -/

theorem operand_of_mem_registerTexts {text : List Char} (h : text ∈ instruction.registerTexts) :
    Operand {} text := by
  cases hform : instruction.opcode.format.registers with
  | fixed count =>
      simp only [Instruction.registerTexts, hform] at h
      split at h
      · rw [List.mem_singleton.mp h]
        exact operand_of_forall_isWord (List.forall_mem_nil _)
      · obtain ⟨register, -, rfl⟩ := List.mem_map.mp h
        exact register.operand_text
  | list =>
      simp only [Instruction.registerTexts, hform, Instruction.registersText,
        List.mem_singleton] at h
      rw [h]
      exact operand_list instruction.registers
  | range =>
      simp only [Instruction.registerTexts, hform, List.mem_singleton] at h
      rw [h]
      rcases registersText_range hform with ⟨-, htext⟩ | ⟨first, last, -, -, htext⟩
      · rw [htext]
        exact operand_list _
      · rw [htext]
        exact operand_run first last

theorem ne_nil_of_readReference {kind : ReferenceKind} {operand : List Char}
    {reference : Reference} (h : readReference kind operand = .ok reference) : operand ≠ [] := by
  rintro rfl
  have := readReference_eq_ok_iff.mp h
  cases kind <;> cases this

theorem ne_nil_of_readPrototype {operand : List Char} {prototype : String}
    (h : readPrototype operand = .ok prototype) : operand ≠ [] := by
  rintro rfl
  cases h

/-- The operands behind the registers can stand behind them, and none of them is empty. -/
theorem areOperands_trailingTexts (h : Assembled instruction) :
    AreOperands instruction.trailingTexts ∧ ∀ text ∈ instruction.trailingTexts, text ≠ [] := by
  have label : ∀ target, (Instruction.labelText target).toList ≠ [] := by
    intro target
    rw [toList_labelText]
    nofun
  have htrails := h.trails
  simp only [Instruction.trailingTexts]
  generalize instruction.opcode.format.trailing = trailing at htrails
  generalize instruction.literal = literal at htrails
  generalize instruction.reference = reference at htrails
  generalize instruction.target = target at htrails
  generalize instruction.prototype = prototype at htrails
  cases htrails with
  | nothing => exact ⟨trivial, List.forall_mem_nil _⟩
  | literal value =>
      refine ⟨⟨{}, rfl, operand_literalText value⟩, List.forall_mem_singleton.mpr ?_⟩
      rw [toList_literalText]
      split <;> nofun
  | reference closed operand read =>
      exact ⟨⟨_, closed, operand⟩, List.forall_mem_singleton.mpr (ne_nil_of_readReference read)⟩
  | prototyped operand read closed operand' read' =>
      refine ⟨⟨operand, _, closed, operand'⟩, List.forall_mem_cons.mpr ⟨?_, ?_⟩⟩
      · exact ne_nil_of_readReference read
      · exact List.forall_mem_singleton.mpr (ne_nil_of_readPrototype read')
  | branch target =>
      exact ⟨⟨{}, rfl, operand_labelText target⟩, List.forall_mem_singleton.mpr (label target)⟩
  | payload target =>
      exact ⟨⟨{}, rfl, operand_labelText target⟩, List.forall_mem_singleton.mpr (label target)⟩

/-- An opcode without registers takes nothing or is an unconditional branch. -/
theorem format_of_fixed_zero {opcode : Opcode} (h : opcode.format.registers = .fixed 0) :
    opcode.format = ⟨.fixed 0, .nothing⟩ ∨ opcode.format = ⟨.fixed 0, .branch⟩ := by
  revert h
  cases opcode <;> decide

theorem ne_nil_of_mem_registerTexts (h : Assembled instruction)
    (hform : instruction.opcode.format.registers ≠ .fixed 0) {text : List Char}
    (hmem : text ∈ instruction.registerTexts) : text ≠ [] := by
  cases hregisters : instruction.opcode.format.registers with
  | fixed count =>
      have hne := registers_ne_nil h hform hregisters
      simp only [Instruction.registerTexts, hregisters, if_neg hne] at hmem
      obtain ⟨register, -, rfl⟩ := List.mem_map.mp hmem
      exact register.text_ne_nil
  | list =>
      simp only [Instruction.registerTexts, hregisters, Instruction.registersText,
        List.mem_singleton] at hmem
      rw [hmem, toList_braced]
      nofun
  | range =>
      simp only [Instruction.registerTexts, hregisters, List.mem_singleton] at hmem
      rw [hmem]
      rcases registersText_range hregisters with ⟨-, htext⟩ | ⟨first, last, -, -, htext⟩ <;>
        rw [htext, toList_braced] <;> nofun

/-- A branch shows its target and nothing else behind the registers. -/
theorem trailingTexts_of_branch (h : Assembled instruction)
    (hbranch : instruction.opcode.format.trailing = .branch) :
    ∃ target, instruction.target = some target ∧
      instruction.trailingTexts = [(Instruction.labelText target).toList] := by
  rcases instruction with ⟨opcode, registers, literal, reference, target, prototype⟩
  have htrails := h.trails
  rw [hbranch] at htrails
  cases htrails with
  | branch target => exact ⟨target, rfl, rfl⟩

/-- The operands of an assembled instruction can stand on a line, and the last is not empty. -/
theorem areOperands_operandTexts (h : Assembled instruction) :
    AreOperands instruction.operandTexts ∧ instruction.operandTexts.getLast? ≠ some [] := by
  obtain ⟨htrailing, hne⟩ := areOperands_trailingTexts h
  rw [Instruction.operandTexts]
  split
  · exact ⟨trivial, nofun⟩
  rename_i hformat
  refine ⟨areOperands_append (fun text => operand_of_mem_registerTexts) htrailing, fun hlast => ?_⟩
  rw [List.getLast?_append, Option.or_eq_some_iff] at hlast
  rcases hlast with hlast | ⟨hnone, hlast⟩
  · exact hne _ (List.mem_of_getLast? hlast) rfl
  · by_cases hform : instruction.opcode.format.registers = .fixed 0
    · -- a branch has its label at the end
      have hbranch := (format_of_fixed_zero hform).resolve_left hformat
      obtain ⟨target, -, htexts⟩ := trailingTexts_of_branch h (by rw [hbranch])
      rw [htexts] at hnone
      cases hnone
    · exact ne_nil_of_mem_registerTexts h hform (List.mem_of_getLast? hlast) rfl

/-! ## Instructions read back -/

theorem length_registerTexts (h : Assembled instruction)
    (hform : instruction.opcode.format.registers ≠ .fixed 0) :
    instruction.registerTexts.length = instruction.opcode.format.registers.operandCount := by
  cases hregisters : instruction.opcode.format.registers with
  | fixed count =>
      have hne := registers_ne_nil h hform hregisters
      simp only [Instruction.registerTexts, hregisters, if_neg hne, List.length_map,
        h.count count hregisters, RegisterForm.operandCount]
  | list | range =>
      simp only [Instruction.registerTexts, hregisters, List.length_singleton,
        RegisterForm.operandCount]

theorem length_trailingTexts (h : Assembled instruction) :
    instruction.trailingTexts.length = instruction.opcode.format.trailing.operandCount := by
  rcases instruction with ⟨opcode, registers, literal, reference, target, prototype⟩
  have htrails := h.trails
  dsimp only at htrails ⊢
  generalize opcode.format.trailing = trailing at htrails
  cases htrails <;> rfl

theorem length_operandTexts (h : Assembled instruction)
    (hform : instruction.opcode.format.registers ≠ .fixed 0) :
    instruction.operandTexts.length = instruction.opcode.format.operandCount := by
  have hformat : instruction.opcode.format ≠ ⟨.fixed 0, .nothing⟩ := fun heq => by
    rw [heq] at hform
    exact hform rfl
  rw [Instruction.operandTexts, if_neg hformat, List.length_append, length_registerTexts h hform,
    length_trailingTexts h, Opcode.operandCount_format]

/-- What is shown behind the registers reads as what the instruction has. -/
theorem reads_trailingTexts {labels : Labels} (h : Assembled instruction)
    (hlabels : ∀ target, instruction.target = some target →
      labels.lookup (labelName target) = some target) :
    Reads labels instruction.opcode.format.trailing instruction.trailingTexts instruction.literal
      instruction.reference instruction.target instruction.prototype := by
  have htrails := h.trails
  clear h
  rcases instruction with ⟨opcode, registers, literal, reference, target, prototype⟩
  dsimp only [Instruction.trailingTexts] at htrails hlabels ⊢
  generalize opcode.format.trailing = trailing at htrails ⊢
  cases htrails with
  | nothing => exact .nothing
  | literal value => exact .literal (readLiteral_literalText value)
  | reference closed operand read => exact .reference read
  | prototyped operand read closed operand' read' => exact .prototyped read read'
  | branch target => exact .branch (readLabel_labelText (hlabels target rfl))
  | payload target => exact .payload (readLabel_labelText (hlabels target rfl))

/-- The operands of a plain instruction read as the instruction. -/
theorem instruction_operandTexts {scope : Scope} (h : Assembled instruction)
    (hplain : instruction.Plain)
    (hlabels : ∀ target, instruction.target = some target →
      scope.labels.lookup (labelName target) = some target) :
    Smali.instruction scope instruction.opcode instruction.operandTexts = .ok instruction := by
  by_cases hform : instruction.opcode.format.registers = .fixed 0
  · have hformat := (format_of_fixed_zero hform).resolve_right hplain.1
    have hregisters := List.length_eq_zero_iff.mp (h.count 0 hform)
    have htrails := h.trails
    rcases instruction with ⟨opcode, registers, literal, reference, target, prototype⟩
    dsimp only at hformat hregisters htrails
    rw [hformat] at htrails
    cases htrails
    simp only [Instruction.operandTexts, Smali.instruction, hformat, hregisters]
    rfl
  · have hformat : instruction.opcode.format ≠ ⟨.fixed 0, .nothing⟩ := fun heq => by
      rw [heq] at hform
      exact hform rfl
    have hlength := length_operandTexts h hform
    rw [Instruction.operandTexts, if_neg hformat] at hlength ⊢
    exact instruction_of_reads hlength (readRegisters_registerTexts h hform hplain.2)
      (reads_trailingTexts h hlabels)

/-- Only a plain instruction has operands that read as the instruction. -/
theorem plain_of_instruction_operandTexts {scope : Scope} (h : Assembled instruction)
    (hread : Smali.instruction scope instruction.opcode instruction.operandTexts =
      .ok instruction) : instruction.Plain := by
  constructor
  · intro hformat
    obtain ⟨target, -, htexts⟩ := trailingTexts_of_branch h (by rw [hformat])
    have hregisters := List.length_eq_zero_iff.mp (h.count 0 (by rw [hformat]))
    simp only [Smali.instruction, Instruction.operandTexts, Instruction.registerTexts, hformat,
      htexts, hregisters] at hread
    cases hread
  · intro hform
    have hne : instruction.opcode.format.registers ≠ .fixed 0 := by
      rw [hform]
      nofun
    have hformat : instruction.opcode.format ≠ ⟨.fixed 0, .nothing⟩ := fun heq => by
      rw [heq] at hform
      cases hform
    obtain ⟨-, -, rest, hregisters, -⟩ := of_instruction hread
    rw [hform, Instruction.operandTexts, if_neg hformat] at hregisters
    exact ascending_of_readRegisters hform hregisters

/-! ## Texts read back -/

/-- The text of an instruction reads as its opcode and its operands, with blanks in front. -/
theorem read_text (h : Assembled instruction) {front : List Char} (hfront : Blanks front) :
    Line.read (front ++ instruction.text.toList) =
      .ok (.instruction instruction.opcode instruction.operandTexts) := by
  rw [Instruction.toList_text]
  split
  · rename_i hformat
    rw [List.append_nil, Instruction.operandTexts, if_pos hformat,
      Line.read_mnemonic h.known hfront]
  · rename_i hformat
    obtain ⟨hoperands, hlast⟩ := areOperands_operandTexts h
    refine Line.read_instruction h.known hfront hoperands ?_ hlast
    rw [Instruction.operandTexts, if_neg hformat]
    exact List.append_ne_nil_of_left_ne_nil instruction.registerTexts_ne_nil _

theorem trim_text (h : Assembled instruction) :
    trim instruction.text.toList = instruction.text.toList := by
  rw [Instruction.toList_text]
  split
  · obtain ⟨c, cs, hmnemonic, hletters⟩ := exists_mnemonic instruction.opcode
    rw [List.append_nil, hmnemonic, String.toList_ofList]
    exact trim_eq_self_of_forall fun d hd => (hletters d hd).2.1
  · rename_i hformat
    obtain ⟨hoperands, hlast⟩ := areOperands_operandTexts h
    have htrimmed : ∀ text ∈ instruction.operandTexts, trim text = text := fun text hmem =>
      (hoperands.forall_mem text hmem).elim fun _ h => h.2.trimmed
    refine Line.trim_mnemonic_append _ (trim_intercalate htrimmed hlast)
      (intercalate_ne_nil ?_ hlast)
    rw [Instruction.operandTexts, if_neg hformat]
    exact List.append_ne_nil_of_left_ne_nil instruction.registerTexts_ne_nil _

theorem not_mem_text (h : Assembled instruction) : '\n' ∉ instruction.text.toList := by
  obtain ⟨c, cs, hmnemonic, hletters⟩ := exists_mnemonic instruction.opcode
  rw [Instruction.toList_text, hmnemonic, String.toList_ofList, List.mem_append]
  rintro (hmem | hmem)
  · exact absurd (hletters _ hmem).2.1 (by decide)
  · split at hmem
    · cases hmem
    · rw [List.mem_cons] at hmem
      rcases hmem with hmem | hmem
      · cases hmem
      · exact not_mem_intercalate (areOperands_operandTexts h).1 hmem

theorem text_ne_nil (instruction : Instruction) : instruction.text.toList ≠ [] := by
  obtain ⟨c, cs, hmnemonic, -⟩ := exists_mnemonic instruction.opcode
  rw [Instruction.toList_text, hmnemonic, String.toList_ofList]
  nofun

end Smali

end DexGraft
