import DexGraft.Proofs.Code.Word
import DexGraft.Proofs.Smali.Content
import DexGraft.Proofs.Smali.Instruction

/-!
# Assembled instructions are well formed

Every line that holds an instruction is assembled into one which has exactly the operands that the
format of its opcode names, with the registers that the line names for the method, and which
branches to an instruction of the text, right behind them, or to where an external label has moved.
The formats of opcodes and the kinds of their references are tables of their own: that they agree
shows in that a text is never refused for what only the assembler could have got wrong.
-/

namespace DexGraft

open Text Outcome

/-! ## Well-formed instructions -/

/-- The instruction has exactly the operands that the format of its opcode names. -/
structure Instruction.WellFormed (instruction : Instruction) : Prop where
  registers : ∀ count, instruction.opcode.format.registers = .fixed count →
    instruction.registers.length = count
  literal : instruction.literal.isSome ↔ instruction.opcode.format.trailing = .literal
  reference : instruction.reference.isSome ↔
    (∃ kind, instruction.opcode.format.trailing = .reference kind) ∨
      instruction.opcode.format.trailing = .prototyped
  kind : ∀ reference, instruction.reference = some reference →
    instruction.opcode.referenceKind? = some reference.kind
  target : instruction.target.isSome ↔ instruction.opcode.format.trailing = .branch ∨
    instruction.opcode.format.trailing = .payload
  prototype : instruction.prototype.isSome ↔ instruction.opcode.format.trailing = .prototyped
  accepted : ∀ prototype, instruction.prototype = some prototype →
    Descriptor.isPrototype prototype.toList

theorem Reference.kind_of_read {kind : ReferenceKind} {cs : List Char} {reference : Reference}
    (h : Reference.read kind cs = .ok reference) : reference.kind = kind := by
  have check : ∀ {b : Bool} {checked : Reference} {text : String},
      (if b then .ok checked else .error (.invalidDescriptor text) : Except Error Reference) =
        .ok reference → checked = reference := by
    intro b checked text h
    split at h
    · exact Except.ok.inj h
    · cases h
  cases kind with
  | method =>
      obtain ⟨method, -, rfl⟩ := map_eq_ok_iff.mp h
      rfl
  | field =>
      obtain ⟨field, -, rfl⟩ := map_eq_ok_iff.mp h
      rfl
  | string =>
      obtain ⟨value, rfl⟩ := Reference.exists_of_read_string h
      rfl
  | type | methodHandle | methodType | callSite =>
      rw [← check h]
      rfl

namespace Smali

theorem isPrototype_of_readPrototype {operand : List Char} {prototype : String}
    (h : readPrototype operand = .ok prototype) : Descriptor.isPrototype prototype.toList := by
  rw [readPrototype] at h
  split at h
  · rename_i haccepted
    cases h
    rwa [String.toList_ofList]
  · cases h

/-! ## Registers -/

/-- The register that an operand names: `vN` is register `N`, and `pN` the register of the method
that holds its parameter register `N`. -/
inductive Names (method : Method) (operand : List Char) : Register → Prop
  | plain {digits : List Char} {n : Nat} (spelled : trim operand = 'v' :: digits)
      (number : Numeral.unsigned? 10 UInt16.size digits = some n) : Names method operand (.ofNat n)
  | parameter {digits : List Char} {n : Nat} {register : Register}
      (spelled : trim operand = 'p' :: digits)
      (number : Numeral.unsigned? 10 UInt16.size digits = some n)
      (held : method.parameterRegister? n = some register) : Names method operand register

/-- The registers that an operand lists between braces: none, a run by its ends, or each of them. -/
inductive Lists (method : Method) (operand : List Char) : List Register → Prop
  | none (inside : insideBraces? operand = some []) : Lists method operand []
  | run {inner front back : List Char} {first last : Register}
      (inside : insideBraces? operand = some inner)
      (ends : cutOn? ['.', '.'] inner = some (front, back)) (begins : Names method front first)
      (stops : Names method back last) (le : first ≤ last) :
      Lists method operand (registerRange first last)
  | each {inner : List Char} {registers : List Register}
      (inside : insideBraces? operand = some inner) (nonempty : inner ≠ [])
      (ends : cutOn? ['.', '.'] inner = Option.none)
      (names : List.Forall₂ (Names method) (parts (· == ',') inner) registers) :
      Lists method operand registers

/-- The registers that the operands of an instruction begin with. -/
def BeginWith (method : Method) :
    RegisterForm → List (List Char) → List Register → Prop
  | .fixed count, operands, registers =>
    List.Forall₂ (Names method) (operands.take count) registers
  | .list, operands, registers | .range, operands, registers =>
    ∃ operand, operands.head? = some operand ∧ Lists method operand registers

theorem readRegisterNumber_eq_ok_iff {text digits : List Char} {n : Nat} :
    readRegisterNumber text digits = .ok n ↔ Numeral.unsigned? 10 UInt16.size digits = some n := by
  rw [readRegisterNumber]
  split <;> simp_all

theorem readRegister_eq_ok_iff {method : Method} {operand : List Char} {register : Register} :
    readRegister method operand = .ok register ↔ Names method operand register := by
  rw [readRegister]
  constructor
  · intro h
    split at h
    · rename_i digits spelled
      obtain ⟨n, hnumber, rfl⟩ := map_eq_ok_iff.mp h
      exact .plain spelled (readRegisterNumber_eq_ok_iff.mp hnumber)
    · rename_i digits spelled
      obtain ⟨n, hnumber, h⟩ := bind_eq_ok_iff.mp h
      split at h
      · rename_i held
        cases h
        exact .parameter spelled (readRegisterNumber_eq_ok_iff.mp hnumber) held
      · cases h
    · cases h
  · intro h
    cases h with
    | plain spelled number =>
        simp only [spelled, readRegisterNumber_eq_ok_iff.mpr number]
        rfl
    | parameter spelled number held =>
        simp only [spelled, readRegisterNumber_eq_ok_iff.mpr number, ok_bind, held]

theorem readRegisterList_eq_ok_iff {method : Method} {operand : List Char}
    {registers : List Register} :
    readRegisterList method operand = .ok registers ↔ Lists method operand registers := by
  rw [readRegisterList]
  constructor
  · intro h
    split at h
    · cases h
    rename_i inner inside
    split at h
    · rename_i hempty
      rw [List.isEmpty_iff.mp hempty] at inside
      cases h
      exact .none inside
    rename_i hnonempty
    split at h
    · rename_i ends
      obtain ⟨first, hfirst, h⟩ := bind_eq_ok_iff.mp h
      obtain ⟨last, hlast, h⟩ := bind_eq_ok_iff.mp h
      split at h
      · cases h
      · rename_i hlt
        cases h
        exact .run inside ends (readRegister_eq_ok_iff.mp hfirst) (readRegister_eq_ok_iff.mp hlast)
          (UInt16.not_lt.mp hlt)
    · rename_i ends
      refine .each inside (fun hnil => hnonempty (List.isEmpty_iff.mpr hnil)) ends ?_
      exact (mapM_eq_ok_iff.mp h).imp fun _ _ => readRegister_eq_ok_iff.mp
  · intro h
    cases h with
    | none inside =>
        rw [inside]
        rfl
    | @run inner front back first last inside ends begins stops le =>
        have hnonempty : ¬ inner.isEmpty := by
          rw [List.isEmpty_iff]
          rintro rfl
          cases ends
        simp only [inside, if_neg hnonempty, ends, readRegister_eq_ok_iff.mpr begins,
          readRegister_eq_ok_iff.mpr stops, ok_bind, if_neg (UInt16.not_lt.mpr le)]
    | each inside nonempty ends names =>
        simp only [inside, List.isEmpty_iff, if_neg nonempty, ends]
        exact mapM_eq_ok_iff.mpr (names.imp fun _ _ => readRegister_eq_ok_iff.mpr)

/-- The operands of an instruction begin with its registers, and as many are left as the format has
behind these. -/
theorem of_readRegisters_format {method : Method} {format : Format}
    {operands rest : List (List Char)} {registers : List Register}
    (hlength : operands.length = format.registers.operandCount + format.trailing.operandCount)
    (h : readRegisters method format.registers operands = .ok (registers, rest)) :
    BeginWith method format.registers operands registers ∧
      rest.length = format.trailing.operandCount := by
  rcases format with ⟨registerForm, trailing⟩
  cases registerForm with
  | fixed count =>
      obtain ⟨read, hread, h⟩ := bind_eq_ok_iff.mp h
      cases h
      refine ⟨(mapM_eq_ok_iff.mp hread).imp fun _ _ => readRegister_eq_ok_iff.mp, ?_⟩
      rw [List.length_drop, hlength]
      exact Nat.add_sub_cancel_left _ _
  | list | range =>
      cases operands with
      | nil =>
          rw [List.length_nil, Nat.add_comm] at hlength
          cases hlength
      | cons operand operands =>
          obtain ⟨read, hread, h⟩ := bind_eq_ok_iff.mp h
          cases h
          refine ⟨⟨operand, rfl, readRegisterList_eq_ok_iff.mp hread⟩, ?_⟩
          rw [List.length_cons, Nat.add_comm] at hlength
          exact Nat.add_left_cancel hlength

/-! ## Instructions -/

/-- What the operands behind the registers read as is what the form of the opcode asks for. -/
theorem Reads.provides {labels : Labels} {trailing : Trailing} {rest : List (List Char)}
    {literal : Option Int64} {reference : Option Reference} {target : Option Nat}
    {prototype : Option String}
    (h : Reads labels trailing rest literal reference target prototype) :
    (literal.isSome ↔ trailing = .literal) ∧
      (reference.isSome ↔ (∃ kind, trailing = .reference kind) ∨ trailing = .prototyped) ∧
      (∀ found, reference = some found → trailing.referenceKind? = some found.kind) ∧
      (target.isSome ↔ trailing = .branch ∨ trailing = .payload) ∧
      (prototype.isSome ↔ trailing = .prototyped) ∧
      ∀ found, prototype = some found → Descriptor.isPrototype found.toList := by
  cases h with
  | nothing | literal read | branch read | payload read => simp
  | reference read =>
      have hkind := Reference.kind_of_read (readReference_eq_ok_iff.mp read)
      simp [Trailing.referenceKind?, hkind]
  | prototyped read read' =>
      have hkind := Reference.kind_of_read (readReference_eq_ok_iff.mp read)
      have haccepted := isPrototype_of_readPrototype read'
      simp [Trailing.referenceKind?, hkind, haccepted]

theorem wellFormed_of_instruction {scope : Scope} {opcode : Opcode} {operands : List (List Char)}
    {item : Instruction} (h : instruction scope opcode operands = .ok item) : item.WellFormed := by
  obtain ⟨hlength, rfl, rest, hregisters, hreads⟩ := of_instruction h
  obtain ⟨hliteral, hreference, hkind, htarget, hprototype, haccepted⟩ := hreads.provides
  refine ⟨fun count hform => ?_, hliteral, hreference, ?_, htarget, hprototype, haccepted⟩
  · rw [(of_readRegisters hregisters).2 count hform, hlength, Opcode.operandCount_format, hform]
    exact Nat.min_eq_left (Nat.le_add_right count _)
  · rw [Opcode.referenceKind?_eq]
    exact hkind

/-- What a line with an instruction is assembled into, in a text of as many instructions that is put
in at `base`. -/
structure MadeFrom (method : Method) (base count : Nat) (external : List ExternalLabel)
    (operation : Opcode × List (List Char)) (item : Instruction) : Prop where
  opcode : item.opcode = operation.1
  operands : operation.2.length = item.opcode.format.operandCount
  wellFormed : item.WellFormed
  registers : BeginWith method item.opcode.format.registers operation.2 item.registers
  target : ∀ target, item.target = some target → base ≤ target ∧ target ≤ base + count ∨
    ∃ label ∈ external, target = Target.afterInsert base count label.index

theorem madeFrom_of_instruction {method : Method} {base : Nat} {external : List ExternalLabel}
    {lines : List Line} (hnames : (labelNames lines).Nodup)
    (hnew : ∀ label ∈ external, label.name.toList ∉ labelNames lines)
    {operation : Opcode × List (List Char)} {item : Instruction}
    (h : instruction ⟨method, labelsOf base external lines⟩ operation.1 operation.2 = .ok item) :
    MadeFrom method base (operations lines).length external operation item := by
  obtain ⟨hlength, hopcode, rest, hregisters, hreads⟩ := of_instruction h
  rw [← hopcode] at hlength hregisters
  have hcount := hlength.trans (Opcode.operandCount_format _)
  refine ⟨hopcode, hlength, wellFormed_of_instruction h,
    (of_readRegisters_format hcount hregisters).1, fun target htarget => ?_⟩
  rw [htarget] at hreads
  obtain ⟨text, hread⟩ := hreads.exists_readLabel
  obtain ⟨name, -, hlookup⟩ := readLabel_eq_ok_iff.mp hread
  rcases (lookup_labelsOf_iff hnames hnew).mp hlookup with hmem | hlookup
  · exact .inl (bounds_of_mem_definitions hmem)
  · obtain ⟨label, hlabel, heq⟩ := List.mem_map.mp (mem_of_lookup hlookup)
    cases heq
    exact .inr ⟨label, List.mem_reverse.mp hlabel, rfl⟩

/-- The assembler counts in numbers of 64 bits: as far as the place behind the instructions that are
put in at `base`, and to where the external labels have moved. -/
structure CountsInWords (base count : Nat) (external : List ExternalLabel) : Prop where
  behind : base + count < UInt64.size
  moved : ∀ label ∈ external, Target.afterInsert base count label.index < UInt64.size

theorem MadeFrom.isWord {method : Method} {base count : Nat} {external : List ExternalLabel}
    {operation : Opcode × List (List Char)} {item : Instruction}
    (h : MadeFrom method base count external operation item)
    (words : CountsInWords base count external) : item.IsWord := by
  intro target htarget
  rcases h.target target htarget with ⟨-, hle⟩ | ⟨label, hlabel, rfl⟩
  · exact hle.trans_lt words.behind
  · exact words.moved label hlabel

end Smali

/-! ## Texts that are refused -/

/-- The fault could only be one of the assembler, not of the text. -/
def AssemblyFault.isInternal : AssemblyFault → Bool
  | .missingLiteral | .missingReference | .missingLabel | .noReferenceKind _ => true
  | _ => false

namespace Smali

/-- What the computation fails with is a fault of the text. -/
abbrev Blames {α : Type} (x : Except AssemblyFault α) : Prop :=
  FailsWith (fun fault => fault.isInternal = false) x

theorem blames_next (nesting : Nesting) (c : Char) : Blames (nesting.next c) := by
  rw [Nesting.next]
  repeat' split
  all_goals first | exact .ok _ | exact .error rfl

theorem blames_operandsFrom (nesting : Nesting) (begun cs : List Char) :
    Blames (operandsFrom nesting begun cs) := by
  induction cs generalizing nesting begun with
  | nil =>
      rw [operandsFrom]
      split
      · exact .ok _
      · exact .error rfl
  | cons c cs ih =>
      rw [operandsFrom]
      split
      · exact (ih nesting []).map _
      · exact (blames_next nesting c).bind fun next _ => ih next (c :: begun)

theorem blames_read (cs : List Char) : Blames (Line.read cs) := by
  rw [Line.read, Line.ofContent.eq_def]
  split
  · exact .ok _
  · split
    · exact .error rfl
    · exact .ok _
  · dsimp only
    split
    · refine FailsWith.map _ ?_
      rw [operands]
      split
      · exact .ok _
      · exact blames_operandsFrom {} [] _
    · exact .error rfl

theorem blames_readRegister (method : Method) (operand : List Char) :
    Blames (readRegister method operand) := by
  have number : ∀ text digits, Blames (readRegisterNumber text digits) := by
    intro text digits
    rw [readRegisterNumber]
    split
    · exact .ok _
    · exact .error rfl
  rw [readRegister]
  split
  · exact (number _ _).map _
  · refine (number _ _).bind fun n _ => ?_
    split
    · exact .ok _
    · exact .error rfl
  · exact .error rfl

theorem blames_readRegisterList (method : Method) (operand : List Char) :
    Blames (readRegisterList method operand) := by
  rw [readRegisterList]
  split
  · exact .error rfl
  split
  · exact .ok _
  split
  · refine (blames_readRegister method _).bind fun first _ =>
      (blames_readRegister method _).bind fun last _ => ?_
    split
    · exact .error rfl
    · exact .ok _
  · exact .mapM (blames_readRegister method) _

theorem blames_readRegisters (method : Method) (form : RegisterForm)
    (operands : List (List Char)) : Blames (readRegisters method form operands) := by
  rw [readRegisters.eq_def]
  split
  · exact (FailsWith.mapM (blames_readRegister method) _).bind fun _ _ => .ok _
  · exact (blames_readRegisterList method _).bind fun _ _ => .ok _
  · exact (blames_readRegisterList method _).bind fun _ _ => .ok _
  · exact .ok _

theorem blames_readReference (kind : ReferenceKind) (operand : List Char) :
    Blames (readReference kind operand) := by
  rw [readReference]
  split
  · exact .ok _
  · exact .error rfl

theorem blames_readLabel (labels : Labels) (operand : List Char) :
    Blames (readLabel labels operand) := by
  rw [readLabel]
  split
  · split
    · exact .ok _
    · exact .error rfl
  · exact .error rfl

/-- Once the number of operands is right, none of them is missing, and an operand for a reference
has a kind. -/
theorem blames_instruction (scope : Scope) (opcode : Opcode) (operands : List (List Char)) :
    Blames (instruction scope opcode operands) := by
  rw [instruction]
  split
  · exact .error rfl
  rename_i hlength
  refine (blames_readRegisters scope.method _ operands).bind fun read hregisters => ?_
  obtain ⟨registers, rest⟩ := read
  have hcount := (not_not.mp hlength).trans opcode.operandCount_format
  obtain ⟨-, hrest⟩ := of_readRegisters_format hcount hregisters
  dsimp only
  generalize htrailing : opcode.format.trailing = trailing at hrest ⊢
  cases trailing with
  | nothing =>
      obtain rfl := List.length_eq_zero_iff.mp hrest
      exact .ok _
  | literal =>
      obtain ⟨text, rfl⟩ := List.length_eq_one_iff.mp hrest
      refine FailsWith.bind ?_ fun _ _ => .ok _
      rw [readLiteral_eq]
      split
      · exact .ok _
      · exact .error rfl
  | reference kind =>
      obtain ⟨text, rfl⟩ := List.length_eq_one_iff.mp hrest
      dsimp only
      rw [readReferenceFor_eq htrailing]
      exact (blames_readReference kind text).bind fun _ _ => .ok _
  | prototyped =>
      obtain ⟨text, text', rfl⟩ := List.length_eq_two.mp hrest
      dsimp only
      rw [readReferenceFor_eq_of_prototyped htrailing]
      refine (blames_readReference .method text).bind fun _ _ => FailsWith.bind ?_ fun _ _ => .ok _
      rw [readPrototype]
      split
      · exact .ok _
      · exact .error rfl
  | branch | payload =>
      obtain ⟨text, rfl⟩ := List.length_eq_one_iff.mp hrest
      exact (blames_readLabel scope.labels text).bind fun _ _ => .ok _

/-- The error is that a line of the text has a fault. -/
def IsTextError (error : Error) : Prop :=
  ∃ number fault, error = .assembly number fault ∧ fault.isInternal = false

theorem failsWith_linesFrom (first : Nat) (texts : List (List Char)) :
    FailsWith IsTextError (linesFrom first texts) := by
  induction texts generalizing first with
  | nil => exact .ok _
  | cons text texts ih =>
      rw [linesFrom]
      split
      · exact (ih (first + 1)).map _
      · rename_i fault hfault
        exact .error ⟨first, fault, rfl, blames_read text fault hfault⟩

theorem failsWith_labelsFrom (position : Nat) (labels : Labels) (lines : List (Nat × Line)) :
    FailsWith IsTextError (labelsFrom position labels lines) := by
  induction lines generalizing position labels with
  | nil => exact .ok _
  | cons line lines ih =>
      rcases line with ⟨number, - | name | ⟨opcode, operands⟩⟩
      · exact ih position labels
      · rw [labelsFrom]
        split
        · exact .error ⟨number, _, rfl, rfl⟩
        · exact ih position _
      · exact ih (position + 1) labels

theorem failsWith_instructions (scope : Scope) (lines : List (Nat × Line)) :
    FailsWith IsTextError (instructions scope lines) := by
  induction lines with
  | nil => exact .ok _
  | cons line lines ih =>
      rcases line with ⟨number, - | name | ⟨opcode, operands⟩⟩
      · exact ih
      · exact ih
      · rw [instructions]
        split
        · exact ih.map _
        · rename_i fault hfault
          exact .error ⟨number, fault, rfl, blames_instruction scope opcode operands fault hfault⟩

/-- If a text is assembled, each of its lines that holds an instruction provides one, in order, with
exactly the operands that the format of its opcode names; its registers are those that the line
names for the method, and its target is an instruction of the text, the place behind them, or where
an external label has moved, and so a number of 64 bits if these are.  If it is not assembled, one of
its lines is at fault, and never the assembler. -/
theorem assembleAt_wellFormed (text : String) (method : Method) (base : Nat)
    (external : List ExternalLabel) :
    (∀ items, assembleAt text method base external = .ok items →
      (∃ lines, Smali.lines text = .ok lines ∧
        List.Forall₂ (MadeFrom method base items.length external) (operations (lines.map (·.2)))
          items) ∧
      (CountsInWords base items.length external → ∀ item ∈ items, item.IsWord)) ∧
    ∀ error, assembleAt text method base external = .error error → IsTextError error := by
  constructor
  · intro items h
    obtain ⟨lines, htext, hnames, hnew, hitems⟩ := assembleAt_eq_ok_iff.mp h
    obtain ⟨numbered, hlines, rfl⟩ := hasLines_iff.mp htext
    have hmade := hitems.imp fun operation item => madeFrom_of_instruction hnames hnew
    rw [hitems.length_eq] at hmade
    refine ⟨⟨numbered, hlines, hmade⟩, fun words item hmem => ?_⟩
    obtain ⟨operation, -, made⟩ := exists_of_forall₂ hmade hmem
    exact made.isWord words
  · exact (failsWith_linesFrom 1 _).bind fun lines _ =>
      (failsWith_labelsFrom base _ lines).bind fun labels _ => failsWith_instructions _ lines

/-- A call with a prototype, on parameter registers, and branches to the end of the text and out of
it; and a branch without a label. -/
theorem assembleAt_wellFormed_polymorphic :
    let method : Method := ⟨"La;", "b", ["I"], "V", .empty, 3, []⟩
    let external : List ExternalLabel := [⟨"out", 4⟩]
    let text :=
      "invoke-polymorphic \x7bp0, v0\x7d, La;->c([La;)V, (I)V\nif-eqz p1, :end\ngoto :out\n:end"
    let items : List Instruction :=
      [⟨.invokePolymorphic, [1, 0], none, some (.method ⟨"La;", "c", ["[La;"], "V"⟩), none,
          some "(I)V"⟩,
        ⟨.ifEqz, [2], none, none, some 5, none⟩, ⟨.goto, [], none, none, some 7, none⟩]
    let error : Error := .assembly 1 (.operandCount "goto" 1 0)
    assembleAt text method 2 external = .ok items ∧
      (∃ lines, Smali.lines text = .ok lines ∧
        List.Forall₂ (MadeFrom method 2 3 external) (operations (lines.map (·.2))) items) ∧
      (∀ item ∈ items, item.IsWord) ∧
      assembleAt "goto" method 2 external = .error error ∧ IsTextError error := by
  intro method external text items error
  have hitems : assembleAt text method 2 external = .ok items := by decide +kernel
  have herror : assembleAt "goto" method 2 external = .error error := by decide +kernel
  have words : CountsInWords 2 3 external := ⟨by decide, by decide⟩
  obtain ⟨hmade, hword⟩ := (assembleAt_wellFormed text method 2 external).1 items hitems
  exact ⟨hitems, hmade, hword words, herror,
    (assembleAt_wellFormed "goto" method 2 external).2 error herror⟩

end Smali

end DexGraft
