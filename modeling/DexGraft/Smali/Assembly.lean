import DexGraft.Code.Method
import DexGraft.Smali.Line

/-!
# Assembling

Assembly text as instructions for a method. The register `pN` is the method's own parameter register
`N`, and labels become indices into the body that the instructions are put into.
-/

namespace DexGraft

open Text

/-- A name for an instruction that the method has before the text is put in. -/
structure ExternalLabel where
  name : String
  index : Nat
deriving DecidableEq, Repr

/-- How many operands follow the mnemonic; there are no opcodes of other formats. -/
def Format.operandCount : Format → Nat
  | ⟨.fixed 0, .nothing⟩ => 0
  | ⟨.fixed 1, .nothing⟩ | ⟨.fixed 0, .branch⟩ => 1
  | ⟨.fixed 2, .nothing⟩ | ⟨.fixed 1, .literal⟩ | ⟨.fixed 1, .reference _⟩ | ⟨.list, .reference _⟩
  | ⟨.range, .reference _⟩ | ⟨.fixed 1, .branch⟩ | ⟨.fixed 1, .payload⟩ => 2
  | ⟨.fixed 3, .nothing⟩ | ⟨.fixed 2, .literal⟩ | ⟨.fixed 2, .reference _⟩ | ⟨.fixed 2, .branch⟩
  | ⟨.list, .prototyped⟩ | ⟨.range, .prototyped⟩ => 3
  | _ => 0

namespace Smali

/-- The indices that labels stand for. -/
abbrev Labels := List (List Char × Nat)

/-- What the operands of an instruction may name. -/
structure Scope where
  method : Method
  labels : Labels

/-- The number behind the letter of a register. -/
def readRegisterNumber (text digits : List Char) : Except AssemblyFault Nat :=
  match Numeral.unsigned? 10 UInt16.size digits with
  | some n => .ok n
  | none => .error (.invalidRegister (String.ofList text))

def readRegister (method : Method) (operand : List Char) : Except AssemblyFault Register :=
  let text := trim operand
  match text with
  | 'v' :: digits => (readRegisterNumber text digits).map .ofNat
  | 'p' :: digits => do
    match method.parameterRegister? (← readRegisterNumber text digits) with
    | some register => .ok register
    | none => .error (.noParameterRegister (String.ofList text) method.descriptor)
  | _ => .error (.invalidRegister (String.ofList text))

/-- The registers from `first` to `last`. -/
def registerRange (first last : Register) : List Register :=
  (List.range' first.toNat (last.toNat + 1 - first.toNat)).map .ofNat

/-- What stands between the braces of a register list, without the blanks around it. -/
def insideBraces? (operand : List Char) : Option (List Char) :=
  match trim operand with
  | '\x7b' :: rest => (before? '\x7d' rest).map trim
  | _ => none

def readRegisterList (method : Method) (operand : List Char) :
    Except AssemblyFault (List Register) :=
  match insideBraces? operand with
  | none => .error (.registerListExpected (String.ofList operand))
  | some inner =>
    if inner.isEmpty then .ok []
    else match cutOn? ['.', '.'] inner with
      | some (first, last) => do
        let first ← readRegister method first
        let last ← readRegister method last
        if last < first then .error (.invalidRegisterRange (String.ofList operand))
        else .ok (registerRange first last)
      | none => (parts (· == ',') inner).mapM (readRegister method)

/-- The size of a literal, in base sixteen behind `0x`, with any `L` at its end dropped. -/
def readMagnitude? (cs : List Char) : Option UInt64 :=
  let digits := (cs.reverse.dropWhile fun c => c == 'L' || c == 'l').reverse
  let magnitude? := match digits with
    | '0' :: 'x' :: hex | '0' :: 'X' :: hex => Numeral.unsigned? 16 UInt64.size hex
    | _ => Numeral.unsigned? 10 UInt64.size digits
  magnitude?.map .ofNat

/-- Whether a literal has a minus sign in front, and what stands behind the sign. -/
def splitSign (cs : List Char) : Bool × List Char :=
  match cs with
  | '-' :: rest => (true, rest)
  | _ => (false, cs)

/-- A literal. Its size is taken for a signed number as it stands, and wraps when it is negated. -/
def readLiteral (operand : List Char) : Except AssemblyFault Int64 :=
  let text := trim operand
  let (negative, body) := splitSign text
  match readMagnitude? body with
  | some magnitude =>
    let value := magnitude.toInt64
    .ok (if negative then -value else value)
  | none => .error (.invalidLiteral (String.ofList text))

def readReference (kind : ReferenceKind) (operand : List Char) :
    Except AssemblyFault Reference :=
  match Reference.read kind operand with
  | .ok reference => .ok reference
  | .error e => .error (.invalidReference e.message)

/-- A reference of the kind that the opcode takes. -/
def readReferenceFor (opcode : Opcode) (operand : List Char) : Except AssemblyFault Reference :=
  match opcode.referenceKind? with
  | some kind => readReference kind operand
  | none => .error (.noReferenceKind opcode.mnemonic)

def readPrototype (operand : List Char) : Except AssemblyFault String :=
  let text := trim operand
  if Descriptor.isPrototype text then .ok (String.ofList text)
  else .error (.invalidPrototype (String.ofList text))

def readLabel (labels : Labels) (operand : List Char) : Except AssemblyFault Nat :=
  match trim operand with
  | ':' :: name =>
    match labels.lookup name with
    | some index => .ok index
    | none => .error (.undefinedLabel (String.ofList name))
  | _ => .error (.labelExpected (String.ofList operand))

/-- The registers that the first operands name, and the other operands. -/
def readRegisters (method : Method) :
    RegisterForm → List (List Char) → Except AssemblyFault (List Register × List (List Char))
  | .fixed count, operands => do
    .ok (← (operands.take count).mapM (readRegister method), operands.drop count)
  | .list, operand :: rest | .range, operand :: rest => do
    .ok (← readRegisterList method operand, rest)
  | _, [] => .ok ([], [])

/-- One instruction. The operands are read from left to right, once their number is right. -/
def instruction (scope : Scope) (opcode : Opcode) (operands : List (List Char)) :
    Except AssemblyFault Instruction :=
  let format := opcode.format
  let wrongCount := AssemblyFault.operandCount opcode.mnemonic format.operandCount operands.length
  if operands.length ≠ format.operandCount then .error wrongCount
  else do
    let (registers, rest) ← readRegisters scope.method format.registers operands
    let plain : Instruction := ⟨opcode, registers, none, none, none, none⟩
    match format.trailing, rest with
    | .nothing, [] => .ok plain
    | .literal, [literal] => .ok { plain with literal := ← readLiteral literal }
    | .reference _, [reference] =>
      .ok { plain with reference := ← readReferenceFor opcode reference }
    | .prototyped, [reference, prototype] =>
      .ok { plain with
        reference := ← readReferenceFor opcode reference
        prototype := ← readPrototype prototype }
    | .branch, [label] | .payload, [label] =>
      .ok { plain with target := ← readLabel scope.labels label }
    | .nothing, _ => .error wrongCount
    | .literal, _ => .error .missingLiteral
    | .reference _, _ | .prototyped, _ => .error .missingReference
    | .branch, _ | .payload, _ => .error .missingLabel

/-- External labels in front of the ones that are known, moved behind what is put in at `base`. -/
def externalLabels (base count : Nat) (external : List ExternalLabel) : Labels :=
  external.reverse.map fun label =>
    (label.name.toList, Target.afterInsert base count label.index)

/-- The labels of the lines, whose next instruction has index `position`, in front of others. -/
def labelsFrom (position : Nat) (labels : Labels) : List (Nat × Line) → Except Error Labels
  | [] => .ok labels
  | (_, .blank) :: rest => labelsFrom position labels rest
  | (number, .label name) :: rest =>
    if (labels.lookup name).isSome then
      .error (.assembly number (.labelTwice (String.ofList name)))
    else labelsFrom position ((name, position) :: labels) rest
  | (_, .instruction ..) :: rest => labelsFrom (position + 1) labels rest

/-- The instructions of the lines. -/
def instructions (scope : Scope) : List (Nat × Line) → Except Error (List Instruction)
  | [] => .ok []
  | (number, .instruction opcode operands) :: rest =>
    match instruction scope opcode operands with
    | .ok instruction => (instructions scope rest).map (instruction :: ·)
    | .error fault => .error (.assembly number fault)
  | _ :: rest => instructions scope rest

/--
The instructions of a text that is to be put into the method at `base`. A label of the text stands
for the instruction behind it; an external one for an instruction that the method has already.
-/
def assembleAt (text : String) (method : Method) (base : Nat) (external : List ExternalLabel) :
    Except Error (List Instruction) := do
  let lines ← lines text
  let count := lines.countP (·.2.isInstruction)
  let labels ← labelsFrom base (externalLabels base count external) lines
  instructions ⟨method, labels⟩ lines

/-- The instructions of a text that is to be put in front of the body of the method. -/
def assemble (text : String) (method : Method) : Except Error (List Instruction) :=
  assembleAt text method 0 []

end Smali

end DexGraft
