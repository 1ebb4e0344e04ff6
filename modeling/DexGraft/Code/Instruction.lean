import DexGraft.Code.Opcode

/-!
# Instructions

One instruction of a method body, and its text in a listing. The target of a branch is the index of
an instruction in the body that holds the branch.
-/

namespace DexGraft

open Text

/-- The number of a register, which takes sixteen bits. -/
abbrev Register := UInt16

structure Instruction where
  opcode : Opcode
  registers : List Register := []
  literal : Option Int64 := none
  reference : Option Reference := none
  target : Option Nat := none
  /-- The prototype that a polymorphic method is called with. -/
  prototype : Option String := none
deriving DecidableEq, Repr

namespace Register

/-- The name of a register in a listing. -/
def text (register : Register) : String := "v" ++ Numeral.decimal register.toNat

/-- Registers as operands, in order. -/
def listText (registers : List Register) : String := join ", " (registers.map text)

end Register

namespace Instruction

def methodRef? (instruction : Instruction) : Option MethodRef :=
  match instruction.reference with
  | some (.method method) => some method
  | _ => none

def fieldRef? (instruction : Instruction) : Option FieldRef :=
  match instruction.reference with
  | some (.field field) => some field
  | _ => none

def typeRef? (instruction : Instruction) : Option String :=
  match instruction.reference with
  | some (.type descriptor) => some descriptor
  | _ => none

/-- The string that the instruction loads. -/
def string? (instruction : Instruction) : Option String :=
  match instruction.reference with
  | some (.string value) => some value
  | _ => none

/-- The registers as a listing shows them behind the mnemonic. -/
def registersText (instruction : Instruction) : String :=
  let registers := instruction.registers
  match instruction.opcode.format.registers with
  | .fixed _ => Register.listText registers
  | .list => "\x7b" ++ Register.listText registers ++ "\x7d"
  | .range =>
    match registers.head?, registers.getLast? with
    | some first, some last => "\x7b" ++ first.text ++ " .. " ++ last.text ++ "\x7d"
    | _, _ => "\x7b\x7d"

/-- A literal in base sixteen, with its sign. -/
def literalText (literal : Int64) : String :=
  (if literal.toInt < 0 then "-0x" else "0x") ++ Numeral.hex literal.toInt.natAbs

/-- The label in front of the instruction with the given index. -/
def labelText (index : Nat) : String := ":L" ++ Numeral.decimal index

/-- An operand behind the ones before it, where the instruction has it. -/
def operandText {α : Type} (text : α → String) : Option α → String
  | some value => ", " ++ text value
  | none => ""

/-- The instruction in a listing; without operands for an opcode that takes none. -/
def text (instruction : Instruction) : String :=
  let mnemonic := instruction.opcode.mnemonic
  if instruction.opcode.format = ⟨.fixed 0, .nothing⟩ then mnemonic
  else
    mnemonic ++ " " ++ instruction.registersText ++
      operandText literalText instruction.literal ++
      operandText Reference.text instruction.reference ++
      operandText id instruction.prototype ++
      operandText labelText instruction.target

end Instruction

end DexGraft
