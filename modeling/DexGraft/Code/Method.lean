import DexGraft.Code.Flags
import DexGraft.Code.Instruction
import DexGraft.Editing

/-!
# Methods

A method and its body. Instructions are spliced in and cut out by index, and the branches of the
body keep pointing at the instructions they pointed at.
-/

namespace DexGraft

namespace Target

/-- Where a target stands once `count` instructions have been put in at `index`. -/
def afterInsert (index count target : Nat) : Nat :=
  if index ≤ target then target + count else target

/--
Where a target stands once the `count` instructions from `index` on have been taken out; a target
inside the span moves to the instruction behind it.
-/
def afterRemove (index count target : Nat) : Nat :=
  if index + count ≤ target then target - count
  else if index < target then index
  else target

end Target

/-- The instruction with its target moved. -/
def Instruction.retarget (move : Nat → Nat) (instruction : Instruction) : Instruction :=
  { instruction with target := instruction.target.map move }

structure Method where
  owner : String
  name : String
  parameters : List String
  returnType : String
  flags : AccessFlags
  /-- How many registers there are; the last of them hold the parameters. -/
  registers : Register := 0
  body : List Instruction := []
deriving DecidableEq, Repr

namespace Method

/-- The reference that names the method. -/
def ref (method : Method) : MethodRef :=
  ⟨method.owner, method.name, method.parameters, method.returnType⟩

def descriptor (method : Method) : String := method.ref.text

def isStatic (method : Method) : Bool := method.flags.contains .staticFlag

def isConstructor (method : Method) : Bool := method.name == "<init>" || method.name == "<clinit>"

/-- How many registers the parameters take, the receiver of an instance method among them. -/
def parameterRegisterCount (method : Method) : Nat :=
  (if method.isStatic then 0 else 1) + Descriptor.totalWidth method.parameters

/-- The register that holds parameter register `n`, if the method has one. -/
def parameterRegister? (method : Method) (n : Nat) : Option Register :=
  let count := method.parameterRegisterCount
  if n < count ∧ count ≤ method.registers.toNat then
    some (.ofNat (method.registers.toNat - count + n))
  else none

def outOfBounds (method : Method) (index : Nat) : Error :=
  .indexOutOfBounds method.descriptor index method.body.length

def unexpected (method : Method) (index : Nat) (expected : Expected) (found : Instruction) :
    Error :=
  .unexpectedInstruction method.descriptor index expected found.text

def instruction (method : Method) (index : Nat) : Except Error Instruction :=
  match method.body[index]? with
  | some instruction => .ok instruction
  | none => .error (method.outOfBounds index)

/-- The first register of the instruction at `index`. -/
def registerAt (method : Method) (index : Nat) : Except Error Register := do
  let instruction ← method.instruction index
  match instruction.registers.head? with
  | some register => .ok register
  | none => .error (method.unexpected index .registerOperand instruction)

/-- The index of the first instruction that satisfies `p`. -/
def findIndex? (method : Method) (p : Instruction → Bool) : Option Nat := method.body.findIdx? p

/-- The index of the last instruction that satisfies `p`. -/
def findLastIndex? (method : Method) (p : Instruction → Bool) : Option Nat :=
  (method.body.reverse.findIdx? p).map fun index => method.body.length - 1 - index

/-- Moves the targets of all branches. -/
def moveTargets (move : Nat → Nat) : Editing Method Unit :=
  modify fun method => { method with body := method.body.map (.retarget move) }

/-- Puts instructions in at `index`; their own targets are meant for the resulting body. -/
def insertM (index : Nat) (items : List Instruction) : Editing Method Unit := do
  let method ← get
  if method.body.length < index then throw (method.outOfBounds index)
  else if items.isEmpty then pure ()
  else do
    moveTargets (Target.afterInsert index items.length)
    modify fun method =>
      { method with body := method.body.take index ++ items ++ method.body.drop index }

/-- Takes out the `count` instructions from `index` on. -/
def removeM (index count : Nat) : Editing Method Unit := do
  let method ← get
  if method.body.length < index + count then
    throw (method.outOfBounds (min (index + count) (UInt64.size - 1)))
  else do
    modify fun method =>
      { method with body := method.body.take index ++ method.body.drop (index + count) }
    moveTargets (Target.afterRemove index count)

/-- Puts an instruction in the place of another; no target moves. -/
def replaceM (index : Nat) (item : Instruction) : Editing Method Unit := do
  let method ← get
  if index < method.body.length then
    modify fun method => { method with body := method.body.set index item }
  else throw (method.outOfBounds index)

/-! ## Edited methods -/

def insert (method : Method) (index : Nat) (items : List Instruction) : Except Error Method :=
  (insertM index items).result method

def remove (method : Method) (index count : Nat) : Except Error Method :=
  (removeM index count).result method

def replace (method : Method) (index : Nat) (item : Instruction) : Except Error Method :=
  (replaceM index item).result method

end Method

end DexGraft
