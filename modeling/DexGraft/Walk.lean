import DexGraft.Code.Pool

/-!
# Walks

Following references from method to method. A walk finds methods without a shape of their own by
their being called from one that has been found.
-/

namespace DexGraft

/-- Which of the instructions that refer to a method a step counts. -/
inductive StepFilter where
  | anyMethod
  | invoke (opcode : Opcode)
  | definedIn (owner : String)
deriving DecidableEq, Repr

def StepFilter.accepts (filter : StepFilter) (instruction : Instruction) : Bool :=
  match instruction.methodRef? with
  | none => false
  | some reference =>
    match filter with
    | .anyMethod => true
    | .invoke opcode => instruction.opcode == opcode
    | .definedIn owner => reference.owner == owner

/-- Follow the `nth` of the instructions that are counted, the first of which has number one. -/
structure WalkStep where
  filter : StepFilter := .anyMethod
  nth : Nat
deriving DecidableEq, Repr

structure Walker where
  pool : ClassPool
  current : MethodId
  steps : Nat := 0
deriving Repr

namespace Walker

def method (walker : Walker) : Except Error Method := walker.pool.method walker.current

/-- Goes to the method that an instruction refers to. -/
def follow (walker : Walker) (reference : MethodRef) : Except Error Walker :=
  match walker.pool.findMethod? reference with
  | some target => .ok { walker with current := target, steps := walker.steps + 1 }
  | none => .error (.unresolvableReference reference.text)

/-- Follows the reference of the instruction at `index`. -/
def followAt (walker : Walker) (index : Nat) : Except Error Walker := do
  let method ← walker.method
  let instruction ← method.instruction index
  match instruction.methodRef? with
  | some reference => walker.follow reference
  | none => .error (method.unexpected index .methodReference instruction)

def step (walker : Walker) (step : WalkStep) : Except Error Walker := do
  if step.nth = 0 then .error .zerothOccurrence
  else
    let method ← walker.method
    match (method.body.filter step.filter.accepts)[step.nth - 1]?.bind (·.methodRef?) with
    | some reference => walker.follow reference
    | none => .error (.referenceNotFound method.descriptor (walker.steps + 1) step.nth)

/-- The method that the steps lead to. -/
def walk (walker : Walker) (steps : List WalkStep) : Except Error MethodId :=
  (steps.foldlM Walker.step walker).map (·.current)

end Walker

end DexGraft
