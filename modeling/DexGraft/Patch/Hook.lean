import DexGraft.Code.Pool
import DexGraft.Edit.Insertion
import DexGraft.NameMap

/-!
# Hook points

Places in methods at which several patches add calls. One patch finds the place and registers it
under a name, others add calls there; the calls at a place run in the order in which they came.
-/

namespace DexGraft

/-- Where the calls of a hook point go. -/
inductive Anchor where
  /-- To the beginning of the method. -/
  | entry
  /-- Behind an instruction, which stood at the index when it was last found. -/
  | after (instruction : Instruction) (index : Nat)
deriving DecidableEq, Repr

structure HookPoint where
  method : MethodId
  anchor : Anchor
  /-- What every call is given. -/
  registers : List Register
  /-- How many calls have been added. -/
  injected : Nat := 0
deriving DecidableEq, Repr

namespace HookPoint

def atEntry (method : MethodId) (registers : List Register) : HookPoint :=
  { method, anchor := .entry, registers }

/-- A point behind the instruction that stands at `index` now. -/
def after (method : MethodId) (body : Method) (index : Nat) (registers : List Register) :
    Except Error HookPoint := do
  let instruction ← body.instruction index
  .ok { method, anchor := .after instruction index, registers }

/--
The point with its anchor found again. If another instruction stands where the anchor was last found,
the anchor is the first instruction that equals it.
-/
def locate (point : HookPoint) (body : Method) : Except Error HookPoint :=
  match point.anchor with
  | .entry => .ok point
  | .after instruction index =>
    if body.body[index]? = some instruction then .ok point
    else match body.findIndex? (· == instruction) with
      | some index => .ok { point with anchor := .after instruction index }
      | none => .error (.hookPointLost body.descriptor instruction.text)

/-- Where the next call goes. -/
def nextIndex (point : HookPoint) : Nat :=
  match point.anchor with
  | .entry => point.injected
  | .after _ index => index + 1 + point.injected

/-- How many registers a call without a range can take. -/
def maxRegisters : Nat := 5

/-- The line of assembly text that calls a method with the registers of the point. -/
def callText (point : HookPoint) (target : MethodRef) : String :=
  "invoke-static \x7b" ++ Register.listText point.registers ++ "\x7d, " ++ target.text

/-- The method to be called; its parameters have to take the registers of the point. -/
def readCall (point : HookPoint) (name descriptor : String) : Except Error MethodRef := do
  let target ← MethodRef.parse descriptor
  let width := Descriptor.totalWidth target.parameters
  if width ≠ point.registers.length ∨ maxRegisters < width then
    .error (.invalidMethod (.hookMismatch target.text point.registers.length name))
  else .ok target

end HookPoint

/-- Hook points by name. -/
structure HookRegistry where
  points : NameMap HookPoint := {}
deriving Repr

namespace HookRegistry

def get? (hooks : HookRegistry) (name : String) : Option HookPoint := hooks.points.get? name

def contains (hooks : HookRegistry) (name : String) : Bool := hooks.points.contains name

/-- Registers a point, in place of any other with the name. -/
def register (hooks : HookRegistry) (name : String) (point : HookPoint) : HookRegistry :=
  ⟨hooks.points.insert name point⟩

/-- The point that a call is meant for, and the method that it calls. -/
def prepare (hooks : HookRegistry) (name descriptor : String) :
    Except Error (HookPoint × MethodRef) := do
  match hooks.get? name with
  | none => .error (.hookNotFound name)
  | some point => .ok (point, ← point.readCall name descriptor)

/--
The method that a call goes to, the one that it is put into, and the point with its anchor found
again.
-/
def place (hooks : HookRegistry) (pool : ClassPool) (name descriptor : String) :
    Except Error (MethodRef × Method × HookPoint) := do
  let (point, target) ← hooks.prepare name descriptor
  let method ← pool.method point.method
  .ok (target, method, ← point.locate method)

/--
Adds a call at the point with the name, behind the calls that are there, and gives the index at which
it stands. If the call cannot be added the pool stays as it is, but an anchor that was found again
is remembered where it stands.
-/
def inject (hooks : HookRegistry) (pool : ClassPool) (name descriptor : String) :
    Except Error Nat × HookRegistry × ClassPool :=
  match hooks.place pool name descriptor with
  | .error e => (.error e, hooks, pool)
  | .ok (target, method, point) =>
    let index := point.nextIndex
    let (outcome, left) := (Method.insertOneM index (point.callText target)).run.run method
    let pool := pool.setMethod point.method left
    match outcome with
    | .error e => (.error e, hooks.register name point, pool)
    | .ok () =>
      (.ok index, hooks.register name { point with injected := point.injected + 1 }, pool)

end HookRegistry

end DexGraft
