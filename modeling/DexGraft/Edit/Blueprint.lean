import DexGraft.Edit.Insertion

/-!
# Blueprints

What a new method is made of: its name and signature, its flags, how many registers it has, and its
body as assembly text.
-/

namespace DexGraft

structure Blueprint where
  name : String
  returnType : String
  parameters : List String := []
  flags : AccessFlags := .publicFlag
  /-- The number of registers, if there are to be others than those of the parameters. -/
  registers : Option Register := none
  body : Option String := none
deriving DecidableEq, Repr

namespace Blueprint

/-- Whether the text can be the type of a parameter. -/
def isParameter (descriptor : String) : Bool :=
  descriptor != "V" && Descriptor.isType descriptor.toList

/-- The method without its body. -/
def frame (blueprint : Blueprint) (owner : String) : Except Error Method :=
  let method : Method :=
    ⟨owner, blueprint.name, blueprint.parameters, blueprint.returnType, blueprint.flags, 0, []⟩
  let needed := method.parameterRegisterCount
  if UInt16.size ≤ needed then .error .registerOverflow
  else
    let registers := blueprint.registers.getD (.ofNat needed)
    if registers.toNat < needed then
      .error (.invalidMethod (.tooFewRegisters method.descriptor needed registers.toNat))
    else .ok { method with registers }

/-- Makes the method for a class. -/
def build (blueprint : Blueprint) (owner : String) : Except Error Method :=
  if blueprint.name.isEmpty then .error (.invalidMethod .emptyName)
  else if !Descriptor.isType blueprint.returnType.toList then
    .error (.invalidDescriptor blueprint.returnType)
  else match blueprint.parameters.find? (!isParameter ·) with
    | some parameter => .error (.invalidDescriptor parameter)
    | none => do
      let method ← blueprint.frame owner
      match blueprint.body with
      | some text => method.insertText 0 text
      | none => .ok method

end Blueprint

end DexGraft
