import DexGraft.Code.Pool
import DexGraft.Json.Record

/-!
# Stored code

Flags, references, instructions, methods, classes and pools as JSON.
-/

namespace DexGraft

open Json

namespace AccessFlags

def toJson (flags : AccessFlags) : Json := str flags.text

def ofJson? (json : Json) : Option AccessFlags := do AccessFlags.read? (← json.readString?).toList

end AccessFlags

namespace Opcode

def toJson (opcode : Opcode) : Json := str opcode.mnemonic

def ofJson? (json : Json) : Option Opcode := do Opcode.ofMnemonic? (← json.readString?)

end Opcode

namespace Reference

/-- An object with one member, whose key is the kind of reference. -/
def toJson : Reference → Json
  | .method m => obj [("method", str m.text)]
  | .field f => obj [("field", str f.text)]
  | .type descriptor => obj [("type", str descriptor)]
  | .string value => obj [("string", str value)]
  | .methodHandle t => obj [("method_handle", str t)]
  | .methodType t => obj [("method_type", str t)]
  | .callSite t => obj [("call_site", str t)]

/-- Methods and fields have to have their text form; the other kinds hold any text. -/
def ofJson? : Json → Option Reference
  | obj [(key, str value)] =>
    match key with
    | "method" => (MethodRef.parse value).toOption.map .method
    | "field" => (FieldRef.parse value).toOption.map .field
    | "type" => some (.type value)
    | "string" => some (.string value)
    | "method_handle" => some (.methodHandle value)
    | "method_type" => some (.methodType value)
    | "call_site" => some (.callSite value)
    | _ => none
  | _ => none

end Reference

namespace Instruction

def toJson (instruction : Instruction) : Json :=
  record [
    ("opcode", some instruction.opcode.toJson),
    ("registers", unlessEmpty (fun r => int r.toNat) instruction.registers),
    ("literal", instruction.literal.map fun literal => int literal.toInt),
    ("reference", instruction.reference.map Reference.toJson),
    ("target", instruction.target.map Json.ofNat),
    ("prototype", instruction.prototype.map str)]

def ofJson? (json : Json) : Option Instruction := do
  match ← json.fields? ["opcode", "registers", "literal", "reference", "target", "prototype"] with
  | [opcode, registers, literal, reference, target, prototype] =>
    some {
      opcode := ← required Opcode.ofJson? opcode
      registers := ← defaulted [] (readList? readUInt16?) registers
      literal := ← nullable readInt64? literal
      reference := ← nullable Reference.ofJson? reference
      target := ← nullable readIndex? target
      prototype := ← nullable readString? prototype }
  | _ => none

end Instruction

namespace Method

def toJson (method : Method) : Json :=
  obj [
    ("defining_class", str method.owner),
    ("name", str method.name),
    ("parameters", ofStrings method.parameters),
    ("return_type", str method.returnType),
    ("access_flags", method.flags.toJson),
    ("registers", int method.registers.toNat),
    ("instructions", arr (method.body.map Instruction.toJson))]

def ofJson? (json : Json) : Option Method := do
  match ← json.fields? ["defining_class", "name", "parameters", "return_type", "access_flags",
    "registers", "instructions"] with
  | [owner, name, parameters, returnType, flags, registers, body] =>
    some {
      owner := ← required readString? owner
      name := ← required readString? name
      parameters := ← defaulted [] (readList? readString?) parameters
      returnType := ← required readString? returnType
      flags := ← defaulted .empty AccessFlags.ofJson? flags
      registers := ← defaulted 0 readUInt16? registers
      body := ← defaulted [] (readList? Instruction.ofJson?) body }
  | _ => none

end Method

namespace ClassDef

def toJson (cls : ClassDef) : Json :=
  record [
    ("descriptor", some (str cls.descriptor)),
    ("superclass", cls.superclass.map str),
    ("access_flags", some cls.flags.toJson),
    ("source_file", cls.sourceFile.map str),
    ("methods", some (arr (cls.methods.map Method.toJson)))]

def ofJson? (json : Json) : Option ClassDef := do
  match ← json.fields? ["descriptor", "superclass", "access_flags", "source_file", "methods"] with
  | [descriptor, superclass, flags, sourceFile, methods] =>
    some {
      descriptor := ← required readString? descriptor
      superclass := ← nullable readString? superclass
      flags := ← defaulted .empty AccessFlags.ofJson? flags
      sourceFile := ← nullable readString? sourceFile
      methods := ← defaulted [] (readList? Method.ofJson?) methods }
  | _ => none

end ClassDef

namespace ClassPool

def toJson (pool : ClassPool) : Json := obj [("classes", arr (pool.classes.map ClassDef.toJson))]

/-- Of several classes with one descriptor, the first is kept. -/
def ofJson? (json : Json) : Option ClassPool := do
  match ← json.fields? ["classes"] with
  | [classes] => some (ofClasses (← required (readList? ClassDef.ofJson?) classes))
  | _ => none

/-- The text of the file that holds the pool. -/
def save (pool : ClassPool) : String := pool.toJson.text

def load (text : String) : Except Error ClassPool := decode ofJson? text

end ClassPool

end DexGraft
