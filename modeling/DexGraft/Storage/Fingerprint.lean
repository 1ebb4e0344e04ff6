import DexGraft.Fingerprint.Definition
import DexGraft.Storage.Code

/-!
# Stored fingerprints

Definitions of fingerprints, sets of them and what they found, as JSON.
-/

namespace DexGraft

open Json

namespace FingerprintDef

def toJson (definition : FingerprintDef) : Json :=
  record [
    ("name", some (str definition.name)),
    ("return_type", definition.returnType.map str),
    ("access_flags", definition.flags.map AccessFlags.toJson),
    ("access_mask", definition.mask.map AccessFlags.toJson),
    ("parameters", definition.parameters.map ofStrings),
    ("opcodes", definition.opcodes.map str),
    ("strings", unlessEmpty str definition.strings),
    ("literal", definition.literal.map fun literal => int literal.toInt),
    ("parent", definition.parent.map str)]

def ofJson? (json : Json) : Option FingerprintDef := do
  match ← json.fields? ["name", "return_type", "access_flags", "access_mask", "parameters",
    "opcodes", "strings", "literal", "parent"] with
  | [name, returnType, flags, mask, parameters, opcodes, strings, literal, parent] =>
    some {
      name := ← required readString? name
      returnType := ← nullable readString? returnType
      flags := ← nullable AccessFlags.ofJson? flags
      mask := ← nullable AccessFlags.ofJson? mask
      parameters := ← nullable (readList? readString?) parameters
      opcodes := ← nullable readString? opcodes
      strings := ← defaulted [] (readList? readString?) strings
      literal := ← nullable readInt64? literal
      parent := ← nullable readString? parent }
  | _ => none

end FingerprintDef

namespace FingerprintSet

def toJson (set : FingerprintSet) : Json :=
  record [
    ("version", set.version.map str),
    ("fingerprints", some (arr (set.fingerprints.map FingerprintDef.toJson)))]

def ofJson? (json : Json) : Option FingerprintSet := do
  match ← json.fields? ["version", "fingerprints"] with
  | [version, fingerprints] =>
    some {
      version := ← nullable readString? version
      fingerprints := ← required (readList? FingerprintDef.ofJson?) fingerprints }
  | _ => none

/-- The text of the file that holds the set. -/
def save (set : FingerprintSet) : String := set.toJson.text

def load (text : String) : Except Error FingerprintSet := decode ofJson? text

end FingerprintSet

def Window.toJson (window : Window) : Json :=
  obj [("start_index", .ofNat window.first), ("end_index", .ofNat window.last)]

def StringMatch.toJson (found : StringMatch) : Json :=
  obj [("string", str found.string), ("index", .ofNat found.index)]

def Scan.toJson (scan : Scan) : Json :=
  record [
    ("pattern", scan.window.map Window.toJson),
    ("strings", unlessEmpty StringMatch.toJson scan.strings)]

end DexGraft
