import DexGraft.Fingerprint.Basic

/-!
# Fingerprint definitions

Fingerprints as they are stored, and sets of them.
-/

namespace DexGraft

structure FingerprintDef where
  name : String
  returnType : Option String := none
  flags : Option AccessFlags := none
  /-- The flags that are compared; all of them, if there is no mask. -/
  mask : Option AccessFlags := none
  parameters : Option (List String) := none
  /-- A pattern in its written form. -/
  opcodes : Option String := none
  strings : List String := []
  literal : Option Int64 := none
  parent : Option String := none
deriving DecidableEq, Repr

namespace FingerprintDef

/-- The condition on the flags; a mask needs flags to compare. -/
def flagTest (definition : FingerprintDef) : Except Error (Option FlagTest) :=
  match definition.flags, definition.mask with
  | some flags, some mask => .ok (some (.masked mask flags))
  | some flags, none => .ok (some (.exactly flags))
  | none, some _ => .error (.invalidPattern (.maskWithoutFlags definition.name))
  | none, none => .ok none

def build (definition : FingerprintDef) : Except Error Fingerprint := do
  let flags ← definition.flagTest
  let pattern ← definition.opcodes.mapM OpcodePattern.parse
  .ok {
    name := definition.name
    returnType := definition.returnType
    flags, pattern
    parameters := definition.parameters
    strings := definition.strings
    literal := definition.literal
    parent := definition.parent }

end FingerprintDef

structure FingerprintSet where
  version : Option String
  fingerprints : List FingerprintDef
deriving DecidableEq, Repr

namespace FingerprintSet

/-- The first definition with the name, in which the case of ASCII letters does not count. -/
def find? (set : FingerprintSet) (name : String) : Option FingerprintDef :=
  set.fingerprints.find? fun definition =>
    definition.name.toList.map Char.toLower == name.toList.map Char.toLower

/-- All fingerprints, in order. -/
def build (set : FingerprintSet) : Except Error (List Fingerprint) :=
  set.fingerprints.mapM FingerprintDef.build

end FingerprintSet

end DexGraft
