import DexGraft.Code.Instruction
import DexGraft.Fingerprint.Pattern

/-!
# Scanning bodies

Where a body has a run of opcodes, and where it loads strings.
-/

namespace DexGraft

/-- The first and the last instruction of a run. -/
structure Window where
  first : Nat
  last : Nat
deriving DecidableEq, Repr

/-- A string, and the first instruction that loads it. -/
structure StringMatch where
  string : String
  index : Nat
deriving DecidableEq, Repr

/-- What a fingerprint found in a method. -/
structure Scan where
  window : Option Window := none
  strings : List StringMatch := []
deriving DecidableEq, Repr

namespace OpcodePattern

/-- Whether the instructions begin with a run that fits the pattern. -/
def fits : OpcodePattern → List Instruction → Bool
  | [], _ => true
  | _ :: _, [] => false
  | place :: pattern, instruction :: body =>
    place.all (· == instruction.opcode) && fits pattern body

/-- The first place from which the instructions fit the pattern. -/
def findFit? (pattern : OpcodePattern) : List Instruction → Option Nat
  | [] => none
  | instruction :: body =>
    if pattern.fits (instruction :: body) then some 0
    else (findFit? pattern body).map (· + 1)

/-- The first run that fits the pattern; an empty pattern fits none. -/
def scan (pattern : OpcodePattern) (body : List Instruction) : Option Window :=
  if pattern.isEmpty then none
  else (pattern.findFit? body).map fun first => ⟨first, first + pattern.length - 1⟩

end OpcodePattern

/-- The strings with the first instructions that load them; none if one is never loaded. -/
def scanStrings (strings : List String) (body : List Instruction) : Option (List StringMatch) :=
  strings.mapM fun string =>
    (body.findIdx? (·.string? == some string)).map fun index => ⟨string, index⟩

end DexGraft
