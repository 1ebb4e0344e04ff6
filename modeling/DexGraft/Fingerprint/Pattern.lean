import DexGraft.Code.Opcode
import DexGraft.Text.Blank

/-!
# Opcode patterns

A run of opcodes in which any place may be left open. Written as mnemonics with blanks between them
and `??` for an open place.
-/

namespace DexGraft

abbrev OpcodePattern := List (Option Opcode)

namespace OpcodePattern

/-- The words for an open place. -/
def wildcards : List (List Char) := [['?', '?'], ['?']]

/-- A place in a pattern. -/
def readPlace (word : List Char) : Except Error (Option Opcode) :=
  if word ∈ wildcards then .ok none
  else match Opcode.ofMnemonic? (String.ofList word) with
    | some opcode => .ok (some opcode)
    | none => .error (.invalidPattern (.unknownOpcode (String.ofList word)))

/-- Reads a pattern, which has at least one place. -/
def parse (s : String) : Except Error OpcodePattern := do
  let pattern ← (Text.words s.toList).mapM readPlace
  if pattern.isEmpty then .error (.invalidPattern .empty) else .ok pattern

def placeText : Option Opcode → String
  | some opcode => opcode.mnemonic
  | none => "??"

def text (pattern : OpcodePattern) : String := Text.join " " (pattern.map placeText)

end OpcodePattern

end DexGraft
