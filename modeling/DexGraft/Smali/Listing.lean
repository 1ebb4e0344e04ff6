import DexGraft.Code.Pool

/-!
# Listings

Methods and classes as text. A label stands in front of every instruction that is a target, and at
the end of the body if a target points there.
-/

namespace DexGraft

open Text

/-- A line of a body, indented and ended. -/
def Listing.bodyLine (text : String) : String := "    " ++ text ++ "\n"

/-- Keywords in front of what they qualify. -/
def Listing.qualified (flags : AccessFlags) (text : String) : String :=
  let keywords := flags.keywords
  if keywords.isEmpty then text else keywords ++ " " ++ text

namespace Method

open Listing

/-- The targets of the branches in the body. -/
def targets (method : Method) : List Nat := method.body.filterMap (·.target)

/-- The label in front of the given index, if that is a target. -/
def labelLine (method : Method) (index : Nat) : String :=
  if index ∈ method.targets then bodyLine (Instruction.labelText index) else ""

/-- The labels and instructions of the body from the given index on. -/
def bodyListing (method : Method) (index : Nat) : List Instruction → String
  | [] => method.labelLine index
  | instruction :: rest =>
    method.labelLine index ++ bodyLine instruction.text ++ method.bodyListing (index + 1) rest

/-- The name and the signature. -/
def signature (method : Method) : String :=
  method.name ++ "(" ++ join "" method.parameters ++ ")" ++ method.returnType

def listing (method : Method) : String :=
  ".method " ++ qualified method.flags method.signature ++ "\n" ++
    bodyLine (".registers " ++ Numeral.decimal method.registers.toNat) ++
    method.bodyListing 0 method.body ++ ".end method\n"

end Method

/-- The header of the class, and every method behind an empty line. -/
def ClassDef.listing (cls : ClassDef) : String :=
  ".class " ++ Listing.qualified cls.flags cls.descriptor ++ "\n" ++
    (match cls.superclass with
      | some descriptor => ".super " ++ descriptor ++ "\n"
      | none => "") ++
    (match cls.sourceFile with
      | some name => ".source \"" ++ name ++ "\"\n"
      | none => "") ++
    join "" (cls.methods.map fun method => "\n" ++ method.listing)

end DexGraft
