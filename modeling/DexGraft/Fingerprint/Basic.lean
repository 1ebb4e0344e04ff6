import DexGraft.Code.Pool
import DexGraft.Fingerprint.Scan

/-!
# Fingerprints

A fingerprint describes a method by its shape: its flags, its signature, the strings and literals it
loads and a run of its opcodes. It stands for the first method of a pool that has the shape.
-/

namespace DexGraft

/-- Which flags are looked at, and which of those have to be set. -/
structure FlagTest where
  mask : AccessFlags
  value : AccessFlags
deriving DecidableEq, Repr

namespace FlagTest

/-- All flags that have a name have to be as given. -/
def exactly (flags : AccessFlags) : FlagTest := ⟨.all, flags⟩

/-- The flags of the mask have to be as given. -/
def masked (mask flags : AccessFlags) : FlagTest := ⟨mask, flags.inter mask⟩

def accepts (test : FlagTest) (flags : AccessFlags) : Bool := flags.inter test.mask == test.value

end FlagTest

structure Fingerprint where
  name : String
  /-- What the return type begins with. -/
  returnType : Option String := none
  flags : Option FlagTest := none
  /-- What the types of the parameters begin with, one for each of them. -/
  parameters : Option (List String) := none
  pattern : Option OpcodePattern := none
  /-- Strings that the method loads. -/
  strings : List String := []
  /-- A literal that the method loads. -/
  literal : Option Int64 := none
  /-- A further condition. -/
  condition : Option (Method → ClassDef → Bool) := none
  /-- The fingerprint in whose class this one is searched. -/
  parent : Option String := none

/-- Where a fingerprint was found, and what it found there. -/
structure Resolution where
  fingerprint : String
  method : MethodId
  scan : Scan
deriving DecidableEq, Repr

namespace Resolution

/-- The class of the method. -/
def inClass (resolution : Resolution) : Nat := resolution.method.inClass

/-- The run of opcodes; there is none for a fingerprint without a pattern. -/
def window (resolution : Resolution) : Except Error Window :=
  match resolution.scan.window with
  | some window => .ok window
  | none => .error (.noPatternScan resolution.fingerprint)

/-- The first instruction that loads a string of the fingerprint. -/
def stringIndex? (resolution : Resolution) (string : String) : Option Nat :=
  (resolution.scan.strings.find? (·.string == string)).map (·.index)

end Resolution

namespace Fingerprint

/-- Whether a type begins with the given text. -/
def typeBegins (beginning type : String) : Bool := beginning.toList.isPrefixOf type.toList

/-- Whether the types begin with the given texts, one for each. -/
def typesBegin (beginnings types : List String) : Bool :=
  beginnings.length == types.length && (beginnings.zip types).all fun (b, t) => typeBegins b t

/-- Whether flags, signature, further condition and literal of a method are as described. -/
def acceptsShape (fingerprint : Fingerprint) (method : Method) (cls : ClassDef) : Bool :=
  fingerprint.flags.all (·.accepts method.flags) &&
  fingerprint.returnType.all (typeBegins · method.returnType) &&
  fingerprint.parameters.all (typesBegin · method.parameters) &&
  fingerprint.condition.all (· method cls) &&
  fingerprint.literal.all fun literal => method.body.any (·.literal == some literal)

/-- What the fingerprint finds in a method that is as described. -/
def scan? (fingerprint : Fingerprint) (method : Method) (cls : ClassDef) : Option Scan :=
  if fingerprint.acceptsShape method cls then do
    let strings ← scanStrings fingerprint.strings method.body
    match fingerprint.pattern with
    | none => some ⟨none, strings⟩
    | some pattern => do some ⟨some (← pattern.scan method.body), strings⟩
  else none

/-- The methods among which the fingerprint is searched: those of one class, or all. -/
def candidates (pool : ClassPool) (scope : Option Nat) : List MethodId :=
  match scope with
  | some inClass => pool.classMethods inClass
  | none => pool.methods

/-- What the fingerprint finds in the method at a place. -/
def resolveAt? (fingerprint : Fingerprint) (pool : ClassPool) (id : MethodId) :
    Option Resolution := do
  let cls ← pool.classes[id.inClass]?
  let method ← cls.methods[id.index]?
  let scan ← fingerprint.scan? method cls
  some ⟨fingerprint.name, id, scan⟩

/-- The first candidate that is as described. -/
def resolve? (fingerprint : Fingerprint) (pool : ClassPool) (scope : Option Nat) :
    Option Resolution :=
  (candidates pool scope).findSome? (fingerprint.resolveAt? pool)

def resolve (fingerprint : Fingerprint) (pool : ClassPool) (scope : Option Nat) :
    Except Error Resolution :=
  match fingerprint.resolve? pool scope with
  | some resolution => .ok resolution
  | none => .error (.resolutionFailed fingerprint.name)

end Fingerprint

end DexGraft
