import DexGraft.Error
import DexGraft.Text.Blank
import DexGraft.Text.Cut

/-!
# Access flags

The access flags of classes and methods as a word of 32 bits, most of which have a name. A listing
shows the names as keywords; stored files hold them in capitals, separated by bars, with any bits
that have no name behind them as one number.
-/

namespace DexGraft

open Text

structure AccessFlags where
  bits : UInt32
deriving DecidableEq, Repr

namespace AccessFlags

/-- The flags that have a name, from the lowest bit up. -/
def named : List (String × UInt32) :=
  [("PUBLIC", 0x1), ("PRIVATE", 0x2), ("PROTECTED", 0x4), ("STATIC", 0x8), ("FINAL", 0x10),
   ("SYNCHRONIZED", 0x20), ("BRIDGE", 0x40), ("VARARGS", 0x80), ("NATIVE", 0x100),
   ("INTERFACE", 0x200), ("ABSTRACT", 0x400), ("STRICT", 0x800), ("SYNTHETIC", 0x1000),
   ("ANNOTATION", 0x2000), ("ENUM", 0x4000), ("CONSTRUCTOR", 0x10000),
   ("DECLARED_SYNCHRONIZED", 0x20000)]

def empty : AccessFlags := ⟨0⟩
def publicFlag : AccessFlags := ⟨0x1⟩
def staticFlag : AccessFlags := ⟨0x8⟩
def finalFlag : AccessFlags := ⟨0x10⟩
def constructorFlag : AccessFlags := ⟨0x10000⟩

/-- All flags that have a name. -/
def all : AccessFlags := ⟨0x37fff⟩

def union (a b : AccessFlags) : AccessFlags := ⟨a.bits ||| b.bits⟩

def inter (a b : AccessFlags) : AccessFlags := ⟨a.bits &&& b.bits⟩

/-- Whether every bit of `b` is set in `a`. -/
def contains (a b : AccessFlags) : Bool := a.bits &&& b.bits == b.bits

/-- The names of the flags that are set, from the lowest bit up. -/
def names (flags : AccessFlags) : List String :=
  (named.filter fun (_, bit) => flags.contains ⟨bit⟩).map (·.1)

/-- The bits that are set and have no name. -/
def unnamed (flags : AccessFlags) : UInt32 := flags.bits &&& ~~~all.bits

def ofName? (name : List Char) : Option AccessFlags :=
  (named.find? fun (known, _) => known.toList == name).map fun (_, bit) => ⟨bit⟩

/-- The keyword for a flag in a listing. -/
def keyword (name : String) : String := name.map fun c => if c = '_' then '-' else c.toLower

/-- The flags that are set, as they stand in front of a name in a listing. -/
def keywords (flags : AccessFlags) : String := join " " (flags.names.map keyword)

/-- The flags with the given keywords, in any case; none if one of them is no keyword. -/
def ofKeywords? (words : List String) : Option AccessFlags :=
  words.foldlM (fun flags word =>
    (ofName? ((trim word.toList).map fun c => if c = '-' then '_' else c.toUpper)).map
      flags.union) empty

/-- The form in which flags are stored. -/
def text (flags : AccessFlags) : String :=
  let rest := flags.unnamed
  join " | " (flags.names ++ if rest = 0 then [] else ["0x" ++ Numeral.hex rest.toNat])

/-- One part of the stored form: a name, or a number in base sixteen. -/
def ofPart? (part : List Char) : Option AccessFlags :=
  match trim part with
  | '0' :: 'x' :: digits => (Numeral.unsigned? 16 UInt32.size digits).map fun n => ⟨n.toUInt32⟩
  | name => ofName? name

/-- Reads the stored form. -/
def read? (cs : List Char) : Option AccessFlags :=
  if (trim cs).isEmpty then some empty
  else (parts (· == '|') cs).foldlM (fun flags part => (ofPart? part).map flags.union) empty

end AccessFlags

end DexGraft
