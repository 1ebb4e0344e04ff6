import DexGraft.Code.Opcode
import DexGraft.Text.Blank

/-!
# Lines of assembly text

A line holds a label, or a mnemonic and its operands, or nothing. A comment runs from `#` to the end
of the line, and commas divide the operands; neither counts inside a string.
-/

namespace DexGraft.Smali

open Text

/-- Where a character stands with regard to the strings of its line. -/
inductive Quoting where
  | outside
  | inside
  /-- Inside, right behind a backslash. -/
  | escaped
deriving DecidableEq, Repr

/-- Where the next character stands. -/
def Quoting.next : Quoting → Char → Quoting
  | escaped, _ => inside
  | inside, c => if c = '\\' then escaped else if c = '"' then outside else inside
  | outside, c => if c = '"' then inside else outside

/-- The line up to the comment. -/
def stripComment (quoting : Quoting) : List Char → List Char
  | [] => []
  | c :: cs =>
    if quoting = .outside ∧ c = '#' then [] else c :: stripComment (quoting.next c) cs

/-- What encloses a character of an operand: strings, braces and parentheses. -/
structure Nesting where
  quoting : Quoting := .outside
  braces : Nat := 0
  parens : Nat := 0
deriving DecidableEq, Repr

namespace Nesting

/-- Whether a comma ends the operand here. -/
def isOpen (nesting : Nesting) : Bool :=
  nesting.quoting == .outside && nesting.braces == 0 && nesting.parens == 0

/-- Whether an operand may end with the line here; an open parenthesis is no obstacle. -/
def isClosed (nesting : Nesting) : Bool := nesting.quoting == .outside && nesting.braces == 0

/-- What encloses the next character. A brace must be open to be closed, a parenthesis need not. -/
def next (nesting : Nesting) (c : Char) : Except AssemblyFault Nesting :=
  let stepped := { nesting with quoting := nesting.quoting.next c }
  if nesting.quoting ≠ .outside then .ok stepped
  else if c = '\x7b' then .ok { stepped with braces := nesting.braces + 1 }
  else if c = '\x7d' then
    if nesting.braces = 0 then .error .unbalancedBrace
    else .ok { stepped with braces := nesting.braces - 1 }
  else if c = '(' then .ok { stepped with parens := nesting.parens + 1 }
  else if c = ')' then .ok { stepped with parens := nesting.parens - 1 }
  else .ok stepped

end Nesting

/-- The operands in a text whose first operand begins with the characters of `begun`, last first. -/
def operandsFrom (nesting : Nesting) (begun : List Char) :
    List Char → Except AssemblyFault (List (List Char))
  | [] => if nesting.isClosed then .ok [trim begun.reverse] else .error .unterminatedOperand
  | c :: cs =>
    if c = ',' ∧ nesting.isOpen then
      (operandsFrom nesting [] cs).map (trim begun.reverse :: ·)
    else do operandsFrom (← nesting.next c) (c :: begun) cs

/-- The operands between the commas of a text; none in an empty one. -/
def operands (cs : List Char) : Except AssemblyFault (List (List Char)) :=
  if cs.isEmpty then .ok [] else operandsFrom {} [] cs

/-- What a line of assembly text says. -/
inductive Line where
  | blank
  | label (name : List Char)
  | instruction (opcode : Opcode) (operands : List (List Char))
deriving DecidableEq, Repr

namespace Line

/-- Reads a line without its comment and the blanks around it. -/
def ofContent : List Char → Except AssemblyFault Line
  | [] => .ok blank
  | ':' :: name =>
    if name.isEmpty || name.any isBlank then
      .error (.invalidLabel (String.ofList (':' :: name)))
    else .ok (label name)
  | content =>
    let (mnemonic, rest) := (cut? isBlank content).getD (content, [])
    let mnemonic := String.ofList mnemonic
    match Opcode.ofMnemonic? mnemonic with
    | some opcode => (operands (trim rest)).map (instruction opcode)
    | none => .error (.unknownOpcode mnemonic)

def read (cs : List Char) : Except AssemblyFault Line := ofContent (trim (stripComment .outside cs))

def isInstruction : Line → Bool
  | instruction .. => true
  | _ => false

end Line

/-- The lines of a text, the first of which has number `first`, each with its number. -/
def linesFrom (first : Nat) : List (List Char) → Except Error (List (Nat × Line))
  | [] => .ok []
  | cs :: rest =>
    match Line.read cs with
    | .ok line => (linesFrom (first + 1) rest).map ((first, line) :: ·)
    | .error fault => .error (.assembly first fault)

/-- The lines of a text, each with its number. -/
def lines (text : String) : Except Error (List (Nat × Line)) := linesFrom 1 (Text.lines text.toList)

end DexGraft.Smali
