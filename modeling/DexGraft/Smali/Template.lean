import DexGraft.Code.Instruction
import DexGraft.Text.Cut

/-!
# Templates

Assembly text with placeholders. A placeholder runs from a dollar sign and an opening brace to the
next closing brace, and holds the name of a value that takes its place.
-/

namespace DexGraft

structure Template where
  text : String
  /-- Values by name, the last one bound in front. -/
  bindings : List (String × String) := []
deriving DecidableEq, Repr

namespace Template

/-- Binds a name, in place of any value it had. -/
def bind (template : Template) (name value : String) : Template :=
  { template with bindings := (name, value) :: template.bindings }

def bindRegister (template : Template) (name : String) (register : Register) : Template :=
  template.bind name register.text

/--
The text with the values in place of the placeholders. The number counts the lines of the text
between placeholders; the option holds the characters of the placeholder that is being read, last
one first.
-/
def renderFrom (bindings : List (String × String)) :
    Nat → Option (List Char) → List Char → Except Error (List Char)
  | _, none, [] => .ok []
  | line, some _, [] => .error (.assembly line .unterminatedPlaceholder)
  | line, some begun, c :: cs =>
    if c = '\x7d' then
      let name := String.ofList begun.reverse
      match bindings.lookup name with
      | some value => (renderFrom bindings line none cs).map (value.toList ++ ·)
      | none => .error (.assembly line (.unboundPlaceholder name))
    else renderFrom bindings line (some (c :: begun)) cs
  | line, none, '$' :: '\x7b' :: cs => renderFrom bindings line (some []) cs
  | line, none, c :: cs =>
    (renderFrom bindings (if c = '\n' then line + 1 else line) none cs).map (c :: ·)

def render (template : Template) : Except Error String :=
  (renderFrom template.bindings 1 none template.text.toList).map String.ofList

end Template

end DexGraft
