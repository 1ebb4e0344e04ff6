import DexGraft.Error
import DexGraft.Text.Cut

/-!
# Type descriptors

A type descriptor is a letter for a primitive type, or `L`, a class name and `;`, behind any number
of `[`. Descriptors stand one behind the other in the parameter list of a method, where each of them
shows where it ends.
-/

namespace DexGraft.Descriptor

/-- The letters of the primitive types; `V` is the type of no value. -/
def primitives : List Char := ['Z', 'B', 'S', 'C', 'I', 'J', 'F', 'D', 'V']

/--
The descriptors in the text behind `begun`, where `begun` holds the characters of the first one that
have been read, last one first, and `named` says whether its class name has begun.
-/
def typesFrom (begun : List Char) (named : Bool) : List Char → Option (List (List Char))
  | [] => if begun.isEmpty then some [] else none
  | c :: cs =>
    if named then
      if c = ';' then (typesFrom [] false cs).map ((c :: begun).reverse :: ·)
      else typesFrom (c :: begun) true cs
    else if c = '[' then typesFrom (c :: begun) false cs
    else if c = 'L' then typesFrom (c :: begun) true cs
    else if c ∈ primitives then (typesFrom [] false cs).map ((c :: begun).reverse :: ·)
    else none

/-- The descriptors of which the text consists. -/
def types? (cs : List Char) : Option (List (List Char)) := typesFrom [] false cs

/-- Whether the text is one type descriptor. -/
def isType (cs : List Char) : Bool :=
  match types? cs with
  | some [_] => true
  | _ => false

/-- The descriptors of which the text consists, or the error that it is no list of them. -/
def typeList (cs : List Char) : Except Error (List String) :=
  match types? cs with
  | some types => .ok (types.map String.ofList)
  | none => .error (.invalidDescriptor (String.ofList cs))

/-- How many registers a value of the type takes: two for `long` and `double`, else one. -/
def width (descriptor : String) : Nat :=
  if descriptor = "J" ∨ descriptor = "D" then 2 else 1

/-- How many registers values of all these types take. -/
def totalWidth : List String → Nat
  | [] => 0
  | descriptor :: rest => width descriptor + totalWidth rest

/-- Whether the text is a parameter list between parentheses and a return type behind it. -/
def isPrototype : List Char → Bool
  | '(' :: cs =>
    match Text.cut? (· == ')') cs with
    | some (parameters, result) => (types? parameters).isSome && isType result
    | none => false
  | _ => false

end DexGraft.Descriptor
