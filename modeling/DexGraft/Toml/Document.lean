import DexGraft.Toml.Lexeme

/-!
# TOML documents

Configuration files: keys with values, grouped into tables. Of the values only strings and truth
values are kept apart; of everything else it is only checked that it is written as it must be. How
many parts a key has, and how deep arrays and tables stand in a value, has a limit.
-/

namespace DexGraft.Toml

inductive Value where
  | string (value : String)
  | bool (value : Bool)
  | other
deriving DecidableEq, Repr

/-- What stands under a key. -/
inductive Node where
  | value (value : Value)
  /--
  A table. It is implicit if it is there only for the tables or keys inside it, and dotted if it is
  so for keys with dots.
  -/
  | table (isImplicit isDotted : Bool) (members : List (String × Node))
  /-- Tables under one key, the last one first. -/
  | tables (last : List (String × Node)) (others : List (List (String × Node)))
deriving Repr

abbrev Members := List (String × Node)

namespace Members

/-- The members with another node under a key. -/
def set (members : Members) (key : String) (node : Node) : Members :=
  if members.any (·.1 == key) then members.map fun (k, old) => (k, if k = key then node else old)
  else members ++ [(key, node)]

/--
Changes the members of the table at a path, making the tables on the way that are not there. Keys
with dots do not reach into tables that are explicit.
-/
def changeAt? (dotted : Bool) (change : Bool → Members → Option Members) (isDotted : Bool) :
    List String → Members → Option Members
  | [], members => change isDotted members
  | key :: path, members =>
    match (members.lookup key).getD (.table true dotted []) with
    | .value _ => none
    | .table isImplicit isDotted inner =>
      if dotted && !isImplicit then none
      else (changeAt? dotted change isDotted path inner).map fun inner =>
        set members key (.table isImplicit isDotted inner)
    | .tables last others =>
      (changeAt? dotted change false path last).map fun last =>
        set members key (.tables last others)

/-- Puts a value under a key with dots, which must be new. -/
def addValue? (members : Members) (path : List String) (value : Value) : Option Members :=
  match path.getLast? with
  | none => none
  | some key =>
    let parents := path.dropLast
    changeAt? true (fun isDotted inner =>
      if isDotted == parents.isEmpty || (inner.lookup key).isSome then none
      else some (set inner key (.value value))) false parents members

/-- Begins the table at a path, which must not have been begun. -/
def addTable? (members : Members) (path : List String) : Option Members :=
  match path.getLast? with
  | none => none
  | some key =>
    changeAt? false (fun _ inner =>
      match inner.lookup key with
      | none => some (set inner key (.table false false []))
      | some (.table true false old) => some (set inner key (.table false false old))
      | _ => none) false path.dropLast members

/-- Begins one more of the tables at a path. -/
def addToTables? (members : Members) (path : List String) : Option Members :=
  match path.getLast? with
  | none => none
  | some key =>
    changeAt? false (fun _ inner =>
      match inner.lookup key with
      | none => some (set inner key (.tables [] []))
      | some (.tables last others) => some (set inner key (.tables [] (last :: others)))
      | _ => none) false path.dropLast members

/-- Puts a value under a key of the table that was begun last, whose path is `header`. -/
def addUnder? (members : Members) (header path : List String) (value : Value) :
    Option Members :=
  changeAt? false (fun _ inner => inner.addValue? path value) false header members

end Members

/-! ## Keys and values -/

/-- The most parts of a key, and the most arrays and tables inside each other in a value. -/
def nestingLimit : Nat := 79

def isBareKeyChar (c : Char) : Bool := c.isAlphanum || c == '-' || c == '_'

/-- A part of a key, and the text behind it. -/
def simpleKey? (cs : List Char) : Reading :=
  match cs with
  | '"' :: rest => basicString rest
  | '\'' :: rest => literalString rest
  | _ =>
    let key := cs.takeWhile isBareKeyChar
    if key.isEmpty then none else some (key, cs.dropWhile isBareKeyChar)

/-- A key of at most so many parts, and the text behind it and the blanks there. -/
def keyParts? : (room : Nat) → List Char → Option (List String × List Char)
  | 0, _ => none
  | room + 1, cs => do
    let (part, rest) ← simpleKey? (skipBlanks cs)
    match skipBlanks rest with
    | '.' :: rest => do
      let (path, rest) ← keyParts? room rest
      some (String.ofList part :: path, rest)
    | rest => some ([String.ofList part], rest)

/-- A key with dots, and the text behind it and the blanks there. -/
def key? (cs : List Char) : Option (List String × List Char) := keyParts? nestingLimit cs

mutual

/--
A value in which at most so many arrays and tables stand inside each other, and the text behind it.
-/
def value? : (fuel room : Nat) → List Char → Option (Value × List Char)
  | 0, _, _ => none
  | fuel + 1, room, cs =>
    match cs, room with
    | '"' :: _, _ | '\'' :: _, _ =>
      (string? cs).map fun (s, rest) => (.string (String.ofList s), rest)
    | '[' :: _, 0 | '\x7b' :: _, 0 => none
    | '[' :: rest, room + 1 => do
      some (.other, ← items? fuel room (← skipGaps? false rest))
    | '\x7b' :: rest, room + 1 =>
      match skipBlanks rest with
      | '\x7d' :: rest => some (.other, rest)
      | rest => (inlineMembers? fuel room [] rest).map (.other, ·)
    | _, _ =>
      let (word, rest) := word cs
      if word = ['t', 'r', 'u', 'e'] then some (.bool true, rest)
      else if word = ['f', 'a', 'l', 's', 'e'] then some (.bool false, rest)
      else if isInteger word || isFloat word || isDateTime word then some (.other, rest)
      else none

/-- The items of an array and the end of it; what is left is the text behind it. -/
def items? : (fuel room : Nat) → List Char → Option (List Char)
  | 0, _, _ => none
  | fuel + 1, room, cs =>
    match cs with
    | ']' :: rest => some rest
    | _ => do
      let (_, rest) ← value? fuel room cs
      match ← skipGaps? false rest with
      | ',' :: rest => items? fuel room (← skipGaps? false rest)
      | ']' :: rest => some rest
      | _ => none

/-- The members of a table on one line and the end of it; what is left is the text behind it. -/
def inlineMembers? : (fuel room : Nat) → Members → List Char → Option (List Char)
  | 0, _, _, _ => none
  | fuel + 1, room, members, cs => do
    let (path, rest) ← key? cs
    match rest with
    | '=' :: rest => do
      let (value, rest) ← value? fuel room (skipBlanks rest)
      let members ← members.addValue? path value
      match skipBlanks rest with
      | ',' :: rest => inlineMembers? fuel room members rest
      | '\x7d' :: rest => some rest
      | _ => none
    | _ => none

end

/-! ## Lines -/

/-- A document that is being read: what it holds, and the path of the table that was begun last. -/
structure Draft where
  members : Members := []
  header : List String := []
deriving Repr

/-- A line that is not empty, and the text behind it. -/
def line? (fuel : Nat) (draft : Draft) (cs : List Char) : Option (Draft × List Char) :=
  match cs with
  | '[' :: '[' :: rest => do
    let (path, rest) ← key? rest
    match rest with
    | ']' :: ']' :: rest => do
      let members ← draft.members.addToTables? path
      some (⟨members, path⟩, ← restOfLine? rest)
    | _ => none
  | '[' :: rest => do
    let (path, rest) ← key? rest
    match rest with
    | ']' :: rest => do
      let members ← draft.members.addTable? path
      some (⟨members, path⟩, ← restOfLine? rest)
    | _ => none
  | _ => do
    let (path, rest) ← key? cs
    match rest with
    | '=' :: rest => do
      let (value, rest) ← value? fuel nestingLimit (skipBlanks rest)
      let members ← draft.members.addUnder? draft.header path value
      some ({ draft with members }, ← restOfLine? rest)
    | _ => none

def lines? : (fuel : Nat) → Draft → List Char → Option Draft
  | 0, _, _ => none
  | fuel + 1, draft, cs => do
    match ← skipGaps? false cs with
    | [] => some draft
    | cs => do
      let (draft, rest) ← line? fuel draft cs
      lines? fuel draft rest

/--
What stands under the keys of a document. Every step of the readers takes at least one character, or
is the last, so that the fuel lasts.
-/
def parse? (text : String) : Option Members :=
  let cs := match text.toList with
    | '\ufeff' :: cs => cs
    | cs => cs
  (lines? (2 * cs.length + 8) {} cs).map (·.members)

end DexGraft.Toml
