import DexGraft.Text.Numeral

/-!
# JSON tokens

Brackets, commas, colons, strings, numbers and the three literals, as a machine that reads a text
character by character.
-/

namespace DexGraft.Json

open Text

inductive Token where
  | openArray | closeArray | openObject | closeObject | comma | colon
  | null
  | bool (value : Bool)
  | int (value : Int)
  /-- A number with a fraction or an exponent, or the negative zero. -/
  | real
  | str (value : String)
  /-- A string with half a surrogate pair in it. -/
  | torn
deriving DecidableEq, Repr

/-- A string that is being read. -/
structure Draft where
  /-- The characters so far, last one first. -/
  chars : List Char := []
  /-- The high surrogate in front, which a low one has to follow. -/
  high : Option Nat := none
  /-- Whether there was half a surrogate pair. -/
  isTorn : Bool := false
deriving DecidableEq, Repr

namespace Draft

/-- A string in which a high surrogate has nothing to follow it any more. -/
def settle (draft : Draft) : Draft :=
  { draft with high := none, isTorn := draft.isTorn || draft.high.isSome }

def push (draft : Draft) (c : Char) : Draft :=
  let draft := draft.settle
  { draft with chars := c :: draft.chars }

/-- Adds a unit of sixteen bits, which may be one half of a surrogate pair. -/
def pushUnit (draft : Draft) (unit : Nat) : Draft :=
  if 0xd800 ≤ unit ∧ unit < 0xdc00 then { draft.settle with high := some unit }
  else if 0xdc00 ≤ unit ∧ unit < 0xe000 then
    match draft.high with
    | some high =>
      { draft with
        chars := Char.ofNat (0x10000 + (high - 0xd800) * 0x400 + (unit - 0xdc00)) :: draft.chars
        high := none }
    | none => { draft with isTorn := true }
  else draft.push (Char.ofNat unit)

def token (draft : Draft) : Token :=
  let draft := draft.settle
  if draft.isTorn then .torn else .str (String.ofList draft.chars.reverse)

end Draft

/-- Where the machine stands. -/
inductive LexState where
  | between
  /-- In a number or a literal; its characters, last one first. -/
  | word (chars : List Char)
  | string (draft : Draft)
  /-- Behind the backslash of an escape. -/
  | escape (draft : Draft)
  /-- In the four digits of a unit: how many are left, and the value so far. -/
  | unit (draft : Draft) (left value : Nat)
deriving DecidableEq, Repr

/-- The exponent of a number, or nothing. -/
def isExponent : List Char → Bool
  | [] => true
  | c :: cs =>
    (c == 'e' || c == 'E') &&
      let digits := match cs with
        | '+' :: rest | '-' :: rest => rest
        | _ => cs
      (Numeral.digits? 10 digits).isSome

/-- The fraction and the exponent of a number, or nothing. -/
def isFraction : List Char → Bool
  | '.' :: cs => !(cs.takeWhile Char.isDigit).isEmpty && isExponent (cs.dropWhile Char.isDigit)
  | cs => isExponent cs

/-- A number without its sign. -/
def unsignedToken? (negative : Bool) (cs : List Char) : Option Token :=
  let digits := cs.takeWhile Char.isDigit
  let rest := cs.dropWhile Char.isDigit
  if digits.isEmpty || (digits.length != 1 && digits.head? == some '0') || !isFraction rest then
    none
  else if !rest.isEmpty then some .real
  else
    (Numeral.digits? 10 digits).map fun n =>
      if !negative then .int n else if n = 0 then .real else .int (-(n : Int))

/-- A number or a literal. -/
def wordToken? : List Char → Option Token
  | ['n', 'u', 'l', 'l'] => some .null
  | ['t', 'r', 'u', 'e'] => some (.bool true)
  | ['f', 'a', 'l', 's', 'e'] => some (.bool false)
  | '-' :: cs => unsignedToken? true cs
  | cs => unsignedToken? false cs

/-- What a character between tokens is: the tokens that it completes, and where that leads. -/
def LexState.start (c : Char) : List Token × LexState :=
  match c with
  | ' ' | '\n' | '\r' | '\t' => ([], .between)
  | '[' => ([.openArray], .between)
  | ']' => ([.closeArray], .between)
  | '\x7b' => ([.openObject], .between)
  | '\x7d' => ([.closeObject], .between)
  | ',' => ([.comma], .between)
  | ':' => ([.colon], .between)
  | '"' => ([], .string {})
  | c => ([], .word [c])

/-- The character that an escape of one letter stands for. -/
def escaped? : Char → Option Char
  | '"' => some '"'
  | '\\' => some '\\'
  | '/' => some '/'
  | 'b' => some '\x08'
  | 'f' => some '\x0c'
  | 'n' => some '\n'
  | 'r' => some '\r'
  | 't' => some '\t'
  | _ => none

/-- The tokens that a character completes, and where it leads. -/
def LexState.next? : LexState → Char → Option (List Token × LexState)
  | between, c => some (start c)
  | word chars, c =>
    match start c with
    | (_, .word _) => some ([], word (c :: chars))
    | (tokens, state) => (wordToken? chars.reverse).map fun token => (token :: tokens, state)
  | string draft, c =>
    if c = '"' then some ([draft.token], between)
    else if c = '\\' then some ([], escape draft)
    else if c.toNat < 0x20 then none
    else some ([], string (draft.push c))
  | escape draft, c =>
    if c = 'u' then some ([], unit draft 3 0)
    else (escaped? c).map fun c => ([], string (draft.push c))
  | unit draft left value, c =>
    (Numeral.digitValue? 16 c).map fun d =>
      let value := value * 16 + d
      match left with
      | 0 => ([], string (draft.pushUnit value))
      | left + 1 => ([], unit draft left value)

/-- The tokens that the end of the text completes. -/
def LexState.finish? : LexState → Option (List Token)
  | between => some []
  | word chars => (wordToken? chars.reverse).map ([·])
  | _ => none

/-- The tokens that are complete, last one first, and where the machine stands. -/
structure Lexer where
  done : List Token := []
  state : LexState := .between
deriving DecidableEq, Repr

def Lexer.next? (lexer : Lexer) (c : Char) : Option Lexer :=
  (lexer.state.next? c).map fun (tokens, state) => ⟨tokens.reverse ++ lexer.done, state⟩

/-- The tokens of a text. -/
def tokens? (cs : List Char) : Option (List Token) := do
  let lexer ← cs.foldlM Lexer.next? {}
  let last ← lexer.state.finish?
  some (lexer.done.reverse ++ last)

end DexGraft.Json
