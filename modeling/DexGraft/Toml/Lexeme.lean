import DexGraft.Text.Cut
import DexGraft.Text.Numeral

/-!
# TOML lexemes

The parts of a configuration file that do not nest: blanks and comments, strings, and the spellings
of numbers, dates and times. Each reader gives what it has read and the text behind it.
-/

namespace DexGraft.Toml

open Text

/-! ## Blanks and comments -/

def skipBlanks (cs : List Char) : List Char := cs.dropWhile fun c => c == ' ' || c == '\t'

/-- A character that may stand in a comment or a string; a tab may, no other control character. -/
def isPlain (c : Char) : Bool := c == '\t' || (0x20 ≤ c.toNat && c.toNat != 0x7f)

/-- The text behind the end of a line, or nothing behind the end of the text. -/
def lineEnd? : List Char → Option (List Char)
  | [] => some []
  | '\n' :: cs | '\r' :: '\n' :: cs => some cs
  | _ => none

/-- The text behind a line of which nothing but blanks and a comment is left. -/
def restOfLine? (cs : List Char) : Option (List Char) :=
  match skipBlanks cs with
  | '#' :: cs => lineEnd? (cs.dropWhile isPlain)
  | cs => lineEnd? cs

/-- The text behind blanks, comments and ends of lines. -/
def skipGaps? (inComment : Bool) : List Char → Option (List Char)
  | [] => some []
  | '\n' :: cs | '\r' :: '\n' :: cs => skipGaps? false cs
  | c :: cs =>
    if inComment then if isPlain c then skipGaps? true cs else none
    else if c = ' ' ∨ c = '\t' then skipGaps? false cs
    else if c = '#' then skipGaps? true cs
    else some (c :: cs)

/-! ## Strings -/

/-- The character with a number in base sixteen. -/
def charOfHex? (digits : List Char) : Option Char := do
  let n ← Numeral.digits? 16 digits
  if n.isValidChar then some (Char.ofNat n) else none

/-- The character that an escape of one letter stands for. -/
def escapeLetter? : Char → Option Char
  | 'b' => some '\x08'
  | 't' => some '\t'
  | 'n' => some '\n'
  | 'f' => some '\x0c'
  | 'r' => some '\r'
  | '"' => some '"'
  | '\\' => some '\\'
  | _ => none

/-- A string and the text behind it. -/
abbrev Reading := Option (List Char × List Char)

/-- The string with a character in front of it. -/
def Reading.cons (c : Char) (reading : Reading) : Reading :=
  reading.map fun (string, rest) => (c :: string, rest)

/-- A string between single quotes, behind the first of them. -/
def literalString : List Char → Reading
  | [] => none
  | '\'' :: cs => some ([], cs)
  | c :: cs => if isPlain c then (literalString cs).cons c else none

/-- A string between double quotes, behind the first of them. -/
def basicString : List Char → Reading
  | [] => none
  | '"' :: cs => some ([], cs)
  | '\\' :: 'u' :: a :: b :: c :: d :: cs => do
    (basicString cs).cons (← charOfHex? [a, b, c, d])
  | '\\' :: 'U' :: a :: b :: c :: d :: e :: f :: g :: h :: cs => do
    (basicString cs).cons (← charOfHex? [a, b, c, d, e, f, g, h])
  | '\\' :: c :: cs => do (basicString cs).cons (← escapeLetter? c)
  | c :: cs => if isPlain c then (basicString cs).cons c else none

/-- A string of several lines between three single quotes, behind the first three. -/
def literalLines : List Char → Reading
  | [] => none
  | '\'' :: '\'' :: '\'' :: '\'' :: '\'' :: cs => some (['\'', '\''], cs)
  | '\'' :: '\'' :: '\'' :: '\'' :: cs => some (['\''], cs)
  | '\'' :: '\'' :: '\'' :: cs => some ([], cs)
  | '\n' :: cs | '\r' :: '\n' :: cs => (literalLines cs).cons '\n'
  | c :: cs => if isPlain c then (literalLines cs).cons c else none

/-- Whether a backslash at the end of a line is being skipped with the blanks behind it. -/
inductive LineJoin where
  | no
  /-- Behind the backslash, in front of the end of its line. -/
  | opened
  /-- Behind the end of the line. -/
  | closed
deriving DecidableEq, Repr

/-- A string of several lines between three double quotes, behind the first three. -/
def basicLines : LineJoin → List Char → Reading
  | _, [] => none
  | .opened, '\n' :: cs | .opened, '\r' :: '\n' :: cs => basicLines .closed cs
  | .opened, c :: cs => if c = ' ' ∨ c = '\t' then basicLines .opened cs else none
  | .closed, '\n' :: cs | .closed, '\r' :: '\n' :: cs | .closed, ' ' :: cs
  | .closed, '\t' :: cs => basicLines .closed cs
  | _, '"' :: '"' :: '"' :: '"' :: '"' :: cs => some (['"', '"'], cs)
  | _, '"' :: '"' :: '"' :: '"' :: cs => some (['"'], cs)
  | _, '"' :: '"' :: '"' :: cs => some ([], cs)
  | _, '\n' :: cs | _, '\r' :: '\n' :: cs => (basicLines .no cs).cons '\n'
  | _, '\\' :: 'u' :: a :: b :: c :: d :: cs => do
    (basicLines .no cs).cons (← charOfHex? [a, b, c, d])
  | _, '\\' :: 'U' :: a :: b :: c :: d :: e :: f :: g :: h :: cs => do
    (basicLines .no cs).cons (← charOfHex? [a, b, c, d, e, f, g, h])
  | _, '\\' :: c :: cs =>
    match escapeLetter? c with
    | some character => (basicLines .no cs).cons character
    | none =>
      if c = '\n' then basicLines .closed cs
      else if c = ' ' ∨ c = '\t' ∨ c = '\r' then basicLines .opened (c :: cs)
      else none
  | _, c :: cs => if isPlain c then (basicLines .no cs).cons c else none

/-- A text without the line end at its beginning, if there is one. -/
def dropLineEnd : List Char → List Char
  | '\n' :: cs | '\r' :: '\n' :: cs => cs
  | cs => cs

/-- A string in any of its four spellings. -/
def string? : List Char → Reading
  | '"' :: '"' :: '"' :: cs => basicLines .no (dropLineEnd cs)
  | '\'' :: '\'' :: '\'' :: cs => literalLines (dropLineEnd cs)
  | '"' :: cs => basicString cs
  | '\'' :: cs => literalString cs
  | _ => none

/-! ## Numbers, dates and times -/

/-- The digits without the underscores, each of which has to stand between two digits. -/
def dropUnderscores? (isDigit : Char → Bool) (cs : List Char) : Option (List Char) := do
  let groups := parts (· == '_') cs
  if groups.all fun group => !group.isEmpty && group.all isDigit then some groups.flatten
  else none

/-- The digits of a whole number without its sign, which begin with a zero only alone. -/
def wholeDigits? (cs : List Char) : Option (List Char) := do
  let digits ← dropUnderscores? Char.isDigit cs
  if digits.head? = some '0' ∧ 1 < digits.length then none else some digits

/-- Whether there is a minus sign, and what stands behind the sign. -/
def splitSign : List Char → Bool × List Char
  | '-' :: cs => (true, cs)
  | '+' :: cs => (false, cs)
  | cs => (false, cs)

/-- Whether the digits of a base make a number below 2 to the power of 63. -/
def isBased (base : Nat) (digits : List Char) : Bool :=
  match dropUnderscores? (fun c => (Numeral.digitValue? base c).isSome) digits with
  | some digits => (Numeral.unsigned? base (Nat.pow 2 63) digits).isSome
  | none => false

def isInteger : List Char → Bool
  | '0' :: 'x' :: digits => isBased 16 digits
  | '0' :: 'o' :: digits => isBased 8 digits
  | '0' :: 'b' :: digits => isBased 2 digits
  | cs =>
    let (negative, cs) := splitSign cs
    match wholeDigits? cs with
    | some digits =>
      (Numeral.unsigned? 10 (if negative then Nat.pow 2 63 + 1 else Nat.pow 2 63) digits).isSome
    | none => false

/--
Whether a decimal number is too large for a number of double precision: it is at least
`2 ^ 1024 - 2 ^ 970`, which has 309 digits. A number with another count of digits in front of its
point is not compared digit by digit.
-/
def isTooLarge (digits fraction : List Char) (exponent : Int) : Bool :=
  let significant := (digits ++ fraction).dropWhile (· == '0')
  let shift := exponent - fraction.length
  let whole := significant.length + shift
  if significant.isEmpty || whole < 309 then false
  else if 309 < whole then true
  else match Numeral.digits? 10 significant with
    | none => false
    | some n =>
      let bound := Nat.pow 2 1024 - Nat.pow 2 970
      let scale := Nat.pow 10 shift.natAbs
      if shift < 0 then bound * scale ≤ n else bound ≤ n * scale

/-- The digits behind a point, and what stands in front of it. -/
def splitFraction? (cs : List Char) : Option (List Char × List Char) :=
  match cut? (· == '.') cs with
  | none => some (cs, [])
  | some (whole, fraction) => (dropUnderscores? Char.isDigit fraction).map (whole, ·)

/-- The exponent, and what stands in front of it. -/
def splitExponent? (cs : List Char) : Option (List Char × Int) :=
  match cut? (fun c => c == 'e' || c == 'E') cs with
  | none => some (cs, 0)
  | some (front, exponent) => do
    let (negative, digits) := splitSign exponent
    let n ← Numeral.digits? 10 (← dropUnderscores? Char.isDigit digits)
    some (front, if negative then -(n : Int) else n)

/-- A number with a fraction or an exponent, or one of the two that are not finite. -/
def isFloat (cs : List Char) : Bool :=
  let (negative, unsigned) := splitSign cs
  if unsigned = ['i', 'n', 'f'] ∨ unsigned = ['n', 'a', 'n'] then true
  else if !unsigned.any fun c => c == '.' || c == 'e' || c == 'E' then false
  else match splitExponent? unsigned with
    | none => false
    | some (front, exponent) =>
      match splitFraction? front with
      | none => false
      | some (whole, fraction) =>
        match wholeDigits? whole with
        | none => false
        | some digits => negative || !isTooLarge digits fraction exponent

/-- A number of two digits between two bounds. -/
def isPair (low high : Nat) (a b : Char) : Bool :=
  match Numeral.digits? 10 [a, b] with
  | some n => low ≤ n && n ≤ high
  | none => false

def daysIn (year month : Nat) : Nat :=
  if month = 2 then
    if year % 4 = 0 ∧ (year % 100 ≠ 0 ∨ year % 400 = 0) then 29 else 28
  else if month ∈ [4, 6, 9, 11] then 30
  else 31

/-- Whether the text begins with a date, and what stands behind it. -/
def dropDate? : List Char → Option (List Char)
  | a :: b :: c :: d :: '-' :: e :: f :: '-' :: g :: h :: cs => do
    let year ← Numeral.digits? 10 [a, b, c, d]
    let month ← Numeral.digits? 10 [e, f]
    if isPair 1 12 e f && isPair 1 (daysIn year month) g h then some cs else none
  | _ => none

/-- Whether the text begins with a time of day, and what stands behind it. -/
def dropTime? : List Char → Option (List Char)
  | a :: b :: ':' :: c :: d :: ':' :: e :: f :: cs =>
    if isPair 0 23 a b && isPair 0 59 c d && isPair 0 60 e f then
      match cs with
      | '.' :: fraction =>
        if (fraction.takeWhile Char.isDigit).isEmpty then none
        else some (fraction.dropWhile Char.isDigit)
      | _ => some cs
    else none
  | _ => none

/-- Whether a text is the distance of a local time from the universal one. -/
def isOffset : List Char → Bool
  | ['Z'] | ['z'] => true
  | [sign, a, b, ':', c, d] =>
    (sign == '+' || sign == '-') && isPair 0 23 a b && isPair 0 59 c d
  | _ => false

/-- A date, a time of day, or a date with a time of day and an offset, if any. -/
def isDateTime (cs : List Char) : Bool :=
  match dropDate? cs with
  | none => dropTime? cs == some []
  | some [] => true
  | some (c :: cs) =>
    (c == 'T' || c == 't' || c == ' ') &&
    match dropTime? cs with
    | some [] => true
    | some offset => isOffset offset
    | none => false

/-- Whether a character belongs to the spelling of a number, a date or a time. -/
def isWordChar (c : Char) : Bool := c.isAlphanum || ['_', '+', '-', '.', ':'].contains c

/-- A word and the text behind it. One blank between a date and a time belongs to the word. -/
def word (cs : List Char) : List Char × List Char :=
  let front := cs.takeWhile isWordChar
  let rest := cs.dropWhile isWordChar
  match dropDate? front, rest with
  | some [], ' ' :: more =>
    if (dropTime? more).isSome then
      (front ++ ' ' :: more.takeWhile isWordChar, more.dropWhile isWordChar)
    else (front, rest)
  | _, _ => (front, rest)

end DexGraft.Toml
