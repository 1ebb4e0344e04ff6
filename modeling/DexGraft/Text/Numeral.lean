/-!
# Numerals

Whole numbers as text in base ten or sixteen, with an optional sign where the number may have one.
-/

namespace DexGraft.Text.Numeral

/-- The value of a digit of base `base`, in either case of the letters. -/
def digitValue? (base : Nat) (c : Char) : Option Nat :=
  let value? :=
    if '0' ≤ c ∧ c ≤ '9' then some (c.toNat - '0'.toNat)
    else if 'a' ≤ c ∧ c ≤ 'z' then some (c.toNat - 'a'.toNat + 10)
    else if 'A' ≤ c ∧ c ≤ 'Z' then some (c.toNat - 'A'.toNat + 10)
    else none
  value?.filter (· < base)

/-- The value of `value`, written, with the given digits behind it. -/
def digitsFrom? (base value : Nat) : List Char → Option Nat
  | [] => some value
  | c :: cs => (digitValue? base c).bind fun d => digitsFrom? base (value * base + d) cs

/-- The value of a run of at least one digit. -/
def digits? (base : Nat) (cs : List Char) : Option Nat :=
  if cs.isEmpty then none else digitsFrom? base 0 cs

/-- A number below `bound`, with at most one `+` in front of its digits. -/
def unsigned? (base bound : Nat) (cs : List Char) : Option Nat :=
  let digits := match cs with
    | '+' :: rest => rest
    | _ => cs
  (digits? base digits).filter (· < bound)

/-- A number from `-bound` up to `bound - 1`, with at most one sign in front of its digits. -/
def signed? (base bound : Nat) (cs : List Char) : Option Int :=
  match cs with
  | '-' :: rest => (digits? base rest).bind fun n => if n ≤ bound then some (-(n : Int)) else none
  | _ => (unsigned? base bound cs).map (Int.ofNat ·)

/-- The digit for a value below sixteen, in lower case. -/
def digitChar (value : Nat) : Char :=
  if value < 10 then Char.ofNat (value + '0'.toNat) else Char.ofNat (value - 10 + 'a'.toNat)

/-- The digits of `n` in the base `base + 2`, without leading zeros. -/
def digitsOf (base n : Nat) : List Char :=
  if n < base + 2 then [digitChar n]
  else digitsOf base (n / (base + 2)) ++ [digitChar (n % (base + 2))]
termination_by n
decreasing_by exact Nat.div_lt_self (by omega) (by omega)

/-- A number in base ten. -/
def decimal (n : Nat) : String := String.ofList (digitsOf 8 n)

/-- A number in base sixteen, in lower case. -/
def hex (n : Nat) : String := String.ofList (digitsOf 14 n)

/-- A number in base ten, with `-` in front of a negative one. -/
def signedDecimal (n : Int) : String :=
  if n < 0 then "-" ++ decimal n.natAbs else decimal n.natAbs

end DexGraft.Text.Numeral
