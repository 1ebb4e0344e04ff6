import DexGraft.Text.Numeral
import Mathlib.Data.List.Forall2
import Mathlib.Data.Nat.Digits.Defs
import Mathlib.Tactic.IntervalCases

/-!
# Numerals read back

A number that is written in base ten or sixteen reads as itself.  The base of what is written is
`base + 2` throughout, as in `digitsOf`, and at most sixteen.  What is read is a number exactly if
each of its characters is a digit of the base, and then it is the number that the digits make up.
-/

namespace DexGraft.Text.Numeral

/-! ## Digits -/

theorem digitValue?_digitChar {base d : Nat} (hd : d < base) (hbase : base ≤ 16) :
    digitValue? base (digitChar d) = some d := by
  have h16 : d < 16 := by omega
  interval_cases d <;> simp [digitValue?, digitChar, hd]

theorem digitsFrom?_append (base value : Nat) (a b : List Char) :
    digitsFrom? base value (a ++ b) =
      (digitsFrom? base value a).bind fun n => digitsFrom? base n b := by
  induction a generalizing value with
  | nil => rfl
  | cons c a ih =>
      simp only [List.cons_append, digitsFrom?, Option.bind_assoc]
      congr 1
      funext d
      exact ih _

/-- The digits that a number is written with are those below the base. -/
theorem exists_of_mem_digitsOf {base n : Nat} {c : Char} (h : c ∈ digitsOf base n) :
    ∃ d < base + 2, c = digitChar d := by
  fun_induction digitsOf base n with
  | case1 n hn =>
      rw [List.mem_singleton] at h
      exact ⟨n, hn, h⟩
  | case2 n hn ih =>
      rw [List.mem_append, List.mem_singleton] at h
      rcases h with h | rfl
      · exact ih h
      · exact ⟨_, Nat.mod_lt _ (by omega), rfl⟩

theorem digitsOf_ne_nil (base n : Nat) : digitsOf base n ≠ [] := by
  rw [digitsOf]
  split <;> simp

theorem digitsFrom?_digitsOf {base : Nat} (hbase : base + 2 ≤ 16) (n : Nat) :
    digitsFrom? (base + 2) 0 (digitsOf base n) = some n := by
  fun_induction digitsOf base n with
  | case1 n hn => simp [digitsFrom?, digitValue?_digitChar hn hbase]
  | case2 n hn ih =>
      have hmod : n % (base + 2) < base + 2 := Nat.mod_lt _ (by omega)
      rw [digitsFrom?_append, ih, Option.bind_some]
      simp [digitsFrom?, digitValue?_digitChar hmod hbase, Nat.div_add_mod']

/-- Digits of numbers are letters from `a` to `f` or digits. -/
theorem digitChar_ne_of_not_hex {d : Nat} (hd : d < 16) {c : Char}
    (h : c ∉ ['0', '1', '2', '3', '4', '5', '6', '7', '8', '9', 'a', 'b', 'c', 'd', 'e', 'f']) :
    digitChar d ≠ c := by
  rintro rfl
  interval_cases d <;> simp [digitChar] at h

/-- A character that is no digit does not occur in a number. -/
theorem not_mem_digitsOf {base n : Nat} (hbase : base + 2 ≤ 16) {c : Char}
    (h : c ∉ ['0', '1', '2', '3', '4', '5', '6', '7', '8', '9', 'a', 'b', 'c', 'd', 'e', 'f']) :
    c ∉ digitsOf base n := by
  intro hmem
  obtain ⟨d, hd, rfl⟩ := exists_of_mem_digitsOf hmem
  exact digitChar_ne_of_not_hex (by omega) h rfl

/-! ## Numbers -/

theorem digits?_digitsOf {base : Nat} (hbase : base + 2 ≤ 16) (n : Nat) :
    digits? (base + 2) (digitsOf base n) = some n := by
  rw [digits?, if_neg (by simpa using digitsOf_ne_nil base n), digitsFrom?_digitsOf hbase]

theorem unsigned?_digitsOf {base bound n : Nat} (hbase : base + 2 ≤ 16) (hn : n < bound) :
    unsigned? (base + 2) bound (digitsOf base n) = some n := by
  have hplus : '+' ∉ digitsOf base n := not_mem_digitsOf hbase (by decide)
  have hread := digits?_digitsOf hbase n
  rw [unsigned?]
  · simp [hread, hn]
  · intro rest heq
    simp [heq] at hplus

theorem digitsOf_injective {base : Nat} (hbase : base + 2 ≤ 16) {m n : Nat}
    (h : digitsOf base m = digitsOf base n) : m = n := by
  have := digitsFrom?_digitsOf hbase m
  rw [h, digitsFrom?_digitsOf hbase n, Option.some.injEq] at this
  exact this.symm

@[simp] theorem toList_decimal (n : Nat) : (decimal n).toList = digitsOf 8 n := by simp [decimal]

@[simp] theorem toList_hex (n : Nat) : (hex n).toList = digitsOf 14 n := by simp [hex]

/-! ## What is read -/

/-- The digits by value, with the letters in lower case. -/
def lowerDigits : List Char :=
  ['0', '1', '2', '3', '4', '5', '6', '7', '8', '9', 'a', 'b', 'c', 'd', 'e', 'f']

/-- The digits by value, with the letters in upper case. -/
def upperDigits : List Char :=
  ['0', '1', '2', '3', '4', '5', '6', '7', '8', '9', 'A', 'B', 'C', 'D', 'E', 'F']

/-- The character is the digit of the base with the value. -/
def IsDigit (base : Nat) (c : Char) (value : Nat) : Prop :=
  value < base ∧ (lowerDigits[value]? = some c ∨ upperDigits[value]? = some c)

/-- The characters are the digits of the number, of which the last counts least. -/
def WritesDigits (base : Nat) (cs : List Char) (n : Nat) : Prop :=
  cs ≠ [] ∧ ∃ values, List.Forall₂ (IsDigit base) cs values ∧ n = Nat.ofDigits base values.reverse

/-- The characters are the digits of the number, with or without a plus sign in front. -/
def WritesUnsigned (base : Nat) (cs : List Char) (n : Nat) : Prop :=
  ∃ sign digits, cs = sign ++ digits ∧ (sign = [] ∨ sign = ['+']) ∧ WritesDigits base digits n

theorem digitValue?_of_isDigit {base value : Nat} {c : Char} (h : IsDigit base c value)
    (hbase : base ≤ 16) : digitValue? base c = some value := by
  obtain ⟨hvalue, hc⟩ := h
  have h16 : value < 16 := by omega
  interval_cases value <;>
    rcases hc with hc | hc <;> cases hc <;> simp [digitValue?, hvalue]

theorem isDigit_of_digitValue? {base value : Nat} {c : Char} (h : digitValue? base c = some value)
    (hbase : base ≤ 16) : IsDigit base c value := by
  obtain ⟨hread, hvalue⟩ := Option.filter_eq_some_iff.mp h
  have hvalue : value < base := by simpa using hvalue
  have h16 : value < 16 := by omega
  have hchar : ∀ {n : Nat}, c.toNat = n → c = Char.ofNat n := by
    rintro _ rfl
    exact (Char.ofNat_toNat c).symm
  refine ⟨hvalue, ?_⟩
  split at hread
  · rename_i hc
    have hle : 48 ≤ c.toNat ∧ c.toNat ≤ 57 := hc
    have hn : c.toNat = value + 48 := by
      have heq : c.toNat - 48 = value := Option.some.inj hread
      omega
    have := hchar hn
    have hten : value < 10 := by omega
    clear hvalue h hread
    interval_cases value <;> exact .inl (by rw [this]; rfl)
  · split at hread
    · rename_i hc
      have hle : 97 ≤ c.toNat ∧ c.toNat ≤ 122 := hc
      have heq : c.toNat - 97 + 10 = value := Option.some.inj hread
      have := hchar (show c.toNat = value + 87 by omega)
      have hten : 10 ≤ value := by omega
      clear hvalue h hread
      interval_cases value <;> exact .inl (by rw [this]; rfl)
    · split at hread
      · rename_i hc
        have hle : 65 ≤ c.toNat ∧ c.toNat ≤ 90 := hc
        have heq : c.toNat - 65 + 10 = value := Option.some.inj hread
        have := hchar (show c.toNat = value + 55 by omega)
        have hten : 10 ≤ value := by omega
        clear hvalue h hread
        interval_cases value <;> exact .inr (by rw [this]; rfl)
      · cases hread

theorem digitValue?_eq_some_iff {base value : Nat} {c : Char} (hbase : base ≤ 16) :
    digitValue? base c = some value ↔ IsDigit base c value :=
  ⟨fun h => isDigit_of_digitValue? h hbase, fun h => digitValue?_of_isDigit h hbase⟩

/-- Digits are read one by one, and each moves what is in front of it by one place. -/
theorem digitsFrom?_eq_some_iff {base value n : Nat} {cs : List Char} (hbase : base ≤ 16) :
    digitsFrom? base value cs = some n ↔ ∃ values, List.Forall₂ (IsDigit base) cs values ∧
      n = value * base ^ cs.length + Nat.ofDigits base values.reverse := by
  induction cs generalizing value with
  | nil =>
      simp only [digitsFrom?, Option.some.injEq, List.forall₂_nil_left_iff, exists_eq_left,
        List.reverse_nil, Nat.ofDigits_nil, List.length_nil, Nat.pow_zero, Nat.mul_one, Nat.add_zero]
      exact eq_comm
  | cons c cs ih =>
      have hmoved : ∀ d (values : List Nat), cs.length = values.length →
          (value * base + d) * base ^ cs.length + Nat.ofDigits base values.reverse =
            value * base ^ (c :: cs).length + Nat.ofDigits base (d :: values).reverse := by
        intro d values hlength
        rw [List.reverse_cons, Nat.ofDigits_append, Nat.ofDigits_singleton, List.length_reverse,
          ← hlength, List.length_cons, Nat.pow_succ]
        ring
      rw [digitsFrom?, Option.bind_eq_some_iff]
      constructor
      · rintro ⟨d, hd, h⟩
        obtain ⟨values, hvalues, rfl⟩ := ih.mp h
        exact ⟨d :: values, .cons ((digitValue?_eq_some_iff hbase).mp hd) hvalues,
          hmoved d values hvalues.length_eq⟩
      · rintro ⟨_, hall, rfl⟩
        obtain ⟨d, values, hd, hvalues, rfl⟩ := List.forall₂_cons_left_iff.mp hall
        exact ⟨d, (digitValue?_eq_some_iff hbase).mpr hd,
          ih.mpr ⟨values, hvalues, (hmoved d values hvalues.length_eq).symm⟩⟩

theorem digits?_eq_some_iff {base n : Nat} {cs : List Char} (hbase : base ≤ 16) :
    digits? base cs = some n ↔ WritesDigits base cs n := by
  rw [digits?, WritesDigits]
  cases cs with
  | nil => exact iff_of_false nofun fun h => h.1 rfl
  | cons c cs =>
      rw [if_neg (by simp), digitsFrom?_eq_some_iff hbase, Nat.zero_mul]
      simp

theorem WritesDigits.head_ne_plus {base n : Nat} {cs : List Char} (h : WritesDigits base cs n)
    (rest : List Char) : cs ≠ '+' :: rest := by
  rintro rfl
  obtain ⟨-, values, hall, -⟩ := h
  obtain ⟨d, -, ⟨-, hd⟩, -, -⟩ := List.forall₂_cons_left_iff.mp hall
  have hmem : '+' ∈ lowerDigits ∨ '+' ∈ upperDigits :=
    hd.imp List.mem_of_getElem? List.mem_of_getElem?
  revert hmem
  decide

/-- A number is read if it is below the bound. -/
theorem unsigned?_eq_some_iff {base bound n : Nat} {cs : List Char} (hbase : base ≤ 16) :
    unsigned? base bound cs = some n ↔ WritesUnsigned base cs n ∧ n < bound := by
  have hread : ∀ digits, (digits? base digits).filter (· < bound) = some n ↔
      WritesDigits base digits n ∧ n < bound := by
    intro digits
    rw [Option.filter_eq_some_iff, digits?_eq_some_iff hbase, decide_eq_true_iff]
  constructor
  · intro h
    simp only [unsigned?] at h
    split at h
    · obtain ⟨h, hn⟩ := (hread _).mp h
      exact ⟨⟨['+'], _, rfl, .inr rfl, h⟩, hn⟩
    · obtain ⟨h, hn⟩ := (hread _).mp h
      exact ⟨⟨[], cs, rfl, .inl rfl, h⟩, hn⟩
  · rintro ⟨⟨sign, digits, rfl, rfl | rfl, h⟩, hn⟩
    · rw [List.nil_append, unsigned?]
      · exact (hread _).mpr ⟨h, hn⟩
      · exact h.head_ne_plus
    · exact (hread digits).mpr ⟨h, hn⟩

end DexGraft.Text.Numeral
