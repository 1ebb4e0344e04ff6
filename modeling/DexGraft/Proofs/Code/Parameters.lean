import DexGraft.Code.Method
import Mathlib.Order.Monotone.Basic

/-!
# Registers of parameters

The parameters of a method lie in its last registers, the receiver first and each of the others
behind the one declared before it.  The main statement says which register each of them begins at,
that no two meet, and that nothing on the way to such a register leaves the numbers that a register
can have.
-/

namespace DexGraft

/-! ## Widths -/

namespace Descriptor

theorem width_pos (descriptor : String) : 0 < width descriptor := by
  rw [width]
  split <;> decide

theorem width_le_two (descriptor : String) : width descriptor ≤ 2 := by
  rw [width]
  split <;> decide

theorem totalWidth_append (types types' : List String) :
    totalWidth (types ++ types') = totalWidth types + totalWidth types' := by
  induction types with
  | nil => rw [List.nil_append, totalWidth, Nat.zero_add]
  | cons type types ih => rw [List.cons_append, totalWidth, totalWidth, ih, Nat.add_assoc]

theorem totalWidth_take_add_drop (types : List String) (k : Nat) :
    totalWidth (types.take k) + totalWidth (types.drop k) = totalWidth types := by
  rw [← totalWidth_append, List.take_append_drop]

theorem totalWidth_take_succ {types : List String} {k : Nat} {type : String}
    (h : types[k]? = some type) :
    totalWidth (types.take (k + 1)) = totalWidth (types.take k) + width type := by
  rw [List.take_add_one, totalWidth_append, h, Option.toList_some, totalWidth, totalWidth,
    Nat.add_zero]

theorem monotone_totalWidth_take (types : List String) :
    Monotone fun k => totalWidth (types.take k) := by
  refine monotone_nat_of_le_succ fun k => ?_
  cases h : types[k]? with
  | none => rw [List.take_add_one, h, Option.toList_none, List.append_nil]
  | some type =>
      rw [totalWidth_take_succ h]
      exact Nat.le_add_right _ _

end Descriptor

/-! ## Numbers that a register can have -/

namespace Register

/-- The sum, if it is the number of a register. -/
def add? (a b : Register) : Option Register :=
  if a.toNat + b.toNat < UInt16.size then some (a + b) else none

/-- The difference, if it is the number of a register. -/
def sub? (a b : Register) : Option Register := if b ≤ a then some (a - b) else none

theorem add?_eq_some_iff {a b c : Register} :
    add? a b = some c ↔ c.toNat = a.toNat + b.toNat := by
  have hc := c.toNat_lt_size
  rw [add?]
  split
  · rename_i hfits
    rw [Option.some.injEq, ← UInt16.toNat_inj, UInt16.toNat_add, Nat.mod_eq_of_lt hfits, eq_comm]
  · rename_i hfits
    exact iff_of_false nofun fun heq => hfits (heq ▸ hc)

theorem exists_sub?_eq_some {a b : Register} (h : b.toNat ≤ a.toNat) :
    ∃ c, sub? a b = some c ∧ c.toNat + b.toNat = a.toNat := by
  have hle : b ≤ a := UInt16.le_iff_toNat_le.mpr h
  refine ⟨a - b, if_pos hle, ?_⟩
  rw [UInt16.toNat_sub_of_le a b hle]
  exact Nat.sub_add_cancel h

theorem toNat_width (descriptor : String) :
    (UInt16.ofNat (Descriptor.width descriptor)).toNat = Descriptor.width descriptor :=
  UInt16.toNat_ofNat_of_lt' (lt_of_le_of_lt (Descriptor.width_le_two descriptor) (by decide))

/-- Widths are added up one by one, as long as each sum is the number of a register. -/
theorem foldlM_add?_eq_some_iff {types : List String} {sum total : Register} :
    types.foldlM (fun sum type => add? sum (.ofNat (Descriptor.width type))) sum = some total ↔
      total.toNat = sum.toNat + Descriptor.totalWidth types := by
  induction types generalizing sum with
  | nil =>
      rw [List.foldlM_nil, Option.pure_def, Option.some.injEq, Descriptor.totalWidth, Nat.add_zero,
        UInt16.toNat_inj, eq_comm]
  | cons type types ih =>
      have htotal := total.toNat_lt_size
      rw [List.foldlM_cons, Option.bind_eq_bind, Option.bind_eq_some_iff, Descriptor.totalWidth]
      constructor
      · rintro ⟨next, hnext, hrest⟩
        rw [add?_eq_some_iff, toNat_width] at hnext
        rw [ih.mp hrest, hnext, Nat.add_assoc]
      · intro heq
        have hnext : (UInt16.ofNat (sum.toNat + Descriptor.width type)).toNat =
            sum.toNat + Descriptor.width type := UInt16.toNat_ofNat_of_lt' (by omega)
        refine ⟨_, add?_eq_some_iff.mpr (hnext.trans ?_), ih.mpr ?_⟩
        · rw [toNat_width]
        · rw [heq, hnext, Nat.add_assoc]

end Register

namespace Method

variable {method : Method}

/-- The number of parameter registers, if each step of the count is the number of a register. -/
def parameterWordCount? (method : Method) : Option Register := do
  let widths ← method.parameters.foldlM
    (fun sum type => Register.add? sum (.ofNat (Descriptor.width type))) 0
  Register.add? (if method.isStatic then 0 else 1) widths

/-- The register that holds parameter register `n`, if the method has one, and if each step on the
way to it is the number of a register. -/
def parameterWord? (method : Method) (n : Register) : Option (Option Register) := do
  let count ← method.parameterWordCount?
  if count ≤ n ∨ method.registers < count then some none
  else
    let front ← Register.sub? method.registers count
    let register ← Register.add? front n
    some (some register)

theorem parameterWordCount?_eq_some_iff {count : Register} :
    method.parameterWordCount? = some count ↔ count.toNat = method.parameterRegisterCount := by
  have hcount := count.toNat_lt_size
  have hreceiver : (if method.isStatic then 0 else 1 : Register).toNat =
      if method.isStatic then 0 else 1 := by
    split <;> rfl
  rw [parameterWordCount?, Option.bind_eq_bind, Option.bind_eq_some_iff, parameterRegisterCount]
  constructor
  · rintro ⟨widths, hwidths, heq⟩
    rw [Register.foldlM_add?_eq_some_iff] at hwidths
    rw [Register.add?_eq_some_iff, hreceiver, hwidths] at heq
    simpa using heq
  · intro heq
    have hwidths : (UInt16.ofNat (Descriptor.totalWidth method.parameters)).toNat =
        Descriptor.totalWidth method.parameters := UInt16.toNat_ofNat_of_lt' (by omega)
    refine ⟨_, Register.foldlM_add?_eq_some_iff.mpr (hwidths.trans (Nat.zero_add _).symm), ?_⟩
    rw [Register.add?_eq_some_iff, hreceiver, hwidths, heq]

/-! ## The register of a parameter register -/

/-- The parameter registers are the last registers, in their own order. -/
theorem parameterRegister?_eq_some_iff {n : Nat} {register : Register} :
    method.parameterRegister? n = some register ↔
      n < method.parameterRegisterCount ∧ method.parameterRegisterCount ≤ method.registers.toNat ∧
        register.toNat + method.parameterRegisterCount = method.registers.toNat + n := by
  have hregisters := method.registers.toNat_lt_size
  have hregister := register.toNat_lt_size
  rw [parameterRegister?]
  split
  · rename_i h
    have hnumber :
        (UInt16.ofNat (method.registers.toNat - method.parameterRegisterCount + n)).toNat =
          method.registers.toNat - method.parameterRegisterCount + n :=
      UInt16.toNat_ofNat_of_lt' (by omega)
    rw [Option.some.injEq, ← UInt16.toNat_inj, hnumber, and_iff_right h.1, and_iff_right h.2]
    omega
  · rename_i h
    exact iff_of_false nofun fun heq => h ⟨heq.1, heq.2.1⟩

theorem parameterRegister?_lt_iff {m n : Nat} {register register' : Register}
    (hm : method.parameterRegister? m = some register)
    (hn : method.parameterRegister? n = some register') : m < n ↔ register < register' := by
  obtain ⟨-, -, hm⟩ := parameterRegister?_eq_some_iff.mp hm
  obtain ⟨-, -, hn⟩ := parameterRegister?_eq_some_iff.mp hn
  rw [UInt16.lt_iff_toNat_lt]
  omega

/-- Each of the last registers is taken, and none in front of them. -/
theorem exists_parameterRegister?_eq_iff {register : Register} :
    (∃ n, method.parameterRegister? n = some register) ↔
      method.parameterRegisterCount ≤ method.registers.toNat ∧
        method.registers.toNat - method.parameterRegisterCount ≤ register.toNat ∧
          register < method.registers := by
  simp only [parameterRegister?_eq_some_iff, UInt16.lt_iff_toNat_lt]
  constructor
  · rintro ⟨n, hn, hfits, heq⟩
    omega
  · rintro ⟨hfits, hfront, hlast⟩
    exact ⟨register.toNat + method.parameterRegisterCount - method.registers.toNat, by omega⟩

theorem exists_parameterRegister?_iff {n : Nat} :
    (∃ register, method.parameterRegister? n = some register) ↔
      n < method.parameterRegisterCount ∧
        method.parameterRegisterCount ≤ method.registers.toNat := by
  rw [← Option.isSome_iff_exists, parameterRegister?]
  split
  · rename_i h
    exact iff_of_true rfl h
  · rename_i h
    exact iff_of_false nofun h

theorem parameterRegister?_eq_none_iff {n : Nat} :
    method.parameterRegister? n = none ↔
      method.parameterRegisterCount ≤ n ∨
        method.registers.toNat < method.parameterRegisterCount := by
  rw [← not_iff_not, ← ne_eq, Option.ne_none_iff_exists', exists_parameterRegister?_iff]
  omega

/-- No step towards a register leaves the numbers of registers, if the count does not. -/
theorem parameterWord?_eq (hcount : method.parameterRegisterCount < UInt16.size) (n : Register) :
    method.parameterWord? n = some (method.parameterRegister? n.toNat) := by
  obtain ⟨count, hword⟩ : ∃ count : Register, count.toNat = method.parameterRegisterCount :=
    ⟨.ofNat _, UInt16.toNat_ofNat_of_lt' hcount⟩
  rw [parameterWord?, parameterWordCount?_eq_some_iff.mpr hword, Option.bind_eq_bind,
    Option.bind_some]
  simp only [UInt16.le_iff_toNat_le, UInt16.lt_iff_toNat_lt, hword]
  cases hfound : method.parameterRegister? n.toNat with
  | none => exact if_pos (parameterRegister?_eq_none_iff.mp hfound)
  | some register =>
      have hsome : method.parameterRegister? n.toNat ≠ none := hfound ▸ nofun
      obtain ⟨-, hfits, heq⟩ := parameterRegister?_eq_some_iff.mp hfound
      -- what is left in front of the parameters, and then the register among them
      obtain ⟨front, hfront, hrest⟩ := Register.exists_sub?_eq_some (hword.trans_le hfits)
      have hregister : Register.add? front n = some register :=
        Register.add?_eq_some_iff.mpr (by omega)
      rw [if_neg (mt parameterRegister?_eq_none_iff.mpr hsome), hfront, Option.bind_some, hregister,
        Option.bind_some]

/-! ## The registers of a declared parameter -/

/-- How many parameter registers there are in front of those of the declared parameter `k`. -/
def parameterStart (method : Method) (k : Nat) : Nat :=
  (if method.isStatic then 0 else 1) + Descriptor.totalWidth (method.parameters.take k)

/-- The register holds the declared parameter `k`, or one half of it. -/
def HoldsParameter (method : Method) (k : Nat) (register : Register) : Prop :=
  ∃ type first, method.parameters[k]? = some type ∧
    method.parameterRegister? (method.parameterStart k) = some first ∧
    first ≤ register ∧ register.toNat < first.toNat + Descriptor.width type

theorem parameterStart_add (method : Method) (k : Nat) :
    method.parameterStart k + Descriptor.totalWidth (method.parameters.drop k) =
      method.parameterRegisterCount := by
  rw [parameterStart, parameterRegisterCount, Nat.add_assoc, Descriptor.totalWidth_take_add_drop]

theorem parameterStart_succ {k : Nat} {type : String} (h : method.parameters[k]? = some type) :
    method.parameterStart (k + 1) = method.parameterStart k + Descriptor.width type := by
  rw [parameterStart, Descriptor.totalWidth_take_succ h, parameterStart, Nat.add_assoc]

theorem parameterStart_mono (method : Method) : Monotone method.parameterStart :=
  fun _ _ h => Nat.add_le_add_left (Descriptor.monotone_totalWidth_take method.parameters h) _

theorem parameterStart_add_width_le {k : Nat} {type : String}
    (h : method.parameters[k]? = some type) :
    method.parameterStart k + Descriptor.width type ≤ method.parameterRegisterCount := by
  rw [← parameterStart_succ h, ← parameterStart_add method (k + 1)]
  exact Nat.le_add_right _ _

/-- Behind the register of a declared parameter, there is room for it and the later ones. -/
theorem exists_parameterRegister?_parameterStart {k : Nat} {type : String}
    (h : method.parameters[k]? = some type)
    (hfits : method.parameterRegisterCount ≤ method.registers.toNat) :
    ∃ register, method.parameterRegister? (method.parameterStart k) = some register ∧
      register.toNat + Descriptor.totalWidth (method.parameters.drop k) =
        method.registers.toNat := by
  have hroom := parameterStart_add_width_le h
  have hpos := Descriptor.width_pos type
  have hstart : method.parameterStart k < method.parameterRegisterCount := by omega
  obtain ⟨register, hregister⟩ := exists_parameterRegister?_iff.mpr ⟨hstart, hfits⟩
  obtain ⟨-, -, heq⟩ := parameterRegister?_eq_some_iff.mp hregister
  refine ⟨register, hregister, ?_⟩
  have hcount := method.parameterStart_add k
  omega

/-- A parameter ends where the parameters declared later have not begun. -/
theorem HoldsParameter.le {j k : Nat} {register : Register} (hj : method.HoldsParameter j register)
    (hk : method.HoldsParameter k register) : k ≤ j := by
  obtain ⟨type, first, htype, hfirst, -, hlast⟩ := hj
  obtain ⟨-, next, -, hnext, hle, -⟩ := hk
  obtain ⟨-, -, hfirst⟩ := parameterRegister?_eq_some_iff.mp hfirst
  obtain ⟨-, -, hnext⟩ := parameterRegister?_eq_some_iff.mp hnext
  rw [UInt16.le_iff_toNat_le] at hle
  by_contra hlt
  have hstart : method.parameterStart (j + 1) ≤ method.parameterStart k :=
    method.parameterStart_mono (by omega)
  rw [parameterStart_succ htype] at hstart
  omega

theorem HoldsParameter.unique {j k : Nat} {register : Register}
    (hj : method.HoldsParameter j register) (hk : method.HoldsParameter k register) : j = k :=
  le_antisymm (hk.le hj) (hj.le hk)

/-- A wide parameter has its other half in the next register, which the method has. -/
theorem succ_lt_registers_of_wide {k : Nat} {type : String} {register : Register}
    (h : method.parameters[k]? = some type) (hwide : Descriptor.width type = 2)
    (hregister : method.parameterRegister? (method.parameterStart k) = some register) :
    (register + 1).toNat = register.toNat + 1 ∧ register + 1 < method.registers := by
  obtain ⟨-, hfits, heq⟩ := parameterRegister?_eq_some_iff.mp hregister
  have hroom := parameterStart_add_width_le h
  have hregisters := method.registers.toNat_lt_size
  have hlt : register.toNat + 1 < method.registers.toNat := by omega
  have hsucc : (register + 1).toNat = register.toNat + 1 := by
    rw [UInt16.toNat_add, UInt16.toNat_one]
    exact Nat.mod_eq_of_lt (hlt.trans hregisters)
  rw [UInt16.lt_iff_toNat_lt, hsucc]
  exact ⟨rfl, hlt⟩

/--
A method that has enough registers has its parameters in the last of them. Each declared parameter
begins as many registers before the end as it takes together with those declared later, so that no
two meet and the other half of a wide one is there. No step towards a register overflows.
-/
theorem parameters_take_last_registers (method : Method)
    (hcount : method.parameterRegisterCount < UInt16.size) :
    (∀ n, (∃ register, method.parameterRegister? n = some register) ↔
      n < method.parameterRegisterCount ∧
        method.parameterRegisterCount ≤ method.registers.toNat) ∧
    (∀ m n register register', method.parameterRegister? m = some register →
      method.parameterRegister? n = some register' → (m < n ↔ register < register')) ∧
    (∀ register, (∃ n, method.parameterRegister? n = some register) ↔
      method.parameterRegisterCount ≤ method.registers.toNat ∧
        method.registers.toNat - method.parameterRegisterCount ≤ register.toNat ∧
          register < method.registers) ∧
    (∀ n : Register, method.parameterWord? n = some (method.parameterRegister? n.toNat)) ∧
    (∀ k type, method.parameters[k]? = some type →
      method.parameterRegisterCount ≤ method.registers.toNat →
        ∃ register, method.parameterRegister? (method.parameterStart k) = some register ∧
          register.toNat + Descriptor.totalWidth (method.parameters.drop k) =
            method.registers.toNat ∧
          (Descriptor.width type = 2 →
            (register + 1).toNat = register.toNat + 1 ∧ register + 1 < method.registers)) ∧
    (∀ j k register, method.HoldsParameter j register → method.HoldsParameter k register →
      j = k) := by
  refine ⟨fun n => exists_parameterRegister?_iff,
    fun m n register register' => parameterRegister?_lt_iff,
    fun register => exists_parameterRegister?_eq_iff, parameterWord?_eq hcount,
    fun k type htype hfits => ?_, fun j k register => HoldsParameter.unique⟩
  obtain ⟨register, hregister, hrest⟩ := exists_parameterRegister?_parameterStart htype hfits
  exact ⟨register, hregister, hrest, fun hwide => succ_lt_registers_of_wide htype hwide hregister⟩

/-- An instance method with wide parameters on both sides of a narrow one. -/
def seekMethod : Method := ⟨"La;", "seek", ["J", "La;", "D"], "V", .publicFlag, 10, []⟩

/-- The receiver and the parameters lie in the last six of ten registers. -/
theorem parameters_take_last_registers_seek :
    seekMethod.parameterRegisterCount < UInt16.size ∧ seekMethod.parameterRegisterCount = 6 ∧
      (∃ n, seekMethod.parameterRegister? n = some 4) ∧
      (∃ register, seekMethod.parameterRegister? (seekMethod.parameterStart 2) = some register ∧
        register.toNat + 2 = 10 ∧ register + 1 < seekMethod.registers) ∧
      ¬ seekMethod.HoldsParameter 2 6 := by
  have hcount : seekMethod.parameterRegisterCount < UInt16.size := by decide
  obtain ⟨-, -, honto, -, hstart, hunique⟩ := parameters_take_last_registers seekMethod hcount
  obtain ⟨register, hregister, hrest, hwide⟩ := hstart 2 "D" rfl (by decide)
  have hfirst : seekMethod.HoldsParameter 0 6 := ⟨"J", 5, rfl, by decide, by decide, by decide⟩
  refine ⟨hcount, by decide, (honto 4).mpr (by decide), ⟨register, hregister, hrest, ?_⟩, ?_⟩
  · exact (hwide rfl).2
  · exact fun hlast => absurd (hunique 0 2 6 hfirst hlast) (by decide)

end Method

end DexGraft
