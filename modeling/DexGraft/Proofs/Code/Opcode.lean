import DexGraft.Code.Opcode

/-!
# The tables of opcodes

No two opcodes have the same mnemonic, so that an opcode is found by its own.  An opcode takes a
reference exactly if there is one among the operands of its format.
-/

namespace DexGraft

/-- The kind of the reference among the operands behind the registers, if there is one. -/
def Trailing.referenceKind? : Trailing → Option ReferenceKind
  | .reference kind => some kind
  | .prototyped => some .method
  | .nothing | .literal | .branch | .payload => none

namespace Opcode

theorem mem_all (opcode : Opcode) : opcode ∈ all := by
  have hindex : all[opcode.ctorIdx]? = some opcode := by cases opcode <;> rfl
  exact List.mem_of_getElem? hindex

/-- The number that the bytes of a text make up. -/
def bytesValue (s : String) : Nat :=
  s.toByteArray.data.toList.foldl (fun value byte => value * UInt8.size + byte.toNat) 0

-- The numbers are compared in place of the texts because the kernel decides their equality at once.
theorem find?_bytesValue : ∀ opcode ∈ all, all.find? (fun other =>
    Nat.beq (bytesValue other.mnemonic) (bytesValue opcode.mnemonic)) = some opcode := by
  decide +kernel

theorem mnemonic_injective {a b : Opcode} (h : a.mnemonic = b.mnemonic) : a = b := by
  have ha := find?_bytesValue a (mem_all a)
  rw [h, find?_bytesValue b (mem_all b)] at ha
  exact (Option.some.inj ha).symm

/-- An opcode is found by its mnemonic. -/
theorem ofMnemonic?_mnemonic (opcode : Opcode) : ofMnemonic? opcode.mnemonic = some opcode := by
  obtain ⟨found, hfound⟩ : ∃ found, ofMnemonic? opcode.mnemonic = some found :=
    Option.isSome_iff_exists.mp
      (List.find?_isSome.mpr ⟨opcode, mem_all opcode, beq_self_eq_true opcode.mnemonic⟩)
  have hmnemonic := List.find?_some hfound
  rw [hfound, mnemonic_injective (beq_iff_eq.mp hmnemonic)]

/-- The kinds of references and the operands agree for every opcode. -/
theorem referenceKind?_eq (opcode : Opcode) :
    opcode.referenceKind? = opcode.format.trailing.referenceKind? := by
  cases opcode <;> rfl

end Opcode

end DexGraft
