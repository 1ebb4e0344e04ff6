import DexGraft.Proofs.Code.Flags
import DexGraft.Proofs.Code.Opcode
import DexGraft.Proofs.Code.Places
import DexGraft.Proofs.Code.Spelling
import DexGraft.Proofs.Code.Word
import DexGraft.Proofs.Json.Record
import DexGraft.Storage.Code

/-!
# Stored code read back

A pool is loaded as it was saved if its classes have different descriptors, its references to methods
and fields have a text that reads, and its branches lead to indices of 64 bits.  Every pool that was
loaded is like that.
-/

namespace DexGraft

open Json Text Outcome

theorem bind_eq_some {α β : Type} {x : Option α} {f : α → Option β} {a : α} {b : β}
    (hx : x = some a) (h : f a = some b) : x >>= f = some b := by
  rw [hx]
  exact h

/-! ## Flags, opcodes and references -/

theorem AccessFlags.stored (flags : AccessFlags) : Stored toJson ofJson? flags where
  exact := .str _
  ne_null := nofun
  reads := by
    have htext : flags.toJson.readString? = some flags.text := rfl
    exact bind_eq_some htext flags.read?_text

theorem Opcode.stored (opcode : Opcode) : Stored toJson ofJson? opcode where
  exact := .str _
  ne_null := nofun
  reads := opcode.ofMnemonic?_mnemonic

namespace Reference

/-- The text of a method or a field reads as the method or the field; other texts are not read. -/
def Readable : Reference → Prop
  | .method m => MethodRef.parse m.text = .ok m
  | .field f => FieldRef.parse f.text = .ok f
  | _ => True

theorem readable_of_read {kind : ReferenceKind} {cs : List Char} {reference : Reference}
    (h : read kind cs = .ok reference) : reference.Readable := by
  cases kind with
  | method =>
      obtain ⟨m, hm, rfl⟩ := map_eq_ok_iff.mp h
      exact MethodRef.parse_text_of_read hm
  | field =>
      obtain ⟨f, hf, rfl⟩ := map_eq_ok_iff.mp h
      exact FieldRef.parse_text_of_read hf
  | string =>
      obtain ⟨value, rfl⟩ := exists_of_read_string h
      trivial
  | type | methodHandle | methodType | callSite =>
      simp only [read] at h
      split at h
      · cases h
        trivial
      · cases h

theorem readable_of_ofJson? {json : Json} {reference : Reference}
    (h : ofJson? json = some reference) : reference.Readable := by
  unfold ofJson? at h
  split at h
  · split at h
    · obtain ⟨m, hm, rfl⟩ := Option.map_eq_some_iff.mp h
      exact MethodRef.parse_text_of_read (of_toOption hm)
    · obtain ⟨f, hf, rfl⟩ := Option.map_eq_some_iff.mp h
      exact FieldRef.parse_text_of_read (of_toOption hf)
    all_goals cases h <;> trivial
  · cases h

theorem stored {reference : Reference} (h : reference.Readable) :
    Stored toJson ofJson? reference where
  exact := by
    cases reference <;> exact .obj fun member hmember => List.mem_singleton.mp hmember ▸ .str _
  ne_null := by cases reference <;> exact nofun
  reads := by
    cases reference with
    | method m =>
        have hm : MethodRef.parse m.text = .ok m := h
        rw [toJson, ofJson?, hm]
        rfl
    | field f =>
        have hf : FieldRef.parse f.text = .ok f := h
        rw [toJson, ofJson?, hf]
        rfl
    | type | string | methodHandle | methodType | callSite => rfl

end Reference

/-! ## Instructions -/

namespace Instruction

/-- The text of the reference, if there is one, reads as the reference. -/
def Readable (instruction : Instruction) : Prop :=
  ∀ reference ∈ instruction.reference, reference.Readable

theorem stored {instruction : Instruction} (readable : instruction.Readable)
    (word : instruction.IsWord) : Stored toJson ofJson? instruction where
  exact := by
    refine exact_record ?_
    simp only [List.forall_mem_cons, List.not_mem_nil, false_imp_iff, implies_true, and_true]
    exact ⟨(Opcode.stored _).exactField, Stored.exactField_unlessEmpty fun r _ => stored_uint16 r,
      Stored.exactField_map fun n _ => stored_int64 n,
      Stored.exactField_map fun r hr => Reference.stored (readable r hr),
      Stored.exactField_map fun n hn => stored_ofNat (word n hn),
      Stored.exactField_map fun s _ => stored_str s⟩
  ne_null := record_ne_null _
  reads := by
    refine bind_eq_some (fields?_record rfl (by decide)) ?_
    refine bind_eq_some (Opcode.stored _).reads_required ?_
    refine bind_eq_some (Stored.reads_unlessEmpty fun r _ => stored_uint16 r) ?_
    refine bind_eq_some (Stored.reads_nullable fun n _ => stored_int64 n) ?_
    refine bind_eq_some (Stored.reads_nullable fun r hr => Reference.stored (readable r hr)) ?_
    refine bind_eq_some (Stored.reads_nullable fun n hn => stored_ofNat (word n hn)) ?_
    exact bind_eq_some (Stored.reads_nullable fun s _ => stored_str s) rfl

theorem lt_of_readIndex? {json : Json} {n : Nat} (h : readIndex? json = some n) :
    n < UInt64.size := by
  obtain ⟨value, hvalue, rfl⟩ := Option.map_eq_some_iff.mp h
  unfold intBetween? at hvalue
  split at hvalue
  · split at hvalue
    · rename_i hbounds
      cases hvalue
      exact (Int.toNat_lt hbounds.1).mpr hbounds.2
    · cases hvalue
  · cases hvalue

/-- An instruction that was read can be stored. -/
theorem of_ofJson? {json : Json} {instruction : Instruction}
    (h : ofJson? json = some instruction) : instruction.Readable ∧ instruction.IsWord := by
  obtain ⟨fields, -, h⟩ := Option.bind_eq_some_iff.mp h
  split at h
  · obtain ⟨opcode, -, h⟩ := Option.bind_eq_some_iff.mp h
    obtain ⟨registers, -, h⟩ := Option.bind_eq_some_iff.mp h
    obtain ⟨literal, -, h⟩ := Option.bind_eq_some_iff.mp h
    obtain ⟨reference, hreference, h⟩ := Option.bind_eq_some_iff.mp h
    obtain ⟨target, htarget, h⟩ := Option.bind_eq_some_iff.mp h
    obtain ⟨prototype, -, h⟩ := Option.bind_eq_some_iff.mp h
    cases h
    refine ⟨fun r hr => ?_, fun n hn => ?_⟩
    · obtain ⟨json, hjson⟩ := exists_of_nullable hreference hr
      exact Reference.readable_of_ofJson? hjson
    · obtain ⟨json, hjson⟩ := exists_of_nullable htarget hn
      exact lt_of_readIndex? hjson
  · cases h

end Instruction

/-! ## Methods, classes and pools -/

namespace Method

def Readable (method : Method) : Prop := ∀ instruction ∈ method.body, instruction.Readable

theorem stored {method : Method} (readable : method.Readable) (word : method.IsWord) :
    Stored toJson ofJson? method where
  exact := by
    refine .obj ?_
    simp only [List.forall_mem_cons, List.not_mem_nil, false_imp_iff, implies_true, and_true]
    exact ⟨.str _, .str _, (stored_ofStrings _).exact, .str _, (AccessFlags.stored _).exact, .int _,
      (Stored.list fun i hi => Instruction.stored (readable i hi) (word i hi)).exact⟩
  ne_null := nofun
  reads := by
    refine bind_eq_some (fields?_obj rfl (by decide)) ?_
    refine bind_eq_some (stored_str _).reads_required ?_
    refine bind_eq_some (stored_str _).reads_required ?_
    refine bind_eq_some ((stored_ofStrings _).reads_defaulted _) ?_
    refine bind_eq_some (stored_str _).reads_required ?_
    refine bind_eq_some ((AccessFlags.stored _).reads_defaulted _) ?_
    refine bind_eq_some ((stored_uint16 _).reads_defaulted _) ?_
    exact bind_eq_some
      ((Stored.list fun i hi => Instruction.stored (readable i hi) (word i hi)).reads_defaulted _) rfl

theorem of_ofJson? {json : Json} {method : Method} (h : ofJson? json = some method) :
    method.Readable ∧ method.IsWord := by
  obtain ⟨fields, -, h⟩ := Option.bind_eq_some_iff.mp h
  split at h
  · obtain ⟨owner, -, h⟩ := Option.bind_eq_some_iff.mp h
    obtain ⟨name, -, h⟩ := Option.bind_eq_some_iff.mp h
    obtain ⟨parameters, -, h⟩ := Option.bind_eq_some_iff.mp h
    obtain ⟨returnType, -, h⟩ := Option.bind_eq_some_iff.mp h
    obtain ⟨flags, -, h⟩ := Option.bind_eq_some_iff.mp h
    obtain ⟨registers, -, h⟩ := Option.bind_eq_some_iff.mp h
    obtain ⟨body, hbody, h⟩ := Option.bind_eq_some_iff.mp h
    cases h
    have hread : ∀ i ∈ body, i.Readable ∧ i.IsWord := by
      intro i hi
      obtain ⟨json, hjson⟩ := exists_of_defaulted hbody hi
      exact Instruction.of_ofJson? hjson
    exact ⟨fun i hi => (hread i hi).1, fun i hi => (hread i hi).2⟩
  · cases h

end Method

namespace ClassDef

def Readable (cls : ClassDef) : Prop := ∀ method ∈ cls.methods, method.Readable

def IsWord (cls : ClassDef) : Prop := ∀ method ∈ cls.methods, method.IsWord

theorem stored {cls : ClassDef} (readable : cls.Readable) (word : cls.IsWord) :
    Stored toJson ofJson? cls where
  exact := by
    refine exact_record ?_
    simp only [List.forall_mem_cons, List.not_mem_nil, false_imp_iff, implies_true, and_true]
    exact ⟨(stored_str _).exactField, Stored.exactField_map fun s _ => stored_str s,
      (AccessFlags.stored _).exactField, Stored.exactField_map fun s _ => stored_str s,
      (Stored.list fun m hm => Method.stored (readable m hm) (word m hm)).exactField⟩
  ne_null := record_ne_null _
  reads := by
    refine bind_eq_some (fields?_record rfl (by decide)) ?_
    refine bind_eq_some (stored_str _).reads_required ?_
    refine bind_eq_some (Stored.reads_nullable fun s _ => stored_str s) ?_
    refine bind_eq_some ((AccessFlags.stored _).reads_defaulted _) ?_
    refine bind_eq_some (Stored.reads_nullable fun s _ => stored_str s) ?_
    exact bind_eq_some
      ((Stored.list fun m hm => Method.stored (readable m hm) (word m hm)).reads_defaulted _) rfl

/-- A class that was read can be stored. -/
theorem of_ofJson? {json : Json} {cls : ClassDef} (h : ofJson? json = some cls) :
    cls.Readable ∧ cls.IsWord := by
  obtain ⟨fields, -, h⟩ := Option.bind_eq_some_iff.mp h
  split at h
  · obtain ⟨descriptor, -, h⟩ := Option.bind_eq_some_iff.mp h
    obtain ⟨superclass, -, h⟩ := Option.bind_eq_some_iff.mp h
    obtain ⟨flags, -, h⟩ := Option.bind_eq_some_iff.mp h
    obtain ⟨sourceFile, -, h⟩ := Option.bind_eq_some_iff.mp h
    obtain ⟨methods, hmethods, h⟩ := Option.bind_eq_some_iff.mp h
    cases h
    have hread : ∀ m ∈ methods, m.Readable ∧ m.IsWord := by
      intro m hm
      obtain ⟨json, hjson⟩ := exists_of_defaulted hmethods hm
      exact Method.of_ofJson? hjson
    exact ⟨fun m hm => (hread m hm).1, fun m hm => (hread m hm).2⟩
  · cases h

end ClassDef

namespace ClassPool

def Readable (pool : ClassPool) : Prop := ∀ cls ∈ pool.classes, cls.Readable

/-- The branches of all methods lead to indices of 64 bits. -/
def IsWord (pool : ClassPool) : Prop := ∀ cls ∈ pool.classes, cls.IsWord

/-! ### Saving and loading -/

theorem stored {pool : ClassPool} (distinct : pool.Distinct) (readable : pool.Readable)
    (word : pool.IsWord) : Stored toJson ofJson? pool where
  exact := by
    refine .obj ?_
    simp only [List.forall_mem_cons, List.not_mem_nil, false_imp_iff, implies_true, and_true]
    exact (Stored.list fun c hc => ClassDef.stored (readable c hc) (word c hc)).exact
  ne_null := nofun
  reads := by
    refine bind_eq_some (fields?_obj rfl (by decide)) ?_
    refine bind_eq_some
      (Stored.list fun c hc => ClassDef.stored (readable c hc) (word c hc)).reads_required ?_
    -- a class whose descriptor was there before would be dropped
    rw [ofClasses_classes distinct]

/-- A pool that was loaded can be saved. -/
theorem of_load {text : String} {pool : ClassPool} (h : load text = .ok pool) :
    pool.Distinct ∧ pool.Readable ∧ pool.IsWord := by
  rw [load, decode] at h
  split at h
  · rename_i hread
    cases h
    obtain ⟨json, -, hread⟩ := Option.bind_eq_some_iff.mp hread
    obtain ⟨fields, -, hread⟩ := Option.bind_eq_some_iff.mp hread
    split at hread
    · obtain ⟨classes, hclasses, hread⟩ := Option.bind_eq_some_iff.mp hread
      obtain ⟨json, -, hclasses⟩ := Option.bind_eq_some_iff.mp hclasses
      cases hread
      have hcls : ∀ cls ∈ (ofClasses classes).classes, cls.Readable ∧ cls.IsWord := by
        intro cls hmem
        rcases mem_of_mem_foldl_addNew hmem with hmem | hmem
        · cases hmem
        · obtain ⟨json, hjson⟩ := exists_of_readList? hclasses hmem
          exact ClassDef.of_ofJson? hjson
      have distinct : empty.Distinct := List.nodup_nil
      exact ⟨foldl_addNew_distinct distinct classes,
        fun cls hmem => (hcls cls hmem).1, fun cls hmem => (hcls cls hmem).2⟩
    · cases hread
  · cases h

/-- A pool comes back exactly if its branches lead to indices of 64 bits. -/
theorem load_save_iff {pool : ClassPool} (distinct : pool.Distinct) (readable : pool.Readable) :
    load pool.save = .ok pool ↔ pool.IsWord :=
  ⟨fun h => (of_load h).2.2, fun word => (stored distinct readable word).decode_text⟩

end ClassPool

end DexGraft
