import DexGraft.Proofs.Storage.Code
import DexGraft.Storage.Fingerprint
import DexGraft.Storage.Resource

/-!
# Stored fingerprints and resources read back
-/

namespace DexGraft

open Json

/-! ## Fingerprints -/

theorem FingerprintDef.stored (definition : FingerprintDef) : Stored toJson ofJson? definition where
  exact := by
    refine exact_record ?_
    simp only [List.forall_mem_cons, List.not_mem_nil, false_imp_iff, implies_true, and_true]
    exact ⟨(stored_str _).exactField, Stored.exactField_map fun s _ => stored_str s,
      Stored.exactField_map fun f _ => AccessFlags.stored f,
      Stored.exactField_map fun f _ => AccessFlags.stored f,
      Stored.exactField_map fun l _ => stored_ofStrings l,
      Stored.exactField_map fun s _ => stored_str s,
      Stored.exactField_unlessEmpty fun s _ => stored_str s,
      Stored.exactField_map fun n _ => stored_int64 n,
      Stored.exactField_map fun s _ => stored_str s⟩
  ne_null := record_ne_null _
  reads := by
    refine bind_eq_some (fields?_record rfl (by decide)) ?_
    refine bind_eq_some (stored_str _).reads_required ?_
    refine bind_eq_some (Stored.reads_nullable fun s _ => stored_str s) ?_
    refine bind_eq_some (Stored.reads_nullable fun f _ => AccessFlags.stored f) ?_
    refine bind_eq_some (Stored.reads_nullable fun f _ => AccessFlags.stored f) ?_
    refine bind_eq_some (Stored.reads_nullable fun l _ => stored_ofStrings l) ?_
    refine bind_eq_some (Stored.reads_nullable fun s _ => stored_str s) ?_
    refine bind_eq_some (Stored.reads_unlessEmpty fun s _ => stored_str s) ?_
    refine bind_eq_some (Stored.reads_nullable fun n _ => stored_int64 n) ?_
    exact bind_eq_some (Stored.reads_nullable fun s _ => stored_str s) rfl

theorem FingerprintSet.stored (set : FingerprintSet) : Stored toJson ofJson? set where
  exact := by
    refine exact_record ?_
    simp only [List.forall_mem_cons, List.not_mem_nil, false_imp_iff, implies_true, and_true]
    exact ⟨Stored.exactField_map fun s _ => stored_str s,
      (Stored.list fun d _ => FingerprintDef.stored d).exactField⟩
  ne_null := record_ne_null _
  reads := by
    refine bind_eq_some (fields?_record rfl (by decide)) ?_
    refine bind_eq_some (Stored.reads_nullable fun s _ => stored_str s) ?_
    exact bind_eq_some (Stored.list fun d _ => FingerprintDef.stored d).reads_required rfl

/-- A set of fingerprints is loaded as it was saved. -/
theorem FingerprintSet.load_save (set : FingerprintSet) : load set.save = .ok set :=
  (FingerprintSet.stored set).decode_text

/-! ## Resources -/

theorem ResourceType.stored (type : ResourceType) : Stored toJson ofJson? type where
  exact := .str _
  ne_null := nofun
  reads := by
    show ofName? type.name = some type
    cases type <;> decide

theorem ResourceEntry.stored (entry : ResourceEntry) : Stored toJson ofJson? entry where
  exact := by
    refine .obj ?_
    simp only [List.forall_mem_cons, List.not_mem_nil, false_imp_iff, implies_true, and_true]
    exact ⟨(ResourceType.stored _).exact, .str _, .int _⟩
  ne_null := nofun
  reads := by
    refine bind_eq_some (fields?_obj rfl (by decide)) ?_
    refine bind_eq_some (ResourceType.stored _).reads_required ?_
    refine bind_eq_some (stored_str _).reads_required ?_
    exact bind_eq_some (stored_int64 _).reads_required rfl

theorem ResourceTable.stored (table : ResourceTable) : Stored toJson ofJson? table where
  exact := by
    refine .obj ?_
    simp only [List.forall_mem_cons, List.not_mem_nil, false_imp_iff, implies_true, and_true]
    exact (Stored.list fun e _ => ResourceEntry.stored e).exact
  ne_null := nofun
  reads := by
    refine bind_eq_some (fields?_obj rfl (by decide)) ?_
    exact bind_eq_some (Stored.list fun e _ => ResourceEntry.stored e).reads_required rfl

/-- A table of resources is loaded as it was saved. -/
theorem ResourceTable.load_save (table : ResourceTable) : load table.save = .ok table :=
  (ResourceTable.stored table).decode_text

end DexGraft
