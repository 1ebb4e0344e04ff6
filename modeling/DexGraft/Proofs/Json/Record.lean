import DexGraft.Json.Record
import DexGraft.Proofs.Json.Reading
import Mathlib.Data.List.Nodup

/-!
# Records read back

A record whose fields have different names reads as its fields, those that were left out as absent.
What is written for a value, and how it is read, are kept together: `Stored` says that a value comes
back, and lists, fields and records come back if what they hold does.
-/

namespace DexGraft.Json

variable {α : Type} {write : α → Json} {read : Json → Option α} {a : α}

/-- The value is written as something that its text keeps, other than null, and reads as itself. -/
structure Stored (write : α → Json) (read : Json → Option α) (a : α) : Prop where
  exact : Exact (write a)
  ne_null : write a ≠ .null
  reads : read (write a) = some a

/-- What is stored under its text is loaded again. -/
theorem Stored.decode_text (h : Stored write read a) : decode read (write a).text = .ok a := by
  rw [decode, parse?_text h.exact, Option.bind_some, h.reads]

/-! ## Numbers and texts -/

theorem stored_str (s : String) : Stored str readString? s := ⟨.str s, nofun, rfl⟩

theorem stored_uint16 (n : UInt16) : Stored (fun n : UInt16 => int n.toNat) readUInt16? n where
  exact := .int _
  ne_null := nofun
  reads := by
    have hlt : (n.toNat : Int) < UInt16.size := by exact_mod_cast n.toNat_lt
    rw [readUInt16?, intBetween?, if_pos ⟨Int.natCast_nonneg _, hlt⟩]
    simp

theorem stored_int64 (n : Int64) : Stored (fun n : Int64 => int n.toInt) readInt64? n where
  exact := .int _
  ne_null := nofun
  reads := by
    rw [readInt64?, intBetween?, if_pos ⟨n.le_toInt, n.toInt_lt⟩]
    simp

theorem stored_ofNat {n : Nat} (h : n < UInt64.size) : Stored Json.ofNat readIndex? n where
  exact := .int _
  ne_null := nofun
  reads := by
    have hlt : (n : Int) < UInt64.size := by exact_mod_cast h
    rw [readIndex?, Json.ofNat, intBetween?, if_pos ⟨Int.natCast_nonneg _, hlt⟩]
    rfl

/-! ## Lists -/

theorem mapM_map {ι β γ : Type} {items : List ι} {put : ι → β} {get : β → Option γ} {value : ι → γ}
    (h : ∀ item ∈ items, get (put item) = some (value item)) :
    (items.map put).mapM get = some (items.map value) := by
  induction items with
  | nil => rfl
  | cons item items ih =>
      rw [List.forall_mem_cons] at h
      rw [List.map_cons, List.mapM_cons, h.1, ih h.2]
      rfl

theorem Stored.list {items : List α} (h : ∀ a ∈ items, Stored write read a) :
    Stored (fun items : List α => arr (items.map write)) (readList? read) items where
  exact := by
    refine .arr fun item hitem => ?_
    obtain ⟨a, ha, rfl⟩ := List.mem_map.mp hitem
    exact (h a ha).exact
  ne_null := nofun
  reads := by
    have hread : (items.map write).mapM read = some (items.map id) :=
      mapM_map fun a ha => (h a ha).reads
    rw [List.map_id] at hread
    exact hread

theorem stored_ofStrings (values : List String) : Stored ofStrings (readList? readString?) values :=
  Stored.list fun value _ => stored_str value

/-! ## Fields -/

/-- A field is absent, or what it holds is kept by its text. -/
def ExactField (field : Option Json) : Prop := ∀ json ∈ field, Exact json

theorem Stored.exactField (h : Stored write read a) : ExactField (some (write a)) := by
  rintro _ ⟨⟩
  exact h.exact

theorem Stored.exactField_map {value : Option α} (h : ∀ a ∈ value, Stored write read a) :
    ExactField (value.map write) := by
  intro json hjson
  obtain ⟨a, ha, rfl⟩ := Option.map_eq_some_iff.mp hjson
  exact (h a ha).exact

theorem Stored.reads_required (h : Stored write read a) : required read (some (write a)) = some a :=
  h.reads

theorem Stored.reads_defaulted (h : Stored write read a) (value : α) :
    defaulted value read (some (write a)) = some a :=
  h.reads

/-- A field that is left out if there is no value reads as it was. -/
theorem Stored.reads_nullable {value : Option α} (h : ∀ a ∈ value, Stored write read a) :
    nullable read (value.map write) = some value := by
  cases value with
  | none => rfl
  | some a =>
      have ha := h a rfl
      rw [Option.map_some, nullable, ha.reads]
      · rfl
      · exact ha.ne_null

theorem Stored.exactField_unlessEmpty {items : List α} (h : ∀ a ∈ items, Stored write read a) :
    ExactField (unlessEmpty write items) := by
  rw [unlessEmpty]
  split
  · exact nofun
  · exact (Stored.list h).exactField

/-- A list that is left out if it is empty reads as it was. -/
theorem Stored.reads_unlessEmpty {items : List α} (h : ∀ a ∈ items, Stored write read a) :
    defaulted [] (readList? read) (unlessEmpty write items) = some items := by
  rw [unlessEmpty]
  split
  · rename_i hempty
    rw [defaulted, List.isEmpty_iff.mp hempty]
  · exact (Stored.list h).reads

/-! ## What was read -/

theorem exists_of_nullable {field : Option Json} {value : Option α}
    (h : nullable read field = some value) {a : α} (ha : a ∈ value) : ∃ json, read json = some a := by
  unfold nullable at h
  split at h
  · cases h
    cases ha
  · cases h
    cases ha
  · rename_i json _
    obtain ⟨b, hb, rfl⟩ := Option.map_eq_some_iff.mp h
    cases ha
    exact ⟨json, hb⟩

theorem exists_of_mapM {items : List Json} {values : List α} (h : items.mapM read = some values)
    {a : α} (ha : a ∈ values) : ∃ json, read json = some a := by
  induction items generalizing values with
  | nil =>
      cases h
      cases ha
  | cons json items ih =>
      rw [List.mapM_cons] at h
      obtain ⟨b, hb, h⟩ := Option.bind_eq_some_iff.mp h
      obtain ⟨rest, hrest, h⟩ := Option.bind_eq_some_iff.mp h
      cases h
      rcases List.mem_cons.mp ha with rfl | ha
      · exact ⟨json, hb⟩
      · exact ih hrest ha

theorem exists_of_readList? {json : Json} {values : List α}
    (h : readList? read json = some values) {a : α} (ha : a ∈ values) :
    ∃ json, read json = some a := by
  unfold readList? at h
  split at h
  · exact exists_of_mapM h ha
  · cases h

theorem exists_of_defaulted {field : Option Json} {values : List α}
    (h : defaulted [] (readList? read) field = some values) {a : α} (ha : a ∈ values) :
    ∃ json, read json = some a := by
  unfold defaulted at h
  split at h
  · cases h
    cases ha
  · exact exists_of_readList? h ha

/-! ## Records -/

theorem record_ne_null (fields : List (String × Option Json)) : record fields ≠ .null := nofun

theorem exact_record {fields : List (String × Option Json)}
    (h : ∀ field ∈ fields, ExactField field.2) : Exact (record fields) := by
  refine .obj fun member hmember => ?_
  obtain ⟨⟨name, value⟩, hfield, hvalue⟩ := List.mem_filterMap.mp hmember
  obtain ⟨json, hjson, rfl⟩ := Option.map_eq_some_iff.mp hvalue
  exact h _ hfield json hjson

/-- An object is a record all of whose fields are there. -/
theorem obj_eq_record (members : List (String × Json)) :
    obj members = record (members.map fun (name, value) => (name, some value)) := by
  rw [record, List.filterMap_map]
  exact congrArg obj List.filterMap_some.symm

/-- The members of a record, in which fields without a value are left out. -/
def present (fields : List (String × Option Json)) : List (String × Json) :=
  fields.filterMap fun (name, value) => value.map (name, ·)

theorem present_cons (name : String) (value : Option Json) (fields : List (String × Option Json)) :
    present ((name, value) :: fields) = (value.map (name, ·)).toList ++ present fields := by
  cases value <;> rfl

theorem mem_map_of_mem_present {fields : List (String × Option Json)} {member : String × Json}
    (h : member ∈ present fields) : member.1 ∈ fields.map Prod.fst := by
  obtain ⟨⟨name, value⟩, hfield, hvalue⟩ := List.mem_filterMap.mp h
  obtain ⟨json, -, rfl⟩ := Option.map_eq_some_iff.mp hvalue
  exact List.mem_map_of_mem hfield

/-- Of fields with different names, the one with the name is found. -/
theorem filter_present {fields : List (String × Option Json)} (nodup : (fields.map Prod.fst).Nodup)
    {name : String} {value : Option Json} (h : (name, value) ∈ fields) :
    (present fields).filter (·.1 == name) = (value.map (name, ·)).toList := by
  induction fields with
  | nil => cases h
  | cons field fields ih =>
      obtain ⟨other, value'⟩ := field
      rw [List.map_cons, List.nodup_cons] at nodup
      rw [present_cons, List.filter_append]
      rcases List.mem_cons.mp h with heq | hmem
      · cases heq
        have hnone : (present fields).filter (·.1 == name) = [] := by
          refine List.filter_eq_nil_iff.mpr fun member hmember heq => nodup.1 ?_
          rw [← beq_iff_eq.mp heq]
          exact mem_map_of_mem_present hmember
        rw [hnone, List.append_nil]
        cases value <;> simp
      · have hne : other ≠ name := by
          rintro rfl
          exact nodup.1 (List.mem_map.mpr ⟨_, hmem, rfl⟩)
        rw [ih nodup.2 hmem]
        cases value' <;> simp [hne]

/-- A record reads as its fields. -/
theorem fields?_record {fields : List (String × Option Json)} {names : List String}
    (hnames : fields.map Prod.fst = names) (nodup : names.Nodup) :
    fields? names (record fields) = some (fields.map Prod.snd) := by
  subst hnames
  have hrecord : record fields = obj (present fields) := rfl
  rw [hrecord, fields?]
  refine mapM_map fun field hfield => ?_
  rw [filter_present nodup hfield]
  cases field.2 <;> rfl

/-- An object reads as its members. -/
theorem fields?_obj {members : List (String × Json)} {names : List String}
    (hnames : members.map Prod.fst = names) (nodup : names.Nodup) :
    fields? names (obj members) = some (members.map fun member => some member.2) := by
  rw [obj_eq_record, fields?_record _ nodup, List.map_map]
  · rfl
  · rw [List.map_map]
    exact hnames

end DexGraft.Json
