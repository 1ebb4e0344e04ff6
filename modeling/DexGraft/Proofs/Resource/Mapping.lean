import DexGraft.Resource.Mapping
import Mathlib.Data.Finset.Card
import Std.Data.HashMap.Lemmas

/-!
# Resources found by type and name

A mapping that was made of a table has for a type and a name the number of the first entry with
both.  The main statement says this of each way to look a resource up, and counts the resources of a
mapping.
-/

namespace DexGraft

/-- What an entry is found by. -/
def ResourceEntry.key (entry : ResourceEntry) : ResourceType × String := (entry.type, entry.name)

namespace ResourceTable

/-- The first entry with the type and the name. -/
def first? (table : ResourceTable) (type : ResourceType) (name : String) :
    Option ResourceEntry :=
  table.entries.find? fun entry => entry.key == (type, name)

/-- Some entry has the type and the name. -/
def Has (table : ResourceTable) (type : ResourceType) (name : String) : Prop :=
  ∃ entry ∈ table.entries, entry.key = (type, name)

instance (table : ResourceTable) (type : ResourceType) (name : String) :
    Decidable (table.Has type name) :=
  inferInstanceAs (Decidable (∃ entry ∈ table.entries, entry.key = (type, name)))

/-- The entry has the type and the name, and none in front of it has both. -/
def IsFirst (table : ResourceTable) (type : ResourceType) (name : String)
    (entry : ResourceEntry) : Prop :=
  entry.key = (type, name) ∧ ∃ front back, table.entries = front ++ entry :: back ∧
    ∀ other ∈ front, other.key ≠ (type, name)

variable {table : ResourceTable} {type : ResourceType} {name : String}

theorem first?_eq_some_iff {entry : ResourceEntry} :
    table.first? type name = some entry ↔ table.IsFirst type name entry := by
  rw [first?, List.find?_eq_some_iff_append, IsFirst]
  simp only [beq_iff_eq, Bool.not_eq_true', beq_eq_false_iff_ne]

theorem first?_eq_none_iff : table.first? type name = none ↔ ¬ table.Has type name := by
  rw [first?, List.find?_eq_none, Has]
  simp only [beq_iff_eq, not_exists, not_and]

end ResourceTable

namespace ResourceMapping

/-- A type without names is one whose names have no numbers. -/
theorem get?_eq_getElem? (mapping : ResourceMapping) (type : ResourceType) (name : String) :
    mapping.get? type name = (mapping.ids.getD type ∅)[name]? := by
  rw [get?, Std.HashMap.getD_eq_getD_getElem?]
  cases mapping.ids[type]? with
  | none => exact Std.HashMap.getElem?_empty.symm
  | some names => rfl

theorem mem_getD_iff {mapping : ResourceMapping} {type : ResourceType} {name : String} :
    name ∈ mapping.ids.getD type ∅ ↔ (mapping.get? type name).isSome := by
  rw [Std.HashMap.mem_iff_isSome_getElem?, get?_eq_getElem?]

/-- An entry is put in behind what is there already, which stays. -/
theorem get?_add (mapping : ResourceMapping) (entry : ResourceEntry) (type : ResourceType)
    (name : String) : (mapping.add entry).get? type name =
      (mapping.get? type name).or (if entry.key = (type, name) then some entry.id else none) := by
  by_cases hmem : entry.name ∈ mapping.ids.getD entry.type ∅
  · rw [add, if_pos hmem]
    split
    · next hkey =>
      cases hkey
      obtain ⟨id, hid⟩ := Option.isSome_iff_exists.mp (mem_getD_iff.mp hmem)
      rw [hid, Option.some_or]
    · rw [Option.or_none]
  · rw [add, if_neg hmem, get?_eq_getElem?, get?_eq_getElem?, Std.HashMap.getD_insert]
    by_cases htype : entry.type = type
    · subst htype
      rw [if_pos (beq_self_eq_true _), Std.HashMap.getElem?_insert]
      by_cases hname : entry.name = name
      · subst hname
        have hkey : entry.key = (entry.type, entry.name) := rfl
        rw [if_pos (beq_self_eq_true _), if_pos hkey, Std.HashMap.getElem?_eq_none hmem,
          Option.none_or]
      · rw [if_neg (mt beq_iff_eq.mp hname), if_neg fun h => hname (congrArg Prod.snd h),
          Option.or_none]
    · rw [if_neg (mt beq_iff_eq.mp htype), if_neg fun h => htype (congrArg Prod.fst h),
        Option.or_none]

theorem get?_foldl_add (entries : List ResourceEntry) (mapping : ResourceMapping)
    (type : ResourceType) (name : String) : (entries.foldl add mapping).get? type name =
      (mapping.get? type name).or
        ((entries.find? fun entry => entry.key == (type, name)).map (·.id)) := by
  induction entries generalizing mapping with
  | nil => rw [List.foldl_nil, List.find?_nil, Option.map_none, Option.or_none]
  | cons entry entries ih =>
      rw [List.foldl_cons, ih, get?_add, Option.or_assoc, List.find?_cons]
      by_cases hkey : entry.key = (type, name)
      · rw [if_pos hkey, beq_iff_eq.mpr hkey, Option.some_or, Option.map_some]
      · rw [if_neg hkey, beq_eq_false_iff_ne.mpr hkey, Option.none_or]

theorem get?_empty (type : ResourceType) (name : String) :
    ({} : ResourceMapping).get? type name = none := by
  rw [get?_eq_getElem?, Std.HashMap.getD_empty, Std.HashMap.getElem?_empty]

/-- Of several entries with one type and name, the first counts. -/
theorem get?_ofTable (table : ResourceTable) (type : ResourceType) (name : String) :
    (ofTable table).get? type name = (table.first? type name).map (·.id) := by
  rw [ofTable, get?_foldl_add, get?_empty, Option.none_or, ResourceTable.first?]

variable {table : ResourceTable} {type : ResourceType} {name : String}

theorem lookup_eq_of_first?_eq_some {entry : ResourceEntry}
    (h : table.first? type name = some entry) : (ofTable table).lookup type name = entry.id := by
  rw [lookup, get?_ofTable, h]
  rfl

theorem lookup_eq_of_first?_eq_none (h : table.first? type name = none) :
    (ofTable table).lookup type name = missingId := by
  rw [lookup, get?_ofTable, h]
  rfl

theorem require_eq_of_first?_eq_some {entry : ResourceEntry}
    (h : table.first? type name = some entry) :
    (ofTable table).require type name = .ok entry.id := by
  rw [require, get?_ofTable, h]
  rfl

theorem require_eq_of_first?_eq_none (h : table.first? type name = none) :
    (ofTable table).require type name = .error (.resourceNotFound type.name name) := by
  rw [require, get?_ofTable, h]
  rfl

/-! ## What is found, and how much -/

theorem get?_ofTable_eq_some_iff {id : Int64} :
    (ofTable table).get? type name = some id ↔
      ∃ entry, table.IsFirst type name entry ∧ entry.id = id := by
  rw [get?_ofTable, Option.map_eq_some_iff]
  simp only [ResourceTable.first?_eq_some_iff]

theorem get?_ofTable_eq_none_iff :
    (ofTable table).get? type name = none ↔ ¬ table.Has type name := by
  rw [get?_ofTable, Option.map_eq_none_iff, ResourceTable.first?_eq_none_iff]

theorem lookup_eq_iff {mapping : ResourceMapping} {id : Int64} :
    mapping.lookup type name = id ↔
      mapping.get? type name = some id ∨ mapping.get? type name = none ∧ id = missingId := by
  rw [lookup]
  cases mapping.get? type name with
  | none => simp [eq_comm]
  | some found => simp

theorem require_eq_ok_iff {mapping : ResourceMapping} {id : Int64} :
    mapping.require type name = .ok id ↔ mapping.get? type name = some id := by
  rw [require]
  cases mapping.get? type name with
  | none => simp
  | some found => simp

theorem require_eq_error_iff {mapping : ResourceMapping} {error : Error} :
    mapping.require type name = .error error ↔
      mapping.get? type name = none ∧ error = .resourceNotFound type.name name := by
  rw [require]
  cases mapping.get? type name with
  | none => simp [eq_comm]
  | some found => simp

/-- What has a number are the keys, and the counter says how many they are. -/
structure Counts (mapping : ResourceMapping) (keys : Finset (ResourceType × String)) : Prop where
  found : ∀ type name, (mapping.get? type name).isSome ↔ (type, name) ∈ keys
  count : mapping.count = keys.card

theorem counts_empty : Counts {} ∅ where
  found type name := by simp [get?_empty]
  count := Finset.card_empty.symm

/-- One entry keeps the counter in step, whether its key is new or not. -/
theorem Counts.add {mapping : ResourceMapping} {keys : Finset (ResourceType × String)}
    (h : mapping.Counts keys) (entry : ResourceEntry) :
    (mapping.add entry).Counts (insert entry.key keys) where
  found type name := by
    rw [get?_add, Option.isSome_or, Bool.or_eq_true, h.found, Finset.mem_insert, or_comm,
      eq_comm (b := entry.key)]
    split <;> simp [*]
  count := by
    have hmem : entry.name ∈ mapping.ids.getD entry.type ∅ ↔ entry.key ∈ keys :=
      mem_getD_iff.trans (h.found ..)
    by_cases hkey : entry.key ∈ keys
    · rw [ResourceMapping.add, if_pos (hmem.mpr hkey), Finset.insert_eq_of_mem hkey, h.count]
    · rw [ResourceMapping.add, if_neg (mt hmem.mp hkey), Finset.card_insert_of_notMem hkey, h.count]

theorem Counts.foldl_add {mapping : ResourceMapping} {keys : Finset (ResourceType × String)}
    (h : mapping.Counts keys) (entries : List ResourceEntry) :
    (entries.foldl ResourceMapping.add mapping).Counts
      (keys ∪ (entries.map ResourceEntry.key).toFinset) := by
  induction entries generalizing mapping keys with
  | nil => rwa [List.foldl_nil, List.map_nil, List.toFinset_nil, Finset.union_empty]
  | cons entry entries ih =>
      rw [List.foldl_cons, List.map_cons, List.toFinset_cons, Finset.union_insert,
        ← Finset.insert_union]
      exact ih (h.add entry)

/-- A type and a name count once, in however many entries they stand. -/
theorem size_ofTable (table : ResourceTable) :
    (ofTable table).size = (table.entries.map ResourceEntry.key).toFinset.card := by
  have hcounts := counts_empty.foldl_add table.entries
  rw [Finset.empty_union] at hcounts
  exact hcounts.count

/--
A mapping has the numbers of the first entries of its table and no others. Just what has no entry is
missed, so that an entry with the number for a missing resource is found like any other.
-/
theorem ofTable_holds_first (table : ResourceTable) :
    (∀ type name id, (ofTable table).lookup type name = id ↔
      (∃ entry, table.IsFirst type name entry ∧ entry.id = id) ∨
        ¬ table.Has type name ∧ id = missingId) ∧
    (∀ type name id, (ofTable table).get? type name = some id ↔
      ∃ entry, table.IsFirst type name entry ∧ entry.id = id) ∧
    (∀ type name, (ofTable table).get? type name = none ↔ ¬ table.Has type name) ∧
    (∀ type name id, (ofTable table).require type name = .ok id ↔
      ∃ entry, table.IsFirst type name entry ∧ entry.id = id) ∧
    (∀ type name error, (ofTable table).require type name = .error error ↔
      ¬ table.Has type name ∧ error = .resourceNotFound type.name name) ∧
    (ofTable table).size = (table.entries.map ResourceEntry.key).toFinset.card := by
  refine ⟨fun type name id => ?_, fun type name id => get?_ofTable_eq_some_iff,
    fun type name => get?_ofTable_eq_none_iff, fun type name id => ?_, fun type name error => ?_,
    size_ofTable table⟩
  · rw [lookup_eq_iff, get?_ofTable_eq_some_iff, get?_ofTable_eq_none_iff]
  · rw [require_eq_ok_iff, get?_ofTable_eq_some_iff]
  · rw [require_eq_error_iff, get?_ofTable_eq_none_iff]

/-- One name in three entries, of which two have one type, and the number for a missing resource. -/
def chipClouds : ResourceTable :=
  ⟨[⟨.layout, "chip_cloud", -1⟩, ⟨.id, "chip_cloud", 5⟩, ⟨.layout, "chip_cloud", 7⟩]⟩

/-- The first layout is there with the number that stands for a missing one. -/
theorem ofTable_holds_first_chipClouds :
    (ofTable chipClouds).require .layout "chip_cloud" = .ok (-1) ∧
      (ofTable chipClouds).lookup .id "chip_cloud" = 5 ∧
      (ofTable chipClouds).lookup .color "chip_cloud" = missingId ∧
      (ofTable chipClouds).require .color "chip_cloud" =
        .error (.resourceNotFound "color" "chip_cloud") ∧
      (ofTable chipClouds).size = 2 := by
  obtain ⟨hlookup, -, -, hok, herror, hsize⟩ := ofTable_holds_first chipClouds
  have habsent : ¬ chipClouds.Has .color "chip_cloud" := by decide
  refine ⟨(hok _ _ _).mpr ⟨_, ⟨rfl, [], _, rfl, List.forall_mem_nil _⟩, rfl⟩,
    (hlookup _ _ _).mpr (.inl ⟨_, ⟨rfl, [_], _, rfl, ?_⟩, rfl⟩),
    (hlookup _ _ _).mpr (.inr ⟨habsent, rfl⟩), (herror _ _ _).mpr ⟨habsent, rfl⟩,
    hsize.trans (by decide)⟩
  rw [List.forall_mem_singleton]
  decide

end ResourceMapping

end DexGraft
