import DexGraft.NameMap
import Mathlib.Data.List.Sort
import Mathlib.Data.String.Basic

/-!
# Values found by name

A value that is put in is found under its name, one that is taken out is not, and nothing changes for
any other name.  As the names are kept in order, two maps are the same if the same is found in them.
-/

universe u

namespace DexGraft.NameMap

variable {α : Type u}

theorem lookup_cons_eq_ite (name other : String) (value : α) (entries : List (String × α)) :
    List.lookup other ((name, value) :: entries) =
      if other = name then some value else entries.lookup other := by
  rw [List.lookup_cons]
  by_cases h : other = name
  · rw [if_pos h, beq_iff_eq.mpr h]
  · rw [if_neg h, beq_eq_false_iff_ne.mpr h]

theorem lookup_insertEntry (name other : String) (value : α) (entries : List (String × α)) :
    (insertEntry name value entries).lookup other =
      if other = name then some value else entries.lookup other := by
  induction entries with
  | nil => rw [insertEntry, lookup_cons_eq_ite]
  | cons entry entries ih =>
      obtain ⟨first, old⟩ := entry
      rw [insertEntry]
      split
      · exact lookup_cons_eq_ite name other value _
      · split
        · rename_i heq
          rw [lookup_cons_eq_ite, lookup_cons_eq_ite, ← heq]
          split <;> rfl
        · rename_i hne
          rw [lookup_cons_eq_ite, lookup_cons_eq_ite, ih]
          by_cases h : other = first
          · rw [if_pos h, if_pos h, if_neg (h ▸ Ne.symm hne)]
          · rw [if_neg h, if_neg h]

theorem get?_insert (map : NameMap α) (name other : String) (value : α) :
    (map.insert name value).get? other = if other = name then some value else map.get? other :=
  lookup_insertEntry name other value map.entries

theorem lookup_filter_ne (name other : String) (entries : List (String × α)) :
    (entries.filter (·.1 != name)).lookup other =
      if other = name then none else entries.lookup other := by
  induction entries with
  | nil => rw [List.filter_nil, List.lookup_nil, ite_self]
  | cons entry entries ih =>
      obtain ⟨first, value⟩ := entry
      by_cases hfirst : first = name
      · subst hfirst
        rw [List.filter_cons_of_neg (by simp), ih, lookup_cons_eq_ite]
        split <;> rfl
      · rw [List.filter_cons_of_pos (by simpa using hfirst), lookup_cons_eq_ite,
          lookup_cons_eq_ite, ih]
        by_cases hother : other = first
        · rw [if_pos hother, if_pos hother, if_neg (hother ▸ hfirst)]
        · rw [if_neg hother, if_neg hother]

theorem get?_erase (map : NameMap α) (name other : String) :
    (map.erase name).get? other = if other = name then none else map.get? other :=
  lookup_filter_ne name other map.entries

/-! ## Order -/

/-- The names stand in increasing order. -/
def Ordered (map : NameMap α) : Prop := map.entries.Pairwise (·.1 < ·.1)

theorem empty_ordered : (empty : NameMap α).Ordered := List.Pairwise.nil

theorem mem_insertEntry {name : String} {value : α} {entries : List (String × α)}
    {entry : String × α} (h : entry ∈ insertEntry name value entries) :
    entry = (name, value) ∨ entry ∈ entries := by
  induction entries with
  | nil => exact .inl (List.mem_singleton.mp h)
  | cons first entries ih =>
      rw [insertEntry] at h
      split at h
      · exact List.mem_cons.mp h
      · split at h
        · exact (List.mem_cons.mp h).imp_right (List.mem_cons_of_mem _)
        · rcases List.mem_cons.mp h with rfl | h
          · exact .inr List.mem_cons_self
          · exact (ih h).imp_right (List.mem_cons_of_mem _)

theorem Ordered.insert {map : NameMap α} (h : map.Ordered) (name : String) (value : α) :
    (map.insert name value).Ordered := by
  obtain ⟨entries⟩ := map
  change (insertEntry name value entries).Pairwise (·.1 < ·.1)
  change entries.Pairwise (·.1 < ·.1) at h
  induction entries with
  | nil => exact List.pairwise_singleton _ _
  | cons first entries ih =>
      obtain ⟨hfirst, hrest⟩ := List.pairwise_cons.mp h
      rw [insertEntry]
      split
      · rename_i hlt
        refine List.pairwise_cons.mpr ⟨fun entry hmem => ?_, h⟩
        rcases List.mem_cons.mp hmem with rfl | hmem
        · exact hlt
        · exact hlt.trans (hfirst entry hmem)
      · rename_i hnlt
        split
        · rename_i heq
          subst heq
          exact List.pairwise_cons.mpr ⟨hfirst, hrest⟩
        · rename_i hne
          refine List.pairwise_cons.mpr ⟨fun entry hmem => ?_, ih hrest⟩
          rcases mem_insertEntry hmem with rfl | hmem
          · exact lt_of_le_of_ne (not_lt.mp hnlt) (Ne.symm hne)
          · exact hfirst entry hmem

theorem Ordered.erase {map : NameMap α} (h : map.Ordered) (name : String) :
    (map.erase name).Ordered :=
  List.Pairwise.filter _ h

/-- What is found under a name is what is listed for it. -/
theorem Ordered.get?_eq_some_iff {map : NameMap α} (h : map.Ordered) {name : String} {value : α} :
    map.get? name = some value ↔ (name, value) ∈ map.entries := by
  obtain ⟨entries⟩ := map
  change entries.lookup name = some value ↔ (name, value) ∈ entries
  change entries.Pairwise (·.1 < ·.1) at h
  induction entries with
  | nil => simp
  | cons first entries ih =>
      obtain ⟨other, old⟩ := first
      obtain ⟨hfirst, hrest⟩ := List.pairwise_cons.mp h
      rw [lookup_cons_eq_ite, List.mem_cons, Prod.mk.injEq]
      rcases eq_or_ne name other with rfl | hne
      · -- the name does not come again
        have hnew : (name, value) ∉ entries := fun hmem => lt_irrefl name (hfirst _ hmem)
        rw [if_pos rfl, Option.some_inj, eq_comm]
        simp only [true_and, hnew, or_false]
      · rw [if_neg hne, ih hrest]
        simp only [hne, false_and, false_or]

/-- Two maps in which the same is found list the same. -/
theorem Ordered.ext {a b : NameMap α} (ha : a.Ordered) (hb : b.Ordered)
    (h : ∀ name, a.get? name = b.get? name) : a = b := by
  have hirrefl : Std.Irrefl fun p q : String × α => p.1 < q.1 := ⟨fun p => lt_irrefl p.1⟩
  have hantisymm : Std.Antisymm fun p q : String × α => p.1 < q.1 :=
    ⟨fun p q hlt hgt => absurd hgt hlt.asymm⟩
  have hentries : a.entries = b.entries := by
    refine List.Pairwise.eq_of_mem_iff ha hb fun (name, value) => ?_
    rw [← ha.get?_eq_some_iff, ← hb.get?_eq_some_iff, h]
  cases a
  cases b
  exact congrArg NameMap.mk hentries

end DexGraft.NameMap
