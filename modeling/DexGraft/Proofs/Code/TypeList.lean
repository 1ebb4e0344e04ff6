import DexGraft.Proofs.Code.Spelling
import Mathlib.InformationTheory.Coding.UniquelyDecodable

/-!
# Texts as lists of type descriptors

A descriptor shows where it ends, so that descriptors one behind the other need nothing between
them.  The main statement is that a text is read as a list of descriptors exactly if it consists of
them, that there is one way only to cut it, and that lists are put together by putting together their
texts.
-/

namespace DexGraft.Descriptor

open Text InformationTheory

/-! ## Descriptors by their dimensions -/

/-- The type of the elements of an array, which is no array itself. -/
inductive Element : List Char → Prop
  | primitive {c : Char} (letter : c ∈ "ZBSCIJFDV".toList) : Element [c]
  | named {name : List Char} (inside : ';' ∉ name) : Element ('L' :: (name ++ [';']))

theorem Spelled.dimensions {cs : List Char} (h : Spelled cs) (dimensions : Nat) :
    Spelled (List.replicate dimensions '[' ++ cs) := by
  induction dimensions with
  | zero => exact h
  | succ dimensions ih =>
      rw [List.replicate_succ, List.cons_append]
      exact ih.array

/-- A descriptor is an element type behind its dimensions. -/
theorem spelled_iff {cs : List Char} :
    Spelled cs ↔ ∃ dimensions element, Element element ∧
      cs = List.replicate dimensions '[' ++ element := by
  constructor
  · intro h
    induction h with
    | primitive letter => exact ⟨0, _, .primitive letter, rfl⟩
    | named inside => exact ⟨0, _, .named inside, rfl⟩
    | array spelled ih =>
        obtain ⟨dimensions, element, helement, rfl⟩ := ih
        exact ⟨dimensions + 1, element, helement, rfl⟩
  · rintro ⟨dimensions, element, helement, rfl⟩
    cases helement with
    | primitive letter => exact (Spelled.primitive letter).dimensions dimensions
    | named inside => exact (Spelled.named inside).dimensions dimensions

/-! ## Texts and their descriptors -/

/-- What is read one by one was written in one way. -/
theorem uniquelyDecodable_spelled : UniquelyDecodable {cs | Spelled cs} := by
  intro types types' spelled spelled' hflatten
  have htypes : types? types.flatten = some types := types?_flatten spelled
  have htypes' : types? types'.flatten = some types' := types?_flatten spelled'
  rw [hflatten] at htypes
  exact Option.some.inj (htypes.symm.trans htypes')

/-- The text is these descriptors, one behind the other. -/
structure Consists (s : String) (types : List String) : Prop where
  spelled : ∀ type ∈ types, Spelled type.toList
  text : join "" types = s

variable {a b s : String} {types types' : List String}

theorem Consists.flatten (h : Consists s types) : (types.map String.toList).flatten = s.toList := by
  rw [← toList_join_empty, h.text]

theorem Consists.unique (h : Consists s types) (h' : Consists s types') : types = types' := by
  have hlists : types.map String.toList = types'.map String.toList :=
    uniquelyDecodable_spelled _ _ (List.forall_mem_map.mpr h.spelled)
      (List.forall_mem_map.mpr h'.spelled) (h.flatten.trans h'.flatten.symm)
  exact (List.map_inj_right fun _ _ => String.toList_inj.mp).mp hlists

theorem Consists.append (ha : Consists a types) (hb : Consists b types') :
    Consists (a ++ b) (types ++ types') where
  spelled := List.forall_mem_append.mpr ⟨ha.spelled, hb.spelled⟩
  text := by
    rw [← String.toList_inj, toList_join_empty, List.map_append, List.flatten_append, ha.flatten,
      hb.flatten, String.toList_append]

theorem typeList_eq_ok_iff_consists : typeList s.toList = .ok types ↔ Consists s types := by
  rw [typeList_eq_ok_iff, String.toList_inj]
  exact ⟨fun h => ⟨h.1, h.2⟩, fun h => ⟨h.spelled, h.text⟩⟩

theorem eq_of_typeList_error {error : Error} (h : typeList s.toList = .error error) :
    error = .invalidDescriptor s := by
  rw [typeList] at h
  split at h
  · cases h
  · cases h
    rw [String.ofList_toList]

theorem typeList_eq_error_iff {error : Error} :
    typeList s.toList = .error error ↔
      (∀ types, ¬ Consists s types) ∧ error = .invalidDescriptor s := by
  cases h : typeList s.toList with
  | ok types =>
      have consists : Consists s types := typeList_eq_ok_iff_consists.mp h
      exact iff_of_false (fun h => by cases h) fun hnone => hnone.1 types consists
  | error error' =>
      have hnone (types : List String) : ¬ Consists s types := by
        intro consists
        rw [typeList_eq_ok_iff_consists.mpr consists] at h
        cases h
      rw [eq_of_typeList_error h, Except.error.injEq, eq_comm, and_iff_right hnone]

/--
A text is read as a list of descriptors exactly if it is this list, with nothing between one and the
next. It is no other list then, and a text behind it goes on with the list of its own descriptors.
-/
theorem typeList_reads_decomposition :
    (∀ cs, Spelled cs ↔ ∃ dimensions element, Element element ∧
      cs = List.replicate dimensions '[' ++ element) ∧
    (∀ (s : String) types, typeList s.toList = .ok types ↔ Consists s types) ∧
    (∀ (s : String) error, typeList s.toList = .error error ↔
      (∀ types, ¬ Consists s types) ∧ error = .invalidDescriptor s) ∧
    (∀ s types types', Consists s types → Consists s types' → types = types') ∧
    (∀ (a b : String) types types', typeList a.toList = .ok types →
      typeList b.toList = .ok types' → typeList (a ++ b).toList = .ok (types ++ types')) := by
  refine ⟨fun cs => spelled_iff, fun s types => typeList_eq_ok_iff_consists,
    fun s error => typeList_eq_error_iff, fun s types types' => Consists.unique,
    fun a b types types' ha hb => ?_⟩
  rw [typeList_eq_ok_iff_consists] at ha hb ⊢
  exact ha.append hb

/-- A class name may hold what begins a descriptor, and a text that ends inside of it is no list. -/
theorem typeList_reads_decomposition_brackets :
    Consists "[[Lé[V;J" ["[[Lé[V;", "J"] ∧
      typeList "[[Lé[V;J".toList = .ok ["[[Lé[V;", "J"] ∧
      typeList "LZ;[V".toList = .ok ["LZ;", "[V"] ∧
      typeList "[[Lé[V;JLZ;[V".toList = .ok ["[[Lé[V;", "J", "LZ;", "[V"] ∧
      (∀ types, ¬ Consists "J[Lé" types) ∧
      (∀ types, Consists "[[Lé[V;J" types → types = ["[[Lé[V;", "J"]) := by
  obtain ⟨-, hok, herror, hunique, happend⟩ := typeList_reads_decomposition
  have ha : typeList "[[Lé[V;J".toList = .ok ["[[Lé[V;", "J"] := by decide
  have hb : typeList "LZ;[V".toList = .ok ["LZ;", "[V"] := by decide
  have hc : typeList "J[Lé".toList = .error (.invalidDescriptor "J[Lé") := by decide
  have consists : Consists "[[Lé[V;J" ["[[Lé[V;", "J"] := (hok _ _).mp ha
  exact ⟨consists, ha, hb, happend _ _ _ _ ha hb, ((herror _ _).mp hc).1,
    fun types h => hunique _ _ _ h consists⟩

end DexGraft.Descriptor
