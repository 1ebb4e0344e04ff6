import DexGraft.Code.Pool
import DexGraft.Proofs.NameMap
import DexGraft.Proofs.Editing
import Mathlib.Data.List.Basic
import Mathlib.Data.List.Nodup

/-!
# Places in a pool that grows

Classes and methods are added to a pool one by one, and some of them are refused.  No two classes ever
have the same descriptor, so the class at a place is the one that is found under its descriptor; what
has been given a place stays there as it is; and a method is found by its own reference, if no class
was given two methods of one signature or a method of another class.
-/

namespace DexGraft

open Outcome Editing

/-- Where the keys are different, the place that is found for a key is the place that has it. -/
theorem findIdx?_key_eq_some_iff {α β : Type} [BEq β] [LawfulBEq β] {key : α → β} {l : List α}
    (h : (l.map key).Nodup) {b : β} {i : Nat} :
    l.findIdx? (key · == b) = some i ↔ ∃ a, l[i]? = some a ∧ key a = b := by
  rw [List.findIdx?_eq_some_iff_getElem]
  constructor
  · rintro ⟨hlt, heq, -⟩
    exact ⟨l[i], List.getElem?_eq_getElem hlt, beq_iff_eq.mp heq⟩
  · rintro ⟨a, ha, rfl⟩
    obtain ⟨hlt, rfl⟩ := List.getElem?_eq_some_iff.mp ha
    refine ⟨hlt, beq_self_eq_true _, fun j hj heq => ?_⟩
    have hjlt : j < (l.map key).length := by
      rw [List.length_map]
      exact Nat.lt_trans hj hlt
    have hkeys : (l.map key)[j]? = (l.map key)[i]? := by
      simpa [hlt, Nat.lt_trans hj hlt] using heq
    exact absurd ((List.getElem?_inj hjlt h).mp hkeys) (Nat.ne_of_lt hj)

namespace ClassPool

/-- No two classes have the same descriptor. -/
def Distinct (pool : ClassPool) : Prop := (pool.classes.map (·.descriptor)).Nodup

/-! ## Adding classes -/

theorem findClass?_isSome_iff {pool : ClassPool} {descriptor : String} :
    (pool.findClass? descriptor).isSome ↔ descriptor ∈ pool.classes.map (·.descriptor) := by
  rw [findClass?, List.findIdx?_isSome, List.any_eq_true, List.mem_map]
  exact exists_congr fun cls => and_congr_right fun _ => beq_iff_eq

theorem addClassM_comesTo (cls : ClassDef) (pool : ClassPool) :
    (addClassM cls).ComesTo pool (
      if (pool.findClass? cls.descriptor).isSome then .error (.duplicateClass cls.descriptor)
      else .ok (pool.classes.length, ⟨pool.classes ++ [cls]⟩)) := by
  refine .get_bind ?_
  split
  · exact comesTo_throw _
  · exact rfl

theorem addNew_of_mem {pool : ClassPool} {cls : ClassDef}
    (h : cls.descriptor ∈ pool.classes.map (·.descriptor)) : pool.addNew cls = pool := by
  rw [addNew, addClassM_comesTo, if_pos (findClass?_isSome_iff.mpr h)]

theorem addNew_of_not_mem {pool : ClassPool} {cls : ClassDef}
    (h : cls.descriptor ∉ pool.classes.map (·.descriptor)) :
    pool.addNew cls = ⟨pool.classes ++ [cls]⟩ := by
  rw [addNew, addClassM_comesTo, if_neg fun hsome => h (findClass?_isSome_iff.mp hsome)]

/-- Classes with new descriptors are all added. -/
theorem foldl_addNew (front : List ClassDef) {classes : List ClassDef}
    (h : ((front ++ classes).map (·.descriptor)).Nodup) :
    classes.foldl addNew ⟨front⟩ = ⟨front ++ classes⟩ := by
  induction classes generalizing front with
  | nil => rw [List.append_nil, List.foldl_nil]
  | cons cls classes ih =>
      have hnew : cls.descriptor ∉ front.map (·.descriptor) := by
        rw [List.map_append, List.map_cons] at h
        intro hmem
        exact (List.nodup_append.mp h).2.2 _ hmem _ List.mem_cons_self rfl
      rw [List.append_cons] at h ⊢
      rw [List.foldl_cons, addNew_of_not_mem hnew, ih _ h]

theorem ofClasses_classes {pool : ClassPool} (distinct : pool.Distinct) :
    ofClasses pool.classes = pool :=
  foldl_addNew [] distinct

theorem foldl_addNew_distinct {pool : ClassPool} (distinct : pool.Distinct)
    (classes : List ClassDef) : (classes.foldl addNew pool).Distinct := by
  induction classes generalizing pool with
  | nil => exact distinct
  | cons cls classes ih =>
      refine ih ?_
      by_cases h : cls.descriptor ∈ pool.classes.map (·.descriptor)
      · rw [addNew_of_mem h]
        exact distinct
      · rw [addNew_of_not_mem h, Distinct, List.map_append]
        refine List.Nodup.append distinct (List.nodup_singleton _) ?_
        rw [List.map_singleton, List.disjoint_singleton]
        exact h

/-- Only classes that were to be added are. -/
theorem mem_of_mem_foldl_addNew {pool : ClassPool} {classes : List ClassDef} {cls : ClassDef}
    (h : cls ∈ (classes.foldl addNew pool).classes) : cls ∈ pool.classes ∨ cls ∈ classes := by
  induction classes generalizing pool with
  | nil => exact .inl h
  | cons other classes ih =>
      rcases ih h with hmem | hmem
      · by_cases hnew : other.descriptor ∈ pool.classes.map (·.descriptor)
        · rw [addNew_of_mem hnew] at hmem
          exact .inl hmem
        · rw [addNew_of_not_mem hnew] at hmem
          rcases List.mem_append.mp hmem with hmem | hmem
          · exact .inl hmem
          · exact .inr (List.mem_singleton.mp hmem ▸ List.mem_cons_self)
      · exact .inr (List.mem_cons_of_mem _ hmem)

/-- Of classes with one descriptor the first is kept. -/
theorem classes_foldl_addNew (front classes : List ClassDef) :
    (classes.foldl addNew ⟨front⟩).classes = front ++
      (classes.filter (·.descriptor ∉ front.map (·.descriptor))).eraseDupsBy
        (·.descriptor == ·.descriptor) := by
  induction classes generalizing front with
  | nil => exact (List.append_nil front).symm
  | cons cls classes ih =>
      rw [List.foldl_cons]
      by_cases h : cls.descriptor ∈ front.map (·.descriptor)
      · rw [addNew_of_mem h, ih, List.filter_cons_of_neg (by simpa using h)]
      · -- the classes behind that are not taken for their descriptor are those that are not new now
        have hfilter : (classes.filter (·.descriptor ∉ (front ++ [cls]).map (·.descriptor))) =
            (classes.filter (·.descriptor ∉ front.map (·.descriptor))).filter
              fun other => decide ((other.descriptor == cls.descriptor) = false) := by
          rw [List.filter_filter]
          refine List.filter_congr fun other _ => ?_
          grind
        rw [addNew_of_not_mem h, ih, List.filter_cons_of_pos (by simpa using h),
          List.eraseDupsBy_cons, hfilter, List.append_assoc, List.singleton_append]

theorem classes_ofClasses (classes : List ClassDef) :
    (ofClasses classes).classes = classes.eraseDupsBy (·.descriptor == ·.descriptor) := by
  rw [ofClasses, empty, classes_foldl_addNew, List.nil_append]
  congr 1
  exact List.filter_eq_self.mpr fun _ _ => decide_eq_true List.not_mem_nil

/-- A class is found under its descriptor, and nothing under any other. -/
theorem Distinct.findClass?_eq_some_iff {pool : ClassPool} (distinct : pool.Distinct)
    {descriptor : String} {i : Nat} :
    pool.findClass? descriptor = some i ↔
      ∃ cls, pool.classes[i]? = some cls ∧ cls.descriptor = descriptor :=
  findIdx?_key_eq_some_iff distinct

end ClassPool

/-! ## Signatures -/

/-- All of a reference but the owner. -/
def MethodRef.sig (reference : MethodRef) : String × List String × String :=
  (reference.name, reference.parameters, reference.returnType)

theorem MethodRef.sameSignature_eq_beq (a b : MethodRef) :
    a.sameSignature b = (a.sig == b.sig) := by
  rw [Bool.eq_iff_iff]
  simp [sameSignature, sig, and_assoc]

/-- The name, the parameters and the return type of a method. -/
def Method.sig (method : Method) : String × List String × String := method.ref.sig

namespace ClassDef

/-- The class has no two methods of one signature, and owns its methods. -/
structure Orderly (cls : ClassDef) : Prop where
  signatures : (cls.methods.map (·.sig)).Nodup
  owned : ∀ method ∈ cls.methods, method.owner = cls.descriptor

/-- The class with a method behind its own, which it becomes the owner of. -/
def adopt (cls : ClassDef) (method : Method) : ClassDef :=
  { cls with methods := cls.methods ++ [{ method with owner := cls.descriptor }] }

variable {cls : ClassDef} {method : Method}

theorem isSome_findMethod?_iff (cls : ClassDef) (signature : MethodRef) :
    (cls.findMethod? signature).isSome ↔
      ∃ method ∈ cls.methods, method.ref.sameSignature signature = true := by
  rw [findMethod?, List.findIdx?_isSome, List.any_eq_true]

theorem findMethod?_eq_none_iff {reference : MethodRef} :
    cls.findMethod? reference = none ↔ reference.sig ∉ cls.methods.map (·.sig) := by
  rw [← Option.not_isSome_iff_eq_none, isSome_findMethod?_iff, List.mem_map]
  simp only [MethodRef.sameSignature_eq_beq, beq_iff_eq]
  rfl

/-- The method of a signature is the only one, so it is the first. -/
theorem Orderly.findMethod?_eq_some_iff (h : cls.Orderly) {reference : MethodRef} {i : Nat} :
    cls.findMethod? reference = some i ↔
      ∃ method, cls.methods[i]? = some method ∧ method.sig = reference.sig := by
  rw [findMethod?]
  simp only [MethodRef.sameSignature_eq_beq]
  exact findIdx?_key_eq_some_iff h.signatures

theorem Orderly.adopt (h : cls.Orderly)
    (new : method.sig ∉ cls.methods.map (·.sig)) : (cls.adopt method).Orderly where
  signatures := by
    rw [ClassDef.adopt, List.map_append, List.map_singleton]
    refine h.signatures.append (List.nodup_singleton _) ?_
    rw [List.disjoint_singleton]
    exact new
  owned other hmem := by
    rcases List.mem_append.mp hmem with hmem | hmem
    · exact h.owned other hmem
    · rw [List.mem_singleton.mp hmem]
      rfl

/-- The other class is this one, with maybe more methods behind the ones it has. -/
def Within (cls other : ClassDef) : Prop :=
  ∃ added, other = { cls with methods := cls.methods ++ added }

theorem Within.refl (cls : ClassDef) : cls.Within cls := ⟨[], by rw [List.append_nil]⟩

theorem Within.trans {middle last : ClassDef} (h : cls.Within middle) (h' : middle.Within last) :
    cls.Within last := by
  obtain ⟨added, rfl⟩ := h
  obtain ⟨added', rfl⟩ := h'
  exact ⟨added ++ added', by rw [List.append_assoc]⟩

theorem within_adopt (cls : ClassDef) (method : Method) : cls.Within (cls.adopt method) :=
  ⟨[_], rfl⟩

end ClassDef

/-! ## Adding methods -/

namespace ClassPool

variable {pool next : ClassPool} {inClass : Nat} {cls : ClassDef} {method : Method} {id : MethodId}

theorem classAt_eq_ok_iff : pool.classAt inClass = .ok cls ↔ pool.classes[inClass]? = some cls := by
  rw [classAt]
  cases pool.classes[inClass]? <;> simp

theorem addMethodM_comesTo (inClass : Nat) (method : Method) (pool : ClassPool) :
    (addMethodM inClass method).ComesTo pool (pool.classAt inClass >>= fun cls =>
      if (cls.findMethod? { method with owner := cls.descriptor }.ref).isSome then
        .error (.duplicateMethod { method with owner := cls.descriptor }.descriptor)
      else .ok (⟨inClass, cls.methods.length⟩, ⟨pool.classes.set inClass (cls.adopt method)⟩)) := by
  refine .look_bind fun cls _ => ?_
  dsimp only
  split
  · exact comesTo_throw _
  · exact rfl

/-- A method is added if there is a class at the place, and it has no method of the signature. -/
theorem addMethod_eq_ok_iff :
    pool.addMethod inClass method = .ok (id, next) ↔
      ∃ cls, pool.classes[inClass]? = some cls ∧ method.sig ∉ cls.methods.map (·.sig) ∧
        id = ⟨inClass, cls.methods.length⟩ ∧
        next = ⟨pool.classes.set inClass (cls.adopt method)⟩ := by
  rw [addMethod, (addMethodM_comesTo inClass method pool).granted_eq]
  constructor
  · intro h
    obtain ⟨cls, hcls, h⟩ := bind_eq_ok_iff.mp h
    split at h
    · cases h
    · rename_i hsome
      cases h
      rw [Option.not_isSome_iff_eq_none, ClassDef.findMethod?_eq_none_iff] at hsome
      exact ⟨cls, classAt_eq_ok_iff.mp hcls, hsome, rfl, rfl⟩
  · rintro ⟨cls, found, new, rfl, rfl⟩
    have hnone : cls.findMethod? { method with owner := cls.descriptor }.ref = none :=
      ClassDef.findMethod?_eq_none_iff.mpr new
    rw [classAt_eq_ok_iff.mpr found, ok_bind, hnone]
    rfl

theorem map_descriptor_set_adopt (found : pool.classes[inClass]? = some cls) (method : Method) :
    (pool.classes.set inClass (cls.adopt method)).map (·.descriptor) =
      pool.classes.map (·.descriptor) := by
  rw [List.map_set]
  refine List.ext_getElem? fun i => ?_
  rw [List.getElem?_set]
  split
  · rename_i heq
    subst heq
    rw [List.getElem?_map, found, List.length_map, if_pos (List.getElem?_eq_some_iff.mp found).1]
    rfl
  · rfl

/-- Every class stands at its place in the other pool, with maybe more methods. -/
def Within (pool other : ClassPool) : Prop :=
  ∀ (i : Nat) (cls : ClassDef), pool.classes[i]? = some cls →
    ∃ cls', other.classes[i]? = some cls' ∧ cls.Within cls'

variable {middle : ClassPool}

theorem Within.refl (pool : ClassPool) : pool.Within pool := fun _ cls h => ⟨cls, h, .refl cls⟩

theorem Within.trans (h : pool.Within middle) (h' : middle.Within next) : pool.Within next := by
  intro i cls hcls
  obtain ⟨cls', hcls', hwithin⟩ := h i cls hcls
  obtain ⟨cls'', hcls'', hwithin'⟩ := h' i cls' hcls'
  exact ⟨cls'', hcls'', hwithin.trans hwithin'⟩

theorem Within.method? (h : pool.Within next) (hmethod : pool.method? id = some method) :
    next.method? id = some method := by
  obtain ⟨cls, hcls, hindex⟩ := Option.bind_eq_some_iff.mp hmethod
  obtain ⟨cls', hcls', added, rfl⟩ := h id.inClass cls hcls
  refine Option.bind_eq_some_iff.mpr ⟨_, hcls', ?_⟩
  rw [List.getElem?_append_left (List.getElem?_eq_some_iff.mp hindex).1, hindex]

theorem within_set_adopt (found : pool.classes[inClass]? = some cls) (method : Method) :
    pool.Within ⟨pool.classes.set inClass (cls.adopt method)⟩ := by
  intro i other hother
  by_cases heq : inClass = i
  · subst heq
    cases found.symm.trans hother
    exact ⟨cls.adopt method, List.getElem?_set_self (List.getElem?_eq_some_iff.mp found).1,
      cls.within_adopt method⟩
  · exact ⟨other, (List.getElem?_set_ne heq).trans hother, .refl other⟩

end ClassPool

/-! ## Additions -/

/-- A class for a pool, or a method for the class at a place. -/
inductive Addition where
  | cls (cls : ClassDef)
  | method (inClass : Nat) (method : Method)

/-- Where an addition has gone. -/
inductive Place where
  | cls (index : Nat)
  | method (id : MethodId)
deriving DecidableEq

namespace ClassPool

/-- Makes an addition in place. -/
def addM : Addition → Editing ClassPool Place
  | .cls cls => .cls <$> addClassM cls
  | .method inClass method => .method <$> addMethodM inClass method

/-- What an addition answers, and what it leaves behind. -/
def add (pool : ClassPool) (addition : Addition) : Except Error Place × ClassPool :=
  (addM addition).run.run pool

/-- The pool after additions, one after the other. -/
def addAll (pool : ClassPool) (additions : List Addition) : ClassPool :=
  additions.foldl (fun pool addition => (pool.add addition).2) pool

/-- The places of the classes by their descriptors, with what an addition adds to them. -/
def note (index : NameMap Nat) : Addition → Except Error Place → NameMap Nat
  | .cls cls, .ok (.cls i) => index.insert cls.descriptor i
  | _, _ => index

/-- The places of the classes by their descriptors, noted as the classes are added. -/
def noteAll (pool : ClassPool) (index : NameMap Nat) : List Addition → NameMap Nat
  | [] => index
  | addition :: additions =>
    (pool.add addition).2.noteAll (note index addition (pool.add addition).1) additions

/-- Why an addition is refused: a class has the descriptor, or the class at the place has a method of
the signature, or there is no class. -/
def Refuses (pool : ClassPool) : Addition → Prop
  | .cls cls => cls.descriptor ∈ pool.classes.map (·.descriptor)
  | .method inClass method =>
    ∀ cls, pool.classes[inClass]? = some cls → method.sig ∈ cls.methods.map (·.sig)

/-- What one addition comes to. -/
inductive Adds (pool : ClassPool) : Addition → Except Error Place → ClassPool → Prop
  | refused {addition : Addition} (refuses : pool.Refuses addition) (e : Error) :
    Adds pool addition (.error e) pool
  | cls {cls : ClassDef} (new : cls.descriptor ∉ pool.classes.map (·.descriptor)) :
    Adds pool (.cls cls) (.ok (.cls pool.classes.length)) ⟨pool.classes ++ [cls]⟩
  | method {inClass : Nat} {cls : ClassDef} {method : Method}
    (found : pool.classes[inClass]? = some cls)
    (new : method.sig ∉ cls.methods.map (·.sig)) :
    Adds pool (.method inClass method) (.ok (.method ⟨inClass, cls.methods.length⟩))
      ⟨pool.classes.set inClass (cls.adopt method)⟩

theorem adds_add (pool : ClassPool) (addition : Addition) :
    Adds pool addition (pool.add addition).1 (pool.add addition).2 := by
  cases addition with
  | cls cls =>
      rw [add, addM, (addClassM_comesTo cls pool).map Place.cls]
      by_cases h : (pool.findClass? cls.descriptor).isSome
      · rw [if_pos h]
        refine .refused ?_ _
        exact findClass?_isSome_iff.mp h
      · rw [if_neg h]
        exact .cls fun hmem => h (findClass?_isSome_iff.mpr hmem)
  | method inClass method =>
      have hadds := (addMethodM_comesTo inClass method pool).map Place.method
      rw [← (addMethodM_comesTo inClass method pool).granted_eq] at hadds
      rw [add, addM, hadds]
      cases hadd : (addMethodM inClass method).granted pool with
      | ok added =>
          obtain ⟨id, next⟩ := added
          obtain ⟨cls, found, new, rfl, rfl⟩ := addMethod_eq_ok_iff.mp hadd
          exact .method found new
      | error e =>
          refine .refused ?_ _
          intro cls found
          by_contra new
          cases hadd.symm.trans (addMethod_eq_ok_iff.mpr ⟨cls, found, new, rfl, rfl⟩)

/-- What was added stands at the place, a method as one of its class. -/
def Stands (pool : ClassPool) : Addition → Place → Prop
  | .cls cls, .cls i => pool.classes[i]? = some cls
  | .method inClass method, .method id =>
    id.inClass = inClass ∧ ∃ cls, pool.classes[inClass]? = some cls ∧
      pool.method? id = some { method with owner := cls.descriptor }
  | _, _ => False

def Orderly (pool : ClassPool) : Prop := ∀ cls ∈ pool.classes, cls.Orderly

variable {pool next : ClassPool} {addition : Addition} {outcome : Except Error Place}

/-! ### One addition -/

theorem Adds.distinct (h : Adds pool addition outcome next) (distinct : pool.Distinct) :
    next.Distinct := by
  cases h with
  | refused => exact distinct
  | @cls cls new =>
      rw [← addNew_of_not_mem new]
      exact foldl_addNew_distinct distinct [cls]
  | @method inClass cls method found new =>
      rw [Distinct, map_descriptor_set_adopt found]
      exact distinct

theorem Adds.within (h : Adds pool addition outcome next) : pool.Within next := by
  cases h with
  | refused => exact .refl pool
  | cls new =>
      intro i cls hcls
      refine ⟨cls, ?_, .refl cls⟩
      rw [List.getElem?_append_left (List.getElem?_eq_some_iff.mp hcls).1, hcls]
  | @method inClass cls method found new => exact within_set_adopt found method

/-- What is noted is what a search finds. -/
def Indexed (pool : ClassPool) (index : NameMap Nat) : Prop :=
  ∀ descriptor, index.get? descriptor = pool.findClass? descriptor

theorem Adds.indexed {index : NameMap Nat} (h : Adds pool addition outcome next)
    (indexed : pool.Indexed index) : next.Indexed (note index addition outcome) := by
  intro descriptor
  cases h with
  | refused refuses e =>
      rw [note]
      · exact indexed descriptor
      · exact nofun
  | @cls cls new =>
      rw [note, NameMap.get?_insert, indexed, findClass?, findClass?, List.findIdx?_append]
      split
      · rename_i heq
        subst heq
        have hnone : pool.findClass? cls.descriptor = none := by
          rw [← Option.not_isSome_iff_eq_none, findClass?_isSome_iff]
          exact new
        rw [findClass?] at hnone
        simp [hnone]
      · rename_i hne
        have hother : (cls.descriptor == descriptor) = false := beq_eq_false_iff_ne.mpr (Ne.symm hne)
        simp [hother]
  | @method inClass cls method found new =>
      have hfind (pool : ClassPool) : pool.findClass? descriptor =
          (pool.classes.map (·.descriptor)).findIdx? (· == descriptor) := by
        rw [List.findIdx?_map]
        rfl
      rw [hfind, map_descriptor_set_adopt found, ← hfind]
      exact indexed descriptor

theorem Adds.orderly (h : Adds pool addition outcome next) (orderly : pool.Orderly)
    (given : ∀ cls, addition = .cls cls → cls.Orderly) : next.Orderly := by
  intro other hmem
  cases h with
  | refused => exact orderly other hmem
  | @cls cls new =>
      rcases List.mem_append.mp hmem with hmem | hmem
      · exact orderly other hmem
      · rw [List.mem_singleton.mp hmem]
        exact given cls rfl
  | @method inClass cls method found new =>
      rcases List.mem_or_eq_of_mem_set hmem with hmem | rfl
      · exact orderly other hmem
      · exact (orderly cls (List.mem_of_getElem? found)).adopt new

theorem Adds.stands {place : Place} (h : Adds pool addition (.ok place) next) :
    next.Stands addition place := by
  cases h with
  | cls new => exact List.getElem?_concat_length
  | @method inClass cls method found new =>
      have hcls : (pool.classes.set inClass (cls.adopt method))[inClass]? = some (cls.adopt method) :=
        List.getElem?_set_self (List.getElem?_eq_some_iff.mp found).1
      exact ⟨rfl, cls.adopt method, hcls,
        Option.bind_eq_some_iff.mpr ⟨_, hcls, List.getElem?_concat_length⟩⟩

theorem Adds.refuses {e : Error} (h : Adds pool addition (.error e) next) :
    pool.Refuses addition ∧ next = pool := by
  cases h with
  | refused refuses => exact ⟨refuses, rfl⟩

theorem Adds.not_refuses {place : Place} (h : Adds pool addition (.ok place) next) :
    ¬ pool.Refuses addition := by
  cases h with
  | cls new => exact new
  | method found new => exact fun refuses => new (refuses _ found)

/-! ### Any number of additions -/

theorem addAll_distinct (distinct : pool.Distinct) (additions : List Addition) :
    (pool.addAll additions).Distinct := by
  induction additions generalizing pool with
  | nil => exact distinct
  | cons addition additions ih => exact ih ((adds_add pool addition).distinct distinct)

theorem within_addAll (pool : ClassPool) (additions : List Addition) :
    pool.Within (pool.addAll additions) := by
  induction additions generalizing pool with
  | nil => exact .refl pool
  | cons addition additions ih => exact (adds_add pool addition).within.trans (ih _)

theorem addAll_orderly (orderly : pool.Orderly) {additions : List Addition}
    (given : ∀ cls, .cls cls ∈ additions → cls.Orderly) : (pool.addAll additions).Orderly := by
  induction additions generalizing pool with
  | nil => exact orderly
  | cons addition additions ih =>
      refine ih ((adds_add pool addition).orderly orderly fun cls h => given cls ?_)
        fun cls hmem => given cls (List.mem_cons_of_mem _ hmem)
      rw [h]
      exact List.mem_cons_self

theorem addAll_indexed {index : NameMap Nat} (indexed : pool.Indexed index)
    (additions : List Addition) :
    (pool.addAll additions).Indexed (pool.noteAll index additions) := by
  induction additions generalizing pool index with
  | nil => exact indexed
  | cons addition additions ih => exact ih ((adds_add pool addition).indexed indexed)

theorem addAll_append (pool : ClassPool) (earlier later : List Addition) :
    pool.addAll (earlier ++ later) = (pool.addAll earlier).addAll later := List.foldl_append

/-- The pool of given classes is one to which they were added. -/
theorem ofClasses_eq_addAll (classes : List ClassDef) :
    ofClasses classes = empty.addAll (classes.map .cls) := by
  rw [addAll, List.foldl_map, ofClasses]
  congr 1
  funext pool cls
  rw [addNew, add, addM, run_map]

/-- A method is found under its own reference. -/
theorem findMethod?_ref (distinct : pool.Distinct) (orderly : pool.Orderly) {id : MethodId}
    {method : Method} (h : pool.method? id = some method) :
    pool.findMethod? method.ref = some id := by
  obtain ⟨cls, hcls, hindex⟩ := Option.bind_eq_some_iff.mp h
  have horderly := orderly cls (List.mem_of_getElem? hcls)
  have howner : method.ref.owner = cls.descriptor := horderly.owned _ (List.mem_of_getElem? hindex)
  have hclass : pool.findClass? method.ref.owner = some id.inClass :=
    distinct.findClass?_eq_some_iff.mpr ⟨cls, hcls, howner.symm⟩
  have hmethod : cls.findMethod? method.ref = some id.index :=
    horderly.findMethod?_eq_some_iff.mpr ⟨method, hindex, rfl⟩
  rw [findMethod?, hclass, Option.bind_eq_bind, Option.bind_some, hcls, Option.bind_eq_bind,
    Option.bind_some, hmethod]
  rfl

/-- A pool is made of the first class of each descriptor, and classes and methods are added to it one
by one.  However many are added or refused, a class is found under its descriptor alone, by a search
or in an index that is kept up, what is added stands at the place that is given out for it, and it
still stands there after whatever is added later.  If all classes came with methods of their own and
no two of one signature, each method is found by its reference. -/
theorem addAll_keeps_places (given : List ClassDef) (additions : List Addition) :
    (ofClasses given).classes = given.eraseDupsBy (·.descriptor == ·.descriptor) ∧
    let pool := (ofClasses given).addAll additions
    pool.Distinct ∧
    (∀ descriptor i, pool.findClass? descriptor = some i ↔
      ∃ cls, pool.classes[i]? = some cls ∧ cls.descriptor = descriptor) ∧
    pool.Indexed (empty.noteAll {} (given.map .cls ++ additions)) ∧
    (∀ addition, match pool.add addition with
      | (.ok place, next) => ¬ pool.Refuses addition ∧ next.Stands addition place
      | (.error _, next) => pool.Refuses addition ∧ next = pool) ∧
    (∀ more, pool.Within (pool.addAll more) ∧
      ∀ id method, pool.method? id = some method → (pool.addAll more).method? id = some method) ∧
    ((∀ cls ∈ given, cls.Orderly) → (∀ cls, .cls cls ∈ additions → cls.Orderly) →
      pool.Orderly ∧
        ∀ id method, pool.method? id = some method → pool.findMethod? method.ref = some id) := by
  refine ⟨classes_ofClasses given, ?_⟩
  intro pool
  have hpool : pool = empty.addAll (given.map .cls ++ additions) := by
    rw [addAll_append, ← ofClasses_eq_addAll]
  have distinct : pool.Distinct := hpool ▸ addAll_distinct (show empty.Distinct from List.nodup_nil) _
  have indexed : pool.Indexed (empty.noteAll {} (given.map .cls ++ additions)) :=
    hpool ▸ addAll_indexed (fun _ => rfl) _
  refine ⟨distinct, fun descriptor i => distinct.findClass?_eq_some_iff, indexed, fun addition => ?_,
    fun more => ?_, fun hgiven hadded => ?_⟩
  · have adds := adds_add pool addition
    match pool.add addition, adds with
    | (.ok place, next), adds => exact ⟨adds.not_refuses, adds.stands⟩
    | (.error e, next), adds => exact adds.refuses
  · have within := within_addAll pool more
    exact ⟨within, fun id method => within.method?⟩
  · have orderly : pool.Orderly := by
      rw [hpool]
      refine addAll_orderly (List.forall_mem_nil _) fun cls hmem => ?_
      rcases List.mem_append.mp hmem with hmem | hmem
      · obtain ⟨_, hmem, ⟨⟩⟩ := List.mem_map.mp hmem
        exact hgiven cls hmem
      · exact hadded cls hmem
    exact ⟨orderly, fun id method => findMethod?_ref distinct orderly⟩

/-- Two classes of one descriptor, of which the second is left out; a class and a method that are
refused, and a method that is refused in the first class and not in the second. -/
theorem addAll_keeps_places_refused :
    let method (owner : String) : Method := ⟨owner, "m", ["I"], "V", .publicFlag, 0, []⟩
    let cls (descriptor : String) (methods : List Method) : ClassDef :=
      { ClassDef.ofDescriptor descriptor with methods := methods }
    let given := [cls "La;" [method "La;"], cls "La;" []]
    let additions := [.cls (cls "Lb;" []), .cls (cls "La;" []), .method 0 (method "Lb;"),
      .method 1 (method "La;"), .method 2 (method "La;")]
    let pool := (ofClasses given).addAll additions
    (∀ cls ∈ given, cls.Orderly) ∧ (∀ cls, .cls cls ∈ additions → cls.Orderly) ∧
      pool.classes = [cls "La;" [method "La;"], cls "Lb;" [method "Lb;"]] ∧
      pool.findMethod? (method "La;").ref = some ⟨0, 0⟩ ∧
      pool.findMethod? (method "Lb;").ref = some ⟨1, 0⟩ := by
  intro method cls given additions pool
  have orderly (descriptor : String) (methods : List Method)
      (h : methods = [] ∨ methods = [method descriptor]) : (cls descriptor methods).Orderly := by
    rcases h with rfl | rfl
    · exact ⟨List.nodup_nil, fun _ h => absurd h List.not_mem_nil⟩
    · refine ⟨List.nodup_singleton _, fun other h => ?_⟩
      rw [List.mem_singleton.mp h]
      rfl
  have hgiven : ∀ cls ∈ given, cls.Orderly := by
    simp only [given, List.forall_mem_cons]
    exact ⟨orderly _ _ (.inr rfl), orderly _ _ (.inl rfl), fun _ h => absurd h List.not_mem_nil⟩
  have hadded : ∀ cls, .cls cls ∈ additions → cls.Orderly := by
    intro added hmem
    simp only [additions, List.mem_cons, Addition.cls.injEq, reduceCtorEq, List.not_mem_nil,
      or_false] at hmem
    rcases hmem with rfl | rfl <;> exact orderly _ _ (.inl rfl)
  obtain ⟨-, -, -, -, -, -, hfound⟩ := addAll_keeps_places given additions
  obtain ⟨-, hfound⟩ := hfound hgiven hadded
  have hpool : pool.classes = [cls "La;" [method "La;"], cls "Lb;" [method "Lb;"]] := by
    decide +kernel
  exact ⟨hgiven, hadded, hpool, hfound _ _ (by decide +kernel), hfound _ _ (by decide +kernel)⟩

end ClassPool

end DexGraft
