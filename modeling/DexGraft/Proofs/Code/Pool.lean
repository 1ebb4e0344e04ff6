import DexGraft.Code.Pool
import DexGraft.Proofs.Editing

/-!
# Changes to the methods of a pool

A pool in which every method has been changed by a function of its place, and nothing else has.
-/

namespace DexGraft.ClassPool

/-- The pool with each of its methods changed, in view of its place. -/
def mapMethods (change : MethodId → Method → Method) (pool : ClassPool) : ClassPool :=
  ⟨pool.classes.mapIdx fun inClass cls =>
    { cls with methods := cls.methods.mapIdx fun index => change ⟨inClass, index⟩ }⟩

variable {pool : ClassPool} {change change' : MethodId → Method → Method}

theorem method?_of_method {id : MethodId} {method : Method} (h : pool.method id = .ok method) :
    pool.method? id = some method := by
  rw [ClassPool.method] at h
  split at h
  · cases h
    assumption
  · cases h

theorem method?_mapMethods (id : MethodId) :
    (pool.mapMethods change).method? id = (pool.method? id).map (change id) := by
  rw [method?, method?, mapMethods, List.getElem?_mapIdx]
  cases pool.classes[id.inClass]? with
  | none => rfl
  | some cls => exact List.getElem?_mapIdx

/-- Methods that stay as they are make a pool that stays as it is. -/
theorem mapMethods_eq_self
    (h : ∀ id method, pool.method? id = some method → change id method = method) :
    pool.mapMethods change = pool := by
  have hclasses : (pool.mapMethods change).classes = pool.classes := by
    refine List.ext_getElem? fun inClass => ?_
    rw [mapMethods, List.getElem?_mapIdx]
    cases hcls : pool.classes[inClass]? with
    | none => rfl
    | some cls =>
        have hmethods : cls.methods.mapIdx (fun index => change ⟨inClass, index⟩) =
            cls.methods := by
          refine List.ext_getElem? fun index => ?_
          rw [List.getElem?_mapIdx]
          cases hmethod : cls.methods[index]? with
          | none => rfl
          | some method =>
              rw [Option.map_some, h ⟨inClass, index⟩ method]
              rw [method?, hcls]
              exact hmethod
        rw [Option.map_some, hmethods]
  exact congrArg ClassPool.mk hclasses

/-- Another change to one of the methods. -/
theorem setMethod_mapMethods {id : MethodId} {method : Method}
    (hmethod : pool.method? id = some method)
    (hother : ∀ other, other ≠ id → change' other = change other) :
    (pool.mapMethods change).setMethod id (change' id method) = pool.mapMethods change' := by
  have hclasses : ((pool.mapMethods change).setMethod id (change' id method)).classes =
      (pool.mapMethods change').classes := by
    refine List.ext_getElem? fun inClass => ?_
    rw [setMethod, mapMethods, mapMethods, List.getElem?_modify, List.getElem?_mapIdx,
      List.getElem?_mapIdx]
    cases hcls : pool.classes[inClass]? with
    | none => simp
    | some cls =>
        by_cases hclass : id.inClass = inClass
        · subst hclass
          have hmethods : (cls.methods.mapIdx fun index => change ⟨id.inClass, index⟩).set id.index
              (change' id method) =
                cls.methods.mapIdx fun index => change' ⟨id.inClass, index⟩ := by
            rw [method?, hcls, Option.bind_some] at hmethod
            refine List.ext_getElem? fun index => ?_
            rw [List.getElem?_mapIdx]
            by_cases hindex : id.index = index
            · subst hindex
              have hlt : id.index <
                  (cls.methods.mapIdx fun index => change ⟨id.inClass, index⟩).length := by
                rw [List.length_mapIdx]
                exact (List.getElem?_eq_some_iff.mp hmethod).1
              rw [List.getElem?_set_self hlt, hmethod, Option.map_some]
            · rw [List.getElem?_set_ne hindex, List.getElem?_mapIdx, hother]
              intro heq
              exact hindex (congrArg MethodId.index heq).symm
          simp [hmethods]
        · have hmethods : (fun index => change ⟨inClass, index⟩) =
              fun index => change' ⟨inClass, index⟩ := by
            funext index
            refine (hother _ fun heq => hclass ?_).symm
            rw [← heq]
          simp [hclass, hmethods]
  exact congrArg ClassPool.mk hclasses

/-- A method put in its own place changes nothing. -/
theorem setMethod_self {id : MethodId} {method : Method} (h : pool.method id = .ok method) :
    pool.setMethod id method = pool := by
  obtain ⟨cls, hcls, hmethod⟩ := Option.bind_eq_some_iff.mp (method?_of_method h)
  have hmethods : cls.methods.set id.index method = cls.methods := by
    obtain ⟨_, rfl⟩ := List.getElem?_eq_some_iff.mp hmethod
    exact List.set_getElem_self ..
  have hclasses : (pool.setMethod id method).classes = pool.classes := by
    refine List.ext_getElem? fun i => ?_
    rw [setMethod, List.getElem?_modify]
    by_cases hi : id.inClass = i
    · subst hi
      simp [hcls, hmethods]
    · simp [hi]
  exact congrArg ClassPool.mk hclasses

theorem method?_setMethod {id : MethodId} {old : Method} (h : pool.method? id = some old)
    (new : Method) : (pool.setMethod id new).method? id = some new := by
  rw [method?, Option.bind_eq_some_iff] at h
  obtain ⟨cls, hcls, hmethod⟩ := h
  obtain ⟨hlt, -⟩ := List.getElem?_eq_some_iff.mp hmethod
  simp [method?, setMethod, hcls, hlt]

theorem method?_setMethod_of_ne {id other : MethodId} (h : other ≠ id) (pool : ClassPool)
    (new : Method) : (pool.setMethod id new).method? other = pool.method? other := by
  rw [method?, method?, setMethod, List.getElem?_modify]
  cases hcls : pool.classes[other.inClass]? with
  | none => rfl
  | some cls =>
      by_cases hclass : id.inClass = other.inClass
      · have hindex : id.index ≠ other.index := by
          intro hindex
          refine h ?_
          cases id
          cases other
          cases hclass
          cases hindex
          rfl
        simp [hclass, List.getElem?_set_ne hindex]
      · simp [hclass]

theorem run_editMethod {edit : Editing Method Unit} {id : MethodId} {method : Method}
    (h : pool.method id = .ok method) : (editMethod id edit).run.run pool =
      ((edit.run.run method).1, pool.setMethod id (edit.run.run method).2) :=
  Editing.run_zoom h

theorem run_editMethod_of_error {edit : Editing Method Unit} {id : MethodId} {e : Error}
    (h : pool.method id = .error e) : (editMethod id edit).run.run pool = (.error e, pool) :=
  Editing.run_zoom_of_error h

/-- An edit that leaves nothing behind in a method leaves nothing behind in the pool. -/
theorem editMethod_comesTo {edit : Editing Method Unit} (h : edit.Atomic) (id : MethodId)
    (pool : ClassPool) : (editMethod id edit).ComesTo pool (Except.map ((), ·) (
      pool.method id >>= fun method => (edit.result method).map (pool.setMethod id))) := by
  have hzoom : (editMethod id edit).ComesTo pool _ := h.zoom fun _ => setMethod_self
  cases hmethod : pool.method id with
  | error e =>
      rw [hmethod] at hzoom
      exact hzoom
  | ok method =>
      rw [hmethod, Outcome.ok_bind] at hzoom
      rw [Outcome.ok_bind, Editing.result]
      cases hgranted : edit.granted method <;> rw [hgranted] at hzoom <;> exact hzoom

/-- One of the methods has been changed as the function says, and nothing else has. -/
def Edited (id : MethodId) (change : Method → Except Error Method) (old new : ClassPool) : Prop :=
  ∃ method changed, old.method? id = some method ∧ change method = .ok changed ∧
    new = old.setMethod id changed

variable {old new : ClassPool}

theorem Edited.method?_self {id : MethodId} {method : Method}
    {change : Method → Except Error Method} (h : Edited id change old new)
    (hmethod : old.method? id = some method) :
    ∃ changed, change method = .ok changed ∧ new.method? id = some changed := by
  obtain ⟨method', changed, hmethod', hchange, rfl⟩ := h
  cases hmethod.symm.trans hmethod'
  exact ⟨changed, hchange, method?_setMethod hmethod changed⟩

theorem Edited.method?_of_ne {id other : MethodId} {change : Method → Except Error Method}
    (h : Edited id change old new) (hne : other ≠ id) : new.method? other = old.method? other := by
  obtain ⟨method, changed, -, -, rfl⟩ := h
  exact method?_setMethod_of_ne hne old changed

end DexGraft.ClassPool
