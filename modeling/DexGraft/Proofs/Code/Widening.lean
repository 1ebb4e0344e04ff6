import DexGraft.Proofs.Code.Places
import DexGraft.Proofs.Code.Pool
import DexGraft.Proofs.Edit.Insertion
import Mathlib.Order.Monotone.Basic

/-!
# Widening

A pool is widened when instructions are put into its methods, and classes are given a further method
with a signature that they did not have.  Widening is a preorder, so that it holds of any number of
such edits as it does of one.
-/

namespace DexGraft

open Outcome

theorem Target.afterInsert_strictMono (index count : Nat) : StrictMono (afterInsert index count) := by
  intro target target' hlt
  rw [afterInsert, afterInsert]
  split <;> split <;> omega

/-! ## Methods -/

namespace Method

/-- Instructions have been put in, and nothing else has changed: those that were there have moved to
their places, in order, and their branches lead where they led. -/
structure Moved (place : Nat → Nat) (old new : Method) : Prop where
  frame : { new with body := old.body } = old
  mono : StrictMono place
  atEnd : place old.body.length = new.body.length
  kept : ∀ index, new.body[place index]? = old.body[index]?.map (.retarget place)

/-- Instructions have been put in, wherever this has moved those that were there. -/
def Widened (old new : Method) : Prop := ∃ place, Moved place old new

variable {old middle new : Method} {place place' : Nat → Nat}

theorem Moved.refl (method : Method) : Moved id method method where
  frame := rfl
  mono := strictMono_id
  atEnd := rfl
  kept index := by
    cases hindex : method.body[index]? <;> simp [hindex]

theorem Moved.trans (h : Moved place old middle) (h' : Moved place' middle new) :
    Moved (place' ∘ place) old new where
  frame := by
    rw [← h.frame, ← h'.frame]
  mono := h'.mono.comp h.mono
  atEnd := by
    rw [Function.comp_apply, h.atEnd, h'.atEnd]
  kept index := by
    rw [Function.comp_apply, h'.kept, h.kept, Option.map_map]
    congr 1
    funext instruction
    exact Weave.retarget_retarget _ _ _

theorem Moved.ref_eq (h : Moved place old new) : new.ref = old.ref :=
  calc new.ref = { new with body := old.body }.ref := rfl
    _ = old.ref := by rw [h.frame]

theorem moved_of_insert {index : Nat} {items : List Instruction}
    (h : old.insert index items = .ok new) :
    Moved (Target.afterInsert index items.length) old new where
  frame := by
    have happly : (Splice.insert index items).apply old = .ok new := h
    obtain ⟨-, rfl⟩ := Splice.apply_eq_ok_iff.mp happly
    rfl
  mono := Target.afterInsert_strictMono index _
  atEnd := by
    have happly : (Splice.insert index items).apply old = .ok new := h
    obtain ⟨fits, -⟩ := Splice.apply_eq_ok_iff.mp happly
    rw [Splice.length_of_apply happly, ← Splice.move_length fits]
    rfl
  kept := Splice.getElem?_afterInsert_of_insert h

theorem Widened.refl (method : Method) : method.Widened method := ⟨id, .refl method⟩

theorem Widened.trans (h : old.Widened middle) (h' : middle.Widened new) : old.Widened new := by
  obtain ⟨place, hmoved⟩ := h
  obtain ⟨place', hmoved'⟩ := h'
  exact ⟨place' ∘ place, hmoved.trans hmoved'⟩

theorem Widened.ref_eq (h : old.Widened new) : new.ref = old.ref := by
  obtain ⟨place, hmoved⟩ := h
  exact hmoved.ref_eq

theorem widened_of_insert {index : Nat} {items : List Instruction}
    (h : old.insert index items = .ok new) : old.Widened new :=
  ⟨_, moved_of_insert h⟩

theorem widened_of_insertText {index : Nat} {text : String}
    (h : old.insertText index text = .ok new) : old.Widened new := by
  obtain ⟨items, -, happly, -⟩ := exists_of_insertLabelled h
  exact widened_of_insert happly

end Method

/-! ## Classes -/

namespace ClassDef

/-- The class has its methods, widened or as they were, and maybe one more behind them; this only if it
had no method of the signature before, and has one now. -/
structure Widened (signature : MethodRef) (old new : ClassDef) : Prop where
  frame : { new with methods := old.methods } = old
  kept : ∀ (index : Nat) (method : Method), old.methods[index]? = some method →
    ∃ method', new.methods[index]? = some method' ∧ method.Widened method'
  added : new.methods.length = old.methods.length ∨
    new.methods.length = old.methods.length + 1 ∧ (new.findMethod? signature).isSome ∧
      old.findMethod? signature = none

variable {signature : MethodRef} {old middle new : ClassDef}

/-- A method of the signature keeps it. -/
theorem Widened.isSome_findMethod? (h : Widened signature old new) {other : MethodRef}
    (hold : (old.findMethod? other).isSome) : (new.findMethod? other).isSome := by
  rw [isSome_findMethod?_iff] at hold ⊢
  obtain ⟨method, hmem, hsame⟩ := hold
  obtain ⟨index, hindex⟩ := List.mem_iff_getElem?.mp hmem
  obtain ⟨method', hindex', hwidened⟩ := h.kept index method hindex
  refine ⟨method', List.mem_of_getElem? hindex', ?_⟩
  rw [hwidened.ref_eq, hsame]

theorem Widened.refl (signature : MethodRef) (cls : ClassDef) : Widened signature cls cls where
  frame := rfl
  kept _ method h := ⟨method, h, .refl method⟩
  added := .inl rfl

theorem Widened.trans (h : Widened signature old middle) (h' : Widened signature middle new) :
    Widened signature old new where
  frame := by
    rw [← h.frame, ← h'.frame]
  kept index method hindex := by
    obtain ⟨method', hindex', hwidened⟩ := h.kept index method hindex
    obtain ⟨method'', hindex'', hwidened'⟩ := h'.kept index method' hindex'
    exact ⟨method'', hindex'', hwidened.trans hwidened'⟩
  added := by
    rcases h.added with hlength | ⟨hlength, hsome, hnone⟩
    · rcases h'.added with hlength' | ⟨hlength', hsome', hnone'⟩
      · exact .inl (hlength'.trans hlength)
      · refine .inr ⟨by rw [hlength', hlength], hsome', ?_⟩
        rw [← Option.not_isSome_iff_eq_none] at hnone' ⊢
        exact fun hold => hnone' (h.isSome_findMethod? hold)
    · rcases h'.added with hlength' | ⟨-, -, hnone'⟩
      · exact .inr ⟨hlength'.trans hlength, h'.isSome_findMethod? hsome, hnone⟩
      · -- the method that was added first stands in the way of another
        rw [hnone'] at hsome
        cases hsome

/-- The class with another method in the place of one that it widens. -/
theorem widened_set {cls : ClassDef} {index : Nat} {method : Method} (signature : MethodRef)
    (h : ∀ old, cls.methods[index]? = some old → old.Widened method) :
    Widened signature cls { cls with methods := cls.methods.set index method } where
  frame := rfl
  kept other old hold := by
    dsimp only
    rw [List.getElem?_set]
    split
    · rename_i heq
      subst heq
      obtain ⟨hlt, -⟩ := List.getElem?_eq_some_iff.mp hold
      exact ⟨method, if_pos hlt, h old hold⟩
    · exact ⟨old, hold, .refl old⟩
  added := .inl (List.length_set ..)

/-- The class with a method behind its own. -/
theorem widened_append {cls : ClassDef} {method : Method} {signature : MethodRef}
    (hsame : method.ref.sameSignature signature = true) (hnew : cls.findMethod? signature = none) :
    Widened signature cls { cls with methods := cls.methods ++ [method] } where
  frame := rfl
  kept index old hold := by
    refine ⟨old, ?_, .refl old⟩
    rw [List.getElem?_append_left (List.getElem?_eq_some_iff.mp hold).1, hold]
  added := by
    refine .inr ⟨List.length_append, ?_, hnew⟩
    rw [isSome_findMethod?_iff]
    exact ⟨method, List.mem_append_right _ (List.mem_singleton_self method), hsame⟩

end ClassDef

/-! ## Pools -/

namespace ClassPool

/-- The pool has its classes, widened or as they were, and no others. -/
structure Widened (signature : MethodRef) (old new : ClassPool) : Prop where
  length : new.classes.length = old.classes.length
  kept : ∀ (index : Nat) (cls : ClassDef), old.classes[index]? = some cls →
    ∃ cls', new.classes[index]? = some cls' ∧ cls.Widened signature cls'

variable {signature : MethodRef} {old middle new pool next : ClassPool}

theorem Widened.refl (signature : MethodRef) (pool : ClassPool) : Widened signature pool pool where
  length := rfl
  kept _ cls h := ⟨cls, h, .refl signature cls⟩

theorem Widened.trans (h : Widened signature old middle) (h' : Widened signature middle new) :
    Widened signature old new where
  length := h'.length.trans h.length
  kept index cls hindex := by
    obtain ⟨cls', hindex', hwidened⟩ := h.kept index cls hindex
    obtain ⟨cls'', hindex'', hwidened'⟩ := h'.kept index cls' hindex'
    exact ⟨cls'', hindex'', hwidened.trans hwidened'⟩

/-- The pool with another class in the place of one that it widens. -/
theorem widened_modify {index : Nat} {change : ClassDef → ClassDef}
    (h : ∀ cls, pool.classes[index]? = some cls → cls.Widened signature (change cls)) :
    Widened signature pool ⟨pool.classes.modify index change⟩ where
  length := List.length_modify ..
  kept other cls hcls := by
    dsimp only
    rw [List.getElem?_modify, hcls]
    by_cases heq : index = other
    · subst heq
      exact ⟨change cls, by simp, h cls hcls⟩
    · exact ⟨cls, by simp [heq], .refl signature cls⟩

theorem widened_setMethod {id : MethodId} {method changed : Method} (signature : MethodRef)
    (hmethod : pool.method? id = some method) (h : method.Widened changed) :
    Widened signature pool (pool.setMethod id changed) := by
  refine widened_modify fun cls hcls => ClassDef.widened_set signature fun old hold => ?_
  rw [method?, hcls, Option.bind_some, hold] at hmethod
  cases hmethod
  exact h

/-- A method that is added has the signature of no other method of its class. -/
theorem widened_addMethod {inClass : Nat} {method : Method} {id : MethodId}
    (hsame : { method.ref with owner := signature.owner } = signature)
    (h : pool.addMethod inClass method = .ok (id, next)) : Widened signature pool next := by
  obtain ⟨cls, found, new, rfl, rfl⟩ := addMethod_eq_ok_iff.mp h
  -- the owner, which the class gives to the method, is no part of a signature
  have hnew : cls.findMethod? signature = none := by
    rw [← hsame]
    exact ClassDef.findMethod?_eq_none_iff.mpr new
  rw [List.set_eq_modify]
  refine widened_modify fun other hother => ?_
  cases found.symm.trans hother
  refine ClassDef.widened_append ?_ hnew
  rw [← hsame]
  simp [MethodRef.sameSignature, Method.ref]

end ClassPool

/-! ## Single instructions -/

/-- A single instruction is put into a method, at an index. -/
structure Put where
  method : MethodId
  index : Nat
deriving DecidableEq, Repr

namespace Put

variable {put : Put} {id : MethodId} {index : Nat}

/-- Where what stood at an index of a method stands once the instruction has been put in. -/
def move (put : Put) (id : MethodId) (index : Nat) : Nat :=
  if put.method = id then Target.afterInsert put.index 1 index else index

/-- Where it stands once instructions have been put in one by one. -/
def moveAll (puts : List Put) (id : MethodId) (index : Nat) : Nat :=
  puts.foldl (fun place put => put.move id place) index

@[simp] theorem moveAll_nil (id : MethodId) (index : Nat) : moveAll [] id index = index := rfl

@[simp] theorem moveAll_cons (put : Put) (puts : List Put) (id : MethodId) (index : Nat) :
    moveAll (put :: puts) id index = moveAll puts id (put.move id index) := rfl

theorem moveAll_append (puts puts' : List Put) (id : MethodId) :
    moveAll (puts ++ puts') id = moveAll puts' id ∘ moveAll puts id := by
  funext index
  exact List.foldl_append

theorem move_eq_self (h : put.method = id → index < put.index) : put.move id index = index := by
  rw [move]
  split
  · exact if_neg (Nat.not_le.mpr (h ‹_›))
  · rfl

theorem move_eq_succ (hmethod : put.method = id) (hindex : put.index ≤ index) :
    put.move id index = index + 1 := by
  rw [move, if_pos hmethod, Target.afterInsert, if_pos hindex]

theorem le_move (put : Put) (id : MethodId) (index : Nat) : index ≤ put.move id index := by
  rw [move, Target.afterInsert]
  split <;> [split; skip] <;> omega

theorem le_moveAll (puts : List Put) (id : MethodId) (index : Nat) :
    index ≤ moveAll puts id index := by
  induction puts generalizing index with
  | nil => exact le_rfl
  | cons put puts ih => exact (put.le_move id index).trans (ih _)

/-- What stands at an index stays there exactly if nothing is put in in front of it. -/
theorem moveAll_eq_self_iff {puts : List Put} :
    moveAll puts id index = index ↔ ∀ put ∈ puts, put.method = id → index < put.index := by
  induction puts with
  | nil => exact iff_of_true rfl nofun
  | cons put puts ih =>
      rw [List.forall_mem_cons, moveAll_cons]
      by_cases h : put.method = id → index < put.index
      · rw [move_eq_self h, ih, and_iff_right h]
      · rw [Classical.not_imp, Nat.not_lt] at h
        have hmove := move_eq_succ h.1 h.2
        have hle := le_moveAll puts id (index + 1)
        rw [hmove]
        refine iff_of_false (by omega) fun hall => ?_
        exact absurd (hall.1 h.1) (Nat.not_lt.mpr h.2)

/-- What stands behind an instruction stays behind it, unless something is put in in between. -/
theorem move_succ (h : put.method = id → put.index ≠ index + 1) :
    put.move id (index + 1) = put.move id index + 1 := by
  rw [move, move]
  split
  · have := h ‹_›
    rw [Target.afterInsert, Target.afterInsert]
    split <;> split <;> omega
  · rfl

end Put

namespace ClassPool

variable {puts puts' : List Put} {old middle new : ClassPool}

/-- Single instructions have been put in one by one, and the methods that were there have not been
changed in any other way. -/
def HasPut (puts : List Put) (old new : ClassPool) : Prop :=
  ∀ id method, old.method? id = some method →
    ∃ method', new.method? id = some method' ∧ Method.Moved (Put.moveAll puts id) method method'

theorem HasPut.refl (pool : ClassPool) : HasPut [] pool pool :=
  fun _ method h => ⟨method, h, .refl method⟩

theorem HasPut.trans (h : HasPut puts old middle) (h' : HasPut puts' middle new) :
    HasPut (puts ++ puts') old new := by
  intro id method hmethod
  obtain ⟨method', hmethod', moved⟩ := h id method hmethod
  obtain ⟨method'', hmethod'', moved'⟩ := h' id method' hmethod'
  rw [Put.moveAll_append]
  exact ⟨method'', hmethod'', moved.trans moved'⟩

theorem hasPut_of_insert {id : MethodId} {index : Nat} {item : Instruction}
    {method changed : Method} (hmethod : old.method? id = some method)
    (h : method.insert index [item] = .ok changed) :
    HasPut [⟨id, index⟩] old (old.setMethod id changed) := by
  intro other before hbefore
  by_cases hother : other = id
  · subst hother
    cases hmethod.symm.trans hbefore
    refine ⟨changed, method?_setMethod hmethod changed, ?_⟩
    have hmove : Put.moveAll [⟨other, index⟩] other = Target.afterInsert index 1 := by
      funext place
      exact if_pos rfl
    rw [hmove]
    exact Method.moved_of_insert h
  · refine ⟨before, ?_, ?_⟩
    · rw [method?_setMethod_of_ne hother, hbefore]
    · have hmove : Put.moveAll [⟨id, index⟩] other = (fun index => index) := by
        funext place
        exact if_neg fun heq => hother heq.symm
      rw [hmove]
      exact .refl before

theorem hasPut_of_addMethod {inClass : Nat} {method : Method} {id : MethodId}
    (h : old.addMethod inClass method = .ok (id, new)) : HasPut [] old new := by
  obtain ⟨cls, found, -, -, rfl⟩ := addMethod_eq_ok_iff.mp h
  intro other before hbefore
  exact ⟨before, (within_set_adopt found method).method? hbefore, .refl before⟩

/-- Where an instruction has moved there is none with another opcode. -/
theorem HasPut.ne_moveAll (h : HasPut puts old new) {id : MethodId} {method method' : Method}
    {index index' : Nat} {instruction instruction' : Instruction}
    (hmethod : old.method? id = some method) (hindex : method.body[index]? = some instruction)
    (hmethod' : new.method? id = some method') (hindex' : method'.body[index']? = some instruction')
    (hopcode : instruction'.opcode ≠ instruction.opcode) : index' ≠ Put.moveAll puts id index := by
  rintro rfl
  obtain ⟨changed, hchanged, moved⟩ := h id method hmethod
  cases hmethod'.symm.trans hchanged
  rw [moved.kept, hindex, Option.map_some] at hindex'
  cases hindex'
  exact hopcode rfl

end ClassPool

end DexGraft
