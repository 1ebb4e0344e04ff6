import DexGraft.Proofs.Patch.Bounds
import DexGraft.Proofs.Storage.Table

/-!
# Saving loses nothing

A pool that was loaded, and that methods were added to and changed in, comes back as it is when it is
saved and loaded again; so do sets of fingerprints and tables of resources.  What is put into a method
was assembled, and its references have a text that reads, and no step touches the descriptor of a
class.

An index is a number of 64 bits, in a file as in memory.  A pool comes back if the indices that its
branches lead to are such numbers, and every step keeps them so, unless it fails to count that far.
-/

namespace DexGraft

open Json Outcome

/-! ## What steps put in -/

theorem Smali.readable_of_readReference {kind : ReferenceKind} {operand : List Char}
    {reference : Reference} (h : readReference kind operand = .ok reference) :
    reference.Readable := by
  rw [readReference] at h
  split at h
  · rename_i hreference
    cases h
    exact Reference.readable_of_read hreference
  · cases h

theorem Trails.readable {trailing : Trailing} {literal : Option Int64}
    {reference : Option Reference} {target : Option Nat} {prototype : Option String}
    (h : Trails trailing literal reference target prototype) :
    ∀ one ∈ reference, one.Readable := by
  cases h with
  | nothing | literal | branch | payload => exact nofun
  | reference closed operand read =>
      rintro _ ⟨⟩
      exact Smali.readable_of_readReference read
  | prototyped operand read closed operand' read' =>
      rintro _ ⟨⟩
      exact Smali.readable_of_readReference read

/-- The references of what was assembled have a text that reads. -/
theorem Assembled.readable {item : Instruction} (h : Assembled item) : item.Readable :=
  h.trails.readable

namespace Method

variable {method next : Method}

theorem Changes.readable (h : method.Changes next) (readable : method.Readable) :
    next.Readable := by
  cases h with
  | splice applied aims assembled =>
      intro instruction hmem
      rcases Splice.of_mem_body_of_apply applied hmem with hitem | ⟨old, hold, rfl⟩
      · exact (assembled instruction hitem).readable
      · exact readable old hold
  | replace assembled aims =>
      intro instruction hmem
      rcases List.mem_or_eq_of_mem_set hmem with hmem | rfl
      · exact readable instruction hmem
      · exact assembled.readable
  | keep => exact readable

theorem Changes.isWord_or_overflows (h : method.Changes next) (word : method.IsWord) :
    next.IsWord ∨ method.Overflows next := by
  by_cases hover : method.Overflows next
  · exact .inr hover
  left
  cases h with
  | splice applied aims assembled => exact Splice.isWord_of_apply applied aims hover
  | @replace index item assembled aims =>
      have hlength : method.body.length < UInt64.size := by
        refine Nat.lt_of_not_le fun long => hover (.length ?_)
        rwa [List.length_set]
      intro instruction hmem target htarget
      rcases List.mem_or_eq_of_mem_set hmem with hmem | rfl
      · exact word instruction hmem target htarget
      · exact (aims target htarget).trans_lt hlength
  | keep => exact word

/-- A method that is built has a body that was assembled, if it has one. -/
theorem of_build {blueprint : Blueprint} {owner : String}
    (h : blueprint.build owner = .ok method) : method.Readable ∧ method.TargetsBounded := by
  obtain ⟨frame, hframe, hmade⟩ := Blueprint.exists_of_build h
  have hbody : frame.body = [] := congrArg Method.body (Blueprint.eq_of_frame hframe)
  have readable : frame.Readable := by
    rw [Readable, hbody]
    exact List.forall_mem_nil _
  have bounded : frame.TargetsBounded := by
    rw [TargetsBounded, hbody]
    exact List.forall_mem_nil _
  rcases hmade with ⟨text, hinsert⟩ | rfl
  · have changes : frame.Changes method := changes_of_insertLabelled [] hinsert
    exact ⟨changes.readable readable, changes.targetsBounded bounded⟩
  · exact ⟨readable, bounded⟩

end Method

/-! ## Steps -/

namespace ClassPool

variable {pool next : ClassPool}

theorem forall_method?_iff {P : Method → Prop} :
    (∀ cls ∈ pool.classes, ∀ method ∈ cls.methods, P method) ↔
      ∀ id method, pool.method? id = some method → P method := by
  constructor
  · intro h id method hmethod
    obtain ⟨cls, hcls, hmethod⟩ := Option.bind_eq_some_iff.mp hmethod
    exact h cls (List.mem_of_getElem? hcls) method (List.mem_of_getElem? hmethod)
  · intro h cls hcls method hmethod
    obtain ⟨i, hi⟩ := List.mem_iff_getElem?.mp hcls
    obtain ⟨j, hj⟩ := List.mem_iff_getElem?.mp hmethod
    refine h ⟨i, j⟩ method ?_
    rw [method?, hi, Option.bind_some, hj]

theorem readable_iff : pool.Readable ↔ ∀ id method, pool.method? id = some method → method.Readable :=
  forall_method?_iff

theorem isWord_iff : pool.IsWord ↔ ∀ id method, pool.method? id = some method → method.IsWord :=
  forall_method?_iff

theorem map_descriptor_setMethod (pool : ClassPool) (id : MethodId) (method : Method) :
    (pool.setMethod id method).classes.map (·.descriptor) = pool.classes.map (·.descriptor) := by
  refine List.ext_getElem? fun i => ?_
  rw [setMethod, List.getElem?_map, List.getElem?_map, List.getElem?_modify]
  cases pool.classes[i]? with
  | none => rfl
  | some cls =>
      by_cases h : id.inClass = i
      · simp [h]
      · simp [h]

/-- A method that is added is given its class as the owner, and the others are as they were. -/
theorem of_addMethod {inClass : Nat} {method : Method} {id : MethodId}
    (h : pool.addMethod inClass method = .ok (id, next)) :
    next.classes.map (·.descriptor) = pool.classes.map (·.descriptor) ∧
      ∀ other now, next.method? other = some now →
        pool.method? other = some now ∨ ∃ owner, now = { method with owner } := by
  obtain ⟨cls, found, -, -, rfl⟩ := addMethod_eq_ok_iff.mp h
  refine ⟨map_descriptor_set_adopt found method, ?_⟩
  intro other now hnow
  rw [method?] at hnow ⊢
  dsimp only at hnow
  rw [List.getElem?_set] at hnow
  split at hnow
  · rename_i heq
    rw [if_pos (List.getElem?_eq_some_iff.mp found).1, Option.bind_some, ClassDef.adopt,
      List.getElem?_append] at hnow
    split at hnow
    · rw [← heq, found]
      exact .inl hnow
    · exact .inr ⟨cls.descriptor, List.mem_singleton.mp (List.mem_of_getElem? hnow)⟩
  · exact .inl hnow

/-- A step to another pool: a method that was built is added, or a method is edited, or a call is put
in at a hook point. -/
inductive Step (pool : ClassPool) : ClassPool → Prop
  | added {blueprint : Blueprint} {owner : String} {method : Method} {inClass : Nat} {id : MethodId}
      {next : ClassPool} (built : blueprint.build owner = .ok method)
      (adds : pool.addMethod inClass method = .ok (id, next)) : Step pool next
  | edited {id : MethodId} {method next : Method} {change : Method.Edit}
      (found : pool.method? id = some method) (edits : method.edit change = .ok next) :
      Step pool (pool.setMethod id next)
  | injected {hooks hooks' : HookRegistry} {name descriptor : String} {index : Nat}
      {next : ClassPool} (injects : hooks.inject pool name descriptor = (.ok index, hooks', next)) :
      Step pool next

/-- All that a step does: it keeps the descriptors of the classes, and each method is what it was, or
was edited, or is new and was built. -/
theorem Step.cases_method (h : Step pool next) :
    next.classes.map (·.descriptor) = pool.classes.map (·.descriptor) ∧
      ∀ id method, next.method? id = some method →
        (∃ old, pool.method? id = some old ∧ old.Changes method) ∨
          (method.Readable ∧ method.TargetsBounded) := by
  have of_setMethod : ∀ {id : MethodId} {method changed : Method},
      pool.method? id = some method → method.Changes changed →
        ∀ other now, (pool.setMethod id changed).method? other = some now →
          ∃ old, pool.method? other = some old ∧ old.Changes now := by
    intro id method changed found changes other now hnow
    by_cases hid : other = id
    · subst hid
      rw [method?_setMethod found] at hnow
      cases hnow
      exact ⟨method, found, changes⟩
    · rw [method?_setMethod_of_ne hid] at hnow
      exact ⟨now, hnow, .keep⟩
  cases h with
  | added built adds =>
      obtain ⟨hdescriptors, hmethods⟩ := of_addMethod adds
      refine ⟨hdescriptors, fun id now hnow => ?_⟩
      rcases hmethods id now hnow with hold | ⟨owner, rfl⟩
      · exact .inl ⟨now, hold, .keep⟩
      · have hbuilt := Method.of_build built
        exact .inr hbuilt
  | edited found edits =>
      exact ⟨map_descriptor_setMethod _ _ _, fun other now hnow =>
        .inl (of_setMethod found (Method.changes_of_edit edits) other now hnow)⟩
  | injected injects =>
      obtain ⟨id, method, changed, found, changes, rfl⟩ := Session.changes_of_inject injects
      exact ⟨map_descriptor_setMethod _ _ _, fun other now hnow =>
        .inl (of_setMethod found changes other now hnow)⟩

theorem Step.distinct (h : Step pool next) (distinct : pool.Distinct) : next.Distinct := by
  rw [Distinct, h.cases_method.1]
  exact distinct

theorem Step.readable (h : Step pool next) (readable : pool.Readable) : next.Readable := by
  refine readable_iff.mpr fun id method hmethod => ?_
  rcases h.cases_method.2 id method hmethod with ⟨old, hold, changes⟩ | ⟨built, -⟩
  · exact changes.readable (readable_iff.mp readable id old hold)
  · exact built

/-- A method has been edited in such a way, or added with such a body, that there are indices past 64
bits. -/
inductive Overflows (pool next : ClassPool) : Prop
  | edited {id : MethodId} {old method : Method} (found : pool.method? id = some old)
      (becomes : next.method? id = some method) (overflows : old.Overflows method)
  | added {id : MethodId} {method : Method} (becomes : next.method? id = some method)
      (long : UInt64.size ≤ method.body.length)

theorem Step.isWord_or_overflows (h : Step pool next) (word : pool.IsWord) :
    next.IsWord ∨ Overflows pool next := by
  by_cases hover : Overflows pool next
  · exact .inr hover
  refine .inl (isWord_iff.mpr fun id method hmethod => ?_)
  rcases h.cases_method.2 id method hmethod with ⟨old, hold, changes⟩ | ⟨-, bounded⟩
  · rcases changes.isWord_or_overflows (isWord_iff.mp word id old hold) with hword | hoverflows
    · exact hword
    · exact absurd (.edited hold hmethod hoverflows) hover
  · exact Method.isWord_of_targetsBounded bounded
      (Nat.lt_of_not_le fun long => hover (.added hmethod long))

/-- A pool that was loaded from any text, or that a step leads to from such a pool.  An index is a
number of 64 bits, so a step that would have to count past them does not lead anywhere. -/
inductive Derived : ClassPool → Prop
  | loaded {text : String} {pool : ClassPool} (loads : load text = .ok pool) : Derived pool
  | step {pool next : ClassPool} (derived : Derived pool) (step : Step pool next)
      (fits : ¬ Overflows pool next) : Derived next

/-- What a run of steps preserves, from any pool that was loaded. -/
theorem Derived.storable (h : Derived pool) : pool.Distinct ∧ pool.Readable ∧ pool.IsWord := by
  induction h with
  | loaded loads => exact of_load loads
  | step derived step fits ih =>
      obtain ⟨distinct, readable, word⟩ := ih
      exact ⟨step.distinct distinct, step.readable readable,
        (step.isWord_or_overflows word).resolve_right fits⟩

end ClassPool

/-- Whatever was loaded, and whatever methods were then added, edited and hooked: what is saved is
loaded again as the same classes in the same order, with the same flags, literals, texts and
references.  So is every set of fingerprints and every table of resources. -/
theorem saving_loses_nothing :
    (∀ pool, ClassPool.Derived pool → ClassPool.load pool.save = .ok pool) ∧
      (∀ set : FingerprintSet, FingerprintSet.load set.save = .ok set) ∧
        ∀ table : ResourceTable, ResourceTable.load table.save = .ok table := by
  refine ⟨fun pool derived => ?_, FingerprintSet.load_save, ResourceTable.load_save⟩
  obtain ⟨distinct, readable, word⟩ := derived.storable
  exact (ClassPool.load_save_iff distinct readable).mpr word

/-- A method with a branch to its end is added to a class that was loaded without any. -/
theorem saving_loses_nothing_added :
    let text := "\x7b\"classes\": [\x7b\"descriptor\": \"La;\", " ++
      "\"access_flags\": \"PUBLIC | 0x80000000\"\x7d]\x7d"
    let blueprint : Blueprint :=
      ⟨"b", "V", ["I"], .publicFlag, some 2,
        some "if-eqz p1, :end\nconst-string v0, \"\u2028\x01\"\n:end"⟩
    let method : Method := ⟨"La;", "b", ["I"], "V", .publicFlag, 2,
      [⟨.ifEqz, [1], none, none, some 2, none⟩,
        ⟨.constString, [0], none, some (.string "\u2028\x01"), none, none⟩]⟩
    let pool : ClassPool := ⟨[⟨"La;", none, ⟨0x80000001⟩, none, []⟩]⟩
    let next : ClassPool := ⟨[⟨"La;", none, ⟨0x80000001⟩, none, [method]⟩]⟩
    ClassPool.load text = .ok pool ∧ blueprint.build "La;" = .ok method ∧
      pool.addMethod 0 method = .ok (⟨0, 0⟩, next) ∧ ClassPool.load next.save = .ok next := by
  intro text blueprint method pool next
  have hload : ClassPool.load text = .ok pool := by decide +kernel
  have hbuild : blueprint.build "La;" = .ok method := by decide +kernel
  have hadd : pool.addMethod 0 method = .ok (⟨0, 0⟩, next) := by decide +kernel
  have fits : ¬ ClassPool.Overflows pool next := by
    have short : ∀ cls ∈ next.classes, ∀ method ∈ cls.methods,
        method.body.length < UInt64.size := by decide +kernel
    have none_before : ∀ cls ∈ pool.classes, ∀ method ∈ cls.methods, False := by decide +kernel
    rintro (⟨found, -, -⟩ | ⟨becomes, long⟩)
    · exact ClassPool.forall_method?_iff.mp none_before _ _ found
    · exact absurd long (Nat.not_le_of_lt (ClassPool.forall_method?_iff.mp short _ _ becomes))
  exact ⟨hload, hbuild, hadd,
    saving_loses_nothing.1 next (.step (.loaded hload) (.added hbuild hadd) fits)⟩

end DexGraft
