import DexGraft.Proofs.Edit.Marks
import DexGraft.Proofs.Patch.Inject

/-!
# Branches inside their bodies

Methods are edited by index, by text, through the marks of editors and at hook points, in any order,
and many of the edits are refused.  The main statement is that a method whose branches all lead to an
instruction of its body or to the end of it stays one, that its listing has the label of every branch
in front of what the branch leads to, and that a call which is refused changes no method.
-/

namespace DexGraft

open Editing Listing Outcome

namespace Smali

/-- A branch of a text without external labels leads to an instruction of the text, or right behind
the last of them. -/
theorem target_le_of_assembleAt {text : String} {method : Method} {base : Nat}
    {items : List Instruction} (h : assembleAt text method base [] = .ok items)
    {item : Instruction} (hmem : item ∈ items) {target : Nat} (htarget : item.target = some target) :
    target ≤ base + items.length := by
  rcases target_of_assembleAt h hmem htarget with
    ⟨label, hlabel, -⟩ | ⟨lines, before, number, name, after, -, rfl, hcount, rfl⟩
  · cases hlabel
  · rw [hcount, List.countP_append]
    omega

end Smali

namespace Method

/-! ## One method -/

/-- What can be asked for a method. -/
inductive Edit where
  | insertText (index : Nat) (text : String)
  | insertOne (index : Nat) (text : String)
  | insertLabelled (index : Nat) (text : String) (labels : List ExternalLabel)
  | replaceText (index : Nat) (text : String)
  | remove (index count : Nat)
  /-- One request to an editor of the method, whatever its number is and wherever its marks stand. -/
  | ask (number : Nat) (marks : List Nat) (request : Editor.Request)
deriving DecidableEq, Repr

/-- Makes the edit in place.  An editor is asked while it has the method, and gives it back. -/
def editM : Edit → Editing Method Unit
  | .insertText index text => insertTextM index text
  | .insertOne index text => insertOneM index text
  | .insertLabelled index text labels => insertLabelledM index text labels
  | .replaceText index text => replaceTextM index text
  | .remove index count => removeM index count
  | .ask number marks request =>
    zoom (fun method => .ok ⟨number, method, marks⟩) (fun editor _ => editor.method)
      ((fun _ => ()) <$> Editor.serve request)

/-- The method that a granted edit makes. -/
def edit (method : Method) (change : Edit) : Except Error Method := (editM change).result method

/-- An edit that is refused leaves the method as it was. -/
theorem editM_atomic (change : Edit) : (editM change).Atomic := by
  cases change with
  | insertText index text => exact atomic_of_comesTo (insertTextM_comesTo index text)
  | insertOne index text => exact atomic_of_comesTo (insertOneM_comesTo index text)
  | insertLabelled index text labels =>
      exact atomic_of_comesTo (insertLabelledM_comesTo index text labels)
  | replaceText index text => exact atomic_of_comesTo (replaceTextM_comesTo index text)
  | remove index count => exact atomic_of_comesTo (removeM_comesTo index count)
  | ask number marks request =>
      rw [editM]
      refine atomic_of_comesTo fun method => ((Editor.serve_atomic request).map _).zoom ?_
      rintro editor ⟨⟩
      rfl

/-- All that a granted edit can do to a method: one splice, or one instruction in the place of another,
or nothing.  What is put in was assembled, and leads to instructions of the new body or to its end. -/
inductive Changes (method : Method) : Method → Prop
  | splice {splice : Splice} {next : Method} (applied : splice.apply method = .ok next)
      (aims : splice.Aims next.body.length)
      (assembled : ∀ item ∈ splice.items, Assembled item) : Changes method next
  | replace {index : Nat} {item : Instruction} (assembled : Assembled item)
      (aims : ∀ target, item.target = some target → target ≤ method.body.length) :
      Changes method { method with body := method.body.set index item }
  | keep : Changes method method

variable {method next : Method} {index : Nat} {text : String}

theorem assembleAt_of_assembleOne {item : Instruction}
    (h : method.assembleOne index text = .ok item) :
    Smali.assembleAt text method index [] = .ok [item] := by
  obtain ⟨items, hitems, h⟩ := bind_eq_ok_iff.mp h
  split at h
  · cases h
    exact hitems
  · cases h

theorem target_le_of_assembleOne {item : Instruction}
    (h : method.assembleOne index text = .ok item) {target : Nat}
    (htarget : item.target = some target) : target ≤ index + 1 :=
  Smali.target_le_of_assembleAt (assembleAt_of_assembleOne h) List.mem_cons_self htarget

theorem assembled_of_assembleOne {item : Instruction}
    (h : method.assembleOne index text = .ok item) : Assembled item :=
  Smali.assembled_of_mem (assembleAt_of_assembleOne h) List.mem_cons_self

theorem changes_of_insertLabelled (labels : List ExternalLabel)
    (h : method.insertLabelled index text labels = .ok next) : Changes method next := by
  obtain ⟨items, hitems, applied, aims⟩ := exists_of_insertLabelled h
  exact .splice applied aims fun item => Smali.assembled_of_mem hitems

theorem changes_of_insertOne (h : method.insertOne index text = .ok next) :
    Changes method next := by
  rw [insertOne_eq] at h
  obtain ⟨item, hitem, hinsert⟩ := bind_eq_ok_iff.mp h
  have applied : (Splice.insert index [item]).apply method = .ok next := hinsert
  have fits : index ≤ method.body.length := (Splice.apply_eq_ok_iff.mp applied).1
  have hlength : next.body.length = method.body.length + 1 := Splice.length_of_apply applied
  refine .splice applied (fun other hmem target htarget => ?_) fun other hmem => ?_
  · rw [List.mem_singleton.mp hmem] at htarget
    have hle := target_le_of_assembleOne hitem htarget
    omega
  · rw [List.mem_singleton.mp hmem]
    exact assembled_of_assembleOne hitem

theorem changes_of_remove {count : Nat} (h : method.remove index count = .ok next) :
    Changes method next := by
  have applied : (Splice.remove index count).apply method = .ok next := h
  exact .splice applied (List.forall_mem_nil _) (List.forall_mem_nil _)

/-- What replaces an instruction is assembled for the index of the instruction, which is in front of
the end. -/
theorem changes_of_replaceText (h : method.replaceText index text = .ok next) :
    Changes method next := by
  rw [replaceText_eq] at h
  obtain ⟨old, hold, h⟩ := bind_eq_ok_iff.mp h
  obtain ⟨item, hitem, h⟩ := bind_eq_ok_iff.mp h
  rw [replace_eq] at h
  split at h
  · rename_i hlt
    cases h
    exact .replace (assembled_of_assembleOne hitem) fun target htarget =>
      (target_le_of_assembleOne hitem htarget).trans hlt
  · cases h

theorem changes_of_run {changes : List Splice} (run : Splice.Run method changes next)
    (hcount : changes.length ≤ 1)
    (assembled : ∀ splice ∈ changes, ∀ item ∈ splice.items, Assembled item) :
    Changes method next := by
  cases run with
  | done => exact .keep
  | step applied aims run =>
      cases run with
      | done => exact .splice applied aims (assembled _ List.mem_cons_self)
      | step => exact absurd hcount (by simp)

/-- A request makes one change at most, and what it puts in was assembled. -/
theorem exists_of_change (editor : Editor) (request : Editor.Request) :
    (editor.change request).length ≤ 1 ∧
      ∀ splice ∈ editor.change request, ∀ item ∈ splice.items, Assembled item := by
  have hinsertion (index : Nat) (text : String) (labels : List ExternalLabel) :
      (editor.insertion index text labels).length ≤ 1 ∧
        ∀ splice ∈ editor.insertion index text labels, ∀ item ∈ splice.items, Assembled item := by
    rw [Editor.insertion]
    split
    · rename_i items hitems
      refine ⟨le_rfl, fun splice hmem item => ?_⟩
      rw [List.mem_singleton.mp hmem]
      exact Smali.assembled_of_mem hitems
    · exact ⟨Nat.zero_le 1, List.forall_mem_nil _⟩
  have hnothing : ([] : List Splice).length ≤ 1 ∧
      ∀ splice ∈ ([] : List Splice), ∀ item ∈ splice.items, Assembled item :=
    ⟨Nat.zero_le 1, List.forall_mem_nil _⟩
  cases request with
  | mark index => exact hnothing
  | insert index text => exact hinsertion index text []
  | insertAt mark text =>
      rw [Editor.change]
      split
      · exact hinsertion _ text []
      · exact hnothing
  | insertAfter mark text =>
      rw [Editor.change]
      split
      · exact hinsertion _ text []
      · exact hnothing
  | insertLabelled index text labels => exact hinsertion index text labels
  | remove index =>
      refine ⟨le_rfl, fun splice hmem => ?_⟩
      rw [List.mem_singleton.mp hmem]
      exact List.forall_mem_nil _

/-- A request that is granted changes the method of the editor. -/
theorem changes_of_serve {editor next : Editor} {request : Editor.Request} {answer : Editor.Answer}
    (h : (Editor.serve request).run.run editor = (.ok answer, next)) :
    Changes editor.method next.method := by
  have follows := Editor.follows_serve editor request
  rw [Editor.Follows, h] at follows
  obtain ⟨hcount, assembled⟩ := exists_of_change editor request
  exact changes_of_run follows.run hcount assembled

theorem changes_of_edit {change : Edit} (h : method.edit change = .ok next) :
    Changes method next := by
  cases change with
  | insertText index text => exact changes_of_insertLabelled [] h
  | insertOne index text => exact changes_of_insertOne h
  | insertLabelled index text labels => exact changes_of_insertLabelled labels h
  | replaceText index text => exact changes_of_replaceText h
  | remove index count => exact changes_of_remove h
  | ask number marks request =>
      rw [edit, result_eq_ok_iff, editM, run_zoom_eq_ok_iff] at h
      obtain ⟨_, editor, ⟨⟩, hserve, rfl⟩ := h
      obtain ⟨answer, hserve, -⟩ := run_map_eq_ok_iff.mp hserve
      exact changes_of_serve hserve

/-- An edit that is granted keeps every branch inside the body. -/
theorem Changes.targetsBounded (h : Changes method next) (bounded : method.TargetsBounded) :
    next.TargetsBounded := by
  cases h with
  | splice applied aims assembled => exact Splice.apply_targetsBounded applied aims bounded
  | replace assembled aims =>
      intro instruction hmem target htarget
      rw [List.length_set]
      rcases List.mem_or_eq_of_mem_set hmem with hmem | rfl
      · exact bounded instruction hmem target htarget
      · exact aims target htarget
  | keep => exact bounded

/-! ## Listings -/

/-- What a listing has from the instruction with the index on, without the label in front of it. -/
def listingBehind (method : Method) (index : Nat) : List Instruction → String
  | [] => ""
  | instruction :: rest => bodyLine instruction.text ++ method.bodyListing (index + 1) rest

/-- The label of the target stands in the listing, right in front of the instruction that it leads to
and all that is behind, or at the end of the body. -/
def PrintsLabel (method : Method) (target : Nat) : Prop :=
  ∃ front, method.bodyListing 0 method.body =
    front ++ (bodyLine (Instruction.labelText target) ++
      method.listingBehind target (method.body.drop target))

theorem bodyListing_eq (method : Method) (index : Nat) (items : List Instruction) :
    method.bodyListing index items = method.labelLine index ++ method.listingBehind index items := by
  cases items with
  | nil => rw [bodyListing, listingBehind, String.append_empty]
  | cons item items => rw [bodyListing, listingBehind, String.append_assoc]

/-- The listing of a body ends with that of its last instructions. -/
theorem exists_bodyListing_drop (method : Method) (index count : Nat) {items : List Instruction}
    (h : count ≤ items.length) :
    ∃ front, method.bodyListing index items =
      front ++ method.bodyListing (index + count) (items.drop count) := by
  induction count generalizing index items with
  | zero => exact ⟨"", (String.empty_append).symm⟩
  | succ count ih =>
      cases items with
      | nil => exact absurd h (Nat.not_succ_le_zero count)
      | cons item items =>
          obtain ⟨front, hfront⟩ := ih (index + 1) (Nat.le_of_succ_le_succ h)
          refine ⟨method.labelLine index ++ bodyLine item.text ++ front, ?_⟩
          rw [bodyListing, hfront, List.drop_succ_cons, Nat.add_assoc, Nat.add_comm 1 count]
          simp only [String.append_assoc]

/-- A listing of a method whose branches stay inside has all the labels that its branches name. -/
theorem TargetsBounded.printsLabel (bounded : method.TargetsBounded) {target : Nat}
    (h : target ∈ method.targets) : method.PrintsLabel target := by
  obtain ⟨instruction, hmem, htarget⟩ := List.mem_filterMap.mp h
  obtain ⟨front, hfront⟩ :=
    exists_bodyListing_drop method 0 target (bounded instruction hmem target htarget)
  refine ⟨front, ?_⟩
  rw [hfront, bodyListing_eq, labelLine, Nat.zero_add, if_pos h]

end Method

/-! ## Calls -/

/-- Methods, and hook points in them. -/
structure Session where
  pool : ClassPool
  hooks : HookRegistry := {}

namespace Session

/-- What can be asked in a session. -/
inductive Call where
  | edit (id : MethodId) (change : Method.Edit)
  /-- Registers any point under the name, in place of any other with it. -/
  | register (name : String) (point : HookPoint)
  | inject (name descriptor : String)
deriving DecidableEq, Repr

/-- What the call answers, and what becomes of the session. -/
def make (session : Session) : Call → Except Error Unit × Session
  | .edit id change =>
    let (answer, pool) := (ClassPool.editMethod id (Method.editM change)).run.run session.pool
    (answer, { session with pool })
  | .register name point => (.ok (), { session with hooks := session.hooks.register name point })
  | .inject name descriptor =>
    let (answer, hooks, pool) := session.hooks.inject session.pool name descriptor
    (answer.map fun _ => (), ⟨pool, hooks⟩)

def makeAll (session : Session) (calls : List Call) : Session :=
  calls.foldl (fun session call => (session.make call).2) session

/-- All that a call can do to the methods. -/
inductive Makes (session : Session) : Except Error Unit → ClassPool → Prop
  | refused (e : Error) : Makes session (.error e) session.pool
  | kept : Makes session (.ok ()) session.pool
  | edited {id : MethodId} {method next : Method} (found : session.pool.method? id = some method)
      (changes : method.Changes next) : Makes session (.ok ()) (session.pool.setMethod id next)

/-- Adding a call at a hook point puts one instruction into one method, if it succeeds. -/
theorem changes_of_inject {hooks hooks' : HookRegistry} {pool next : ClassPool}
    {name descriptor : String} {index : Nat}
    (h : hooks.inject pool name descriptor = (.ok index, hooks', next)) :
    ∃ id method changed, pool.method? id = some method ∧ method.Changes changed ∧
      next = pool.setMethod id changed := by
  rw [HookRegistry.inject_eq] at h
  split at h
  · cases h
  rename_i target method located hplaced
  obtain ⟨point, -, hmethod, hlocate⟩ := HookRegistry.of_place hplaced
  split at h
  · cases h
  rename_i changed hinsert
  cases h
  refine ⟨located.method, method, changed, ?_, Method.changes_of_insertOne hinsert, rfl⟩
  rw [(HookPoint.of_locate hlocate).1.method]
  exact ClassPool.method?_of_method hmethod

/-- Every call changes one method or none. -/
theorem makes_make (session : Session) (call : Call) :
    Makes session (session.make call).1 (session.make call).2.pool := by
  cases call with
  | edit id change =>
      have hedit := ClassPool.editMethod_comesTo (Method.editM_atomic change) id session.pool
      rw [make, hedit]
      cases hmethod : session.pool.method id with
      | error e => exact .refused e
      | ok method =>
          rw [ok_bind]
          cases hchange : (Method.editM change).result method with
          | error e => exact .refused e
          | ok next =>
              exact .edited (ClassPool.method?_of_method hmethod) (Method.changes_of_edit hchange)
  | register name point => exact .kept
  | inject name descriptor =>
      rw [make]
      have injects := session.hooks.injects_inject session.pool name descriptor
      rcases hinject : session.hooks.inject session.pool name descriptor with ⟨answer, hooks, pool⟩
      rw [hinject] at injects
      cases injects with
      | refused e => exact .refused e
      | kept e => exact .refused e
      | added found parsed body locates inserted =>
          obtain ⟨id, method, changed, hmethod, changes, heq⟩ := changes_of_inject hinject
          rw [heq]
          exact .edited hmethod changes

variable {session : Session} {answer : Except Error Unit} {pool : ClassPool}

theorem Makes.pool_eq {e : Error} (h : Makes session (.error e) pool) : pool = session.pool := by
  cases h
  rfl

/-- A method is after a call what it was, or one whose branches stay inside if its own did. -/
theorem Makes.exists_targetsBounded (h : Makes session answer pool) {id : MethodId}
    {method : Method} (hmethod : session.pool.method? id = some method)
    (bounded : method.TargetsBounded) :
    ∃ next, pool.method? id = some next ∧ next.TargetsBounded := by
  cases h with
  | refused e => exact ⟨method, hmethod, bounded⟩
  | kept => exact ⟨method, hmethod, bounded⟩
  | @edited other old next found changes =>
      by_cases hid : id = other
      · subst hid
        cases hmethod.symm.trans found
        exact ⟨next, ClassPool.method?_setMethod found next, changes.targetsBounded bounded⟩
      · exact ⟨method, (ClassPool.method?_setMethod_of_ne hid _ next).trans hmethod, bounded⟩

/-- Calls keep branches inside the body that they are in. -/
theorem exists_targetsBounded_makeAll (calls : List Call) {session : Session} {id : MethodId}
    {method : Method} (h : session.pool.method? id = some method)
    (bounded : method.TargetsBounded) :
    ∃ now, (session.makeAll calls).pool.method? id = some now ∧ now.TargetsBounded := by
  -- a call leaves another method under the same id, so the method is general as well
  induction calls generalizing session method with
  | nil => exact ⟨method, h, bounded⟩
  | cons call calls ih =>
      obtain ⟨next, hnext, bounded'⟩ := (makes_make session call).exists_targetsBounded h bounded
      exact ih hnext bounded'

/-- However many calls have been made, granted or refused: a method whose branches all led inside its
body or to the end of it still is such a method, and its listing has the label of every branch in front
of what the branch leads to.  A call that is then refused leaves every method as it is. -/
theorem makeAll_keeps_branches {session : Session} {id : MethodId} {method : Method}
    (h : session.pool.method? id = some method) (bounded : method.TargetsBounded)
    (calls : List Call) :
    (∃ now, (session.makeAll calls).pool.method? id = some now ∧ now.TargetsBounded ∧
      ∀ target ∈ now.targets, now.PrintsLabel target) ∧
    ∀ call e, ((session.makeAll calls).make call).1 = .error e →
      ((session.makeAll calls).make call).2.pool = (session.makeAll calls).pool := by
  obtain ⟨now, hnow, bounded'⟩ := exists_targetsBounded_makeAll calls h bounded
  refine ⟨⟨now, hnow, bounded', fun target => bounded'.printsLabel⟩, fun call e herror => ?_⟩
  have makes := makes_make (session.makeAll calls) call
  rw [herror] at makes
  exact makes.pool_eq

/-- A branch over one instruction, a text that is put in front of what it leads to, a replacement that
is refused since its text has two instructions, and a hook point that was never registered. -/
theorem makeAll_keeps_branches_branchOver :
    let session : Session := { pool := ⟨[⟨"La;", none, .empty, none, [Splice.branchOver]⟩]⟩ }
    let calls : List Call := [.edit ⟨0, 0⟩ (.insertText 1 "goto :end\n:end"),
      .edit ⟨0, 0⟩ (.replaceText 0 "nop\nnop"), .inject "entry" "Lb;->c()V"]
    session.pool.method? ⟨0, 0⟩ = some Splice.branchOver ∧ Splice.branchOver.TargetsBounded ∧
    ∃ now, (session.makeAll calls).pool.method? ⟨0, 0⟩ = some now ∧
      now.targets = [2, 2] ∧ now.TargetsBounded ∧ now.PrintsLabel 2 := by
  intro session calls
  have bounded : Splice.branchOver.TargetsBounded := by
    simp [Method.TargetsBounded, Splice.branchOver]
  have hfound : session.pool.method? ⟨0, 0⟩ = some Splice.branchOver := rfl
  obtain ⟨⟨now, hnow, bounded', hlabels⟩, -⟩ := makeAll_keeps_branches hfound bounded calls
  have htargets : ((session.makeAll calls).pool.method? ⟨0, 0⟩).map Method.targets = some [2, 2] := by
    decide +kernel
  rw [hnow] at htargets
  have heq : now.targets = [2, 2] := Option.some.inj htargets
  refine ⟨hfound, bounded, now, hnow, heq, bounded', hlabels 2 ?_⟩
  rw [heq]
  exact List.mem_cons_self

end Session

end DexGraft
