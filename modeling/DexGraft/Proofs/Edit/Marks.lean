import DexGraft.Edit.Editor
import DexGraft.Proofs.Edit.Insertion

/-!
# Marks

Any number of editors are made, and each is asked for marks, insertions and removals, in any order.
Next to the run there is a log of the changes that an editor has made to the body of its method.  The
main statement is that a mark stands where a branch to the marked index has been moved to by then, and
that no editor but the one that gave it out knows it, since each has drawn a number of its own.  The
numbers are counted without a bound; a counter of 64 bits gives the same ones until it has gone round.
-/

namespace DexGraft

open Editing Outcome

/-- Taking one instruction out moves what is behind it, and nothing else. -/
theorem Target.afterRemove_one (index : Nat) :
    Target.afterRemove index 1 = fun place => if index < place then place - 1 else place := by
  funext place
  rw [afterRemove]
  split <;> split <;> omega

namespace Editor

/-! ## Requests -/

/-- What can be asked of an editor. -/
inductive Request where
  | mark (index : Nat)
  | insert (index : Nat) (text : String)
  | insertAt (mark : Mark) (text : String)
  | insertAfter (mark : Mark) (text : String)
  | insertLabelled (index : Nat) (text : String) (labels : List ExternalLabel)
  | remove (index : Nat)
deriving DecidableEq, Repr

inductive Answer where
  | marked (mark : Mark)
  | inserted (count : Nat)
  | removed
deriving DecidableEq, Repr

/-- What an editor answers to a request, and what the request makes of it. -/
def serve : Request → Editing Editor Answer
  | .mark index => .marked <$> markM index
  | .insert index text => .inserted <$> insertM index text
  | .insertAt mark text => .inserted <$> insertAtM mark text
  | .insertAfter mark text => .inserted <$> insertAfterM mark text
  | .insertLabelled index text labels => .inserted <$> insertLabelledM index text labels
  | .remove index => (fun _ => .removed) <$> removeM index

/-- The change of the body that puts the instructions of a text in. -/
def insertion (editor : Editor) (index : Nat) (text : String) (labels : List ExternalLabel) :
    List Splice :=
  match Smali.assembleAt text editor.method index labels with
  | .ok items => [.insert index items]
  | .error _ => []

/-- The change of the body that a request makes if it is granted. -/
def change (editor : Editor) : Request → List Splice
  | .mark _ => []
  | .insert index text => editor.insertion index text []
  | .insertAt mark text =>
    match editor.position mark with
    | .ok index => editor.insertion index text []
    | .error _ => []
  | .insertAfter mark text =>
    match editor.position mark with
    | .ok index => editor.insertion (index + 1) text []
    | .error _ => []
  | .insertLabelled index text labels => editor.insertion index text labels
  | .remove index => [.remove index 1]

/-- What a request changes in the body, which is nothing if it is refused. -/
def changes (editor : Editor) (request : Request) : List Splice :=
  match (serve request).granted editor with
  | .ok _ => editor.change request
  | .error _ => []

/-! ## One editor -/

/-- The editor has made the changes, and its marks have been moved as branches are. -/
structure Edited (editor : Editor) (changes : List Splice) (next : Editor) : Prop where
  number : next.id = editor.id
  run : Splice.Run editor.method changes next.method
  marks : editor.marks.map (Splice.moveAll changes) <+: next.marks

variable {editor middle next : Editor} {changes others : List Splice}

theorem Edited.refl (editor : Editor) : Edited editor [] editor where
  number := rfl
  run := .done _
  marks := by
    have hmarks : editor.marks.map (Splice.moveAll []) = editor.marks := List.map_id editor.marks
    exact ⟨[], by rw [List.append_nil, hmarks]⟩

theorem Edited.trans (h : Edited editor changes middle) (h' : Edited middle others next) :
    Edited editor (changes ++ others) next where
  number := h'.number.trans h.number
  run := h.run.append h'.run
  marks := by
    have hmove : Splice.moveAll (changes ++ others) =
        Splice.moveAll others ∘ Splice.moveAll changes := by
      funext target
      exact Splice.moveAll_append changes others target
    rw [hmove, ← List.map_map]
    exact (h.marks.map (Splice.moveAll others)).trans h'.marks

/-- The edit makes the changes of the body and moves the marks along, or it fails and leaves the editor
as it was. -/
def Follows {α : Type} (edit : Editing Editor α) (editor : Editor) (changes : List Splice) : Prop :=
  match edit.run.run editor with
  | (.ok _, next) => Edited editor changes next
  | (.error _, left) => left = editor

section Edits

variable {α β : Type} {edit : Editing Editor α} {outcome : Except Error (α × Editor)}

theorem follows_of_comesTo (h : edit.ComesTo editor outcome)
    (hedited : ∀ a next, outcome = .ok (a, next) → Edited editor changes next) :
    Follows edit editor changes := by
  rw [Follows, h]
  rcases outcome with _ | ⟨a, next⟩
  · rfl
  · exact hedited a next rfl

theorem Follows.map (f : α → β) (h : Follows edit editor changes) :
    Follows (f <$> edit) editor changes := by
  rw [Follows] at h ⊢
  rw [run_map]
  rcases hrun : edit.run.run editor with ⟨_ | a, next⟩ <;> rw [hrun] at h <;> exact h

theorem Follows.look_bind {part : Editor → Except Error β} {next : β → Editing Editor α} {b : β}
    (hpart : part editor = .ok b) (h : Follows (next b) editor changes) :
    Follows (look part >>= next) editor changes := by
  rwa [Follows, run_bind, run_look, hpart]

theorem follows_of_error {part : Editor → Except Error β} {next : β → Editing Editor α} {e : Error}
    (hpart : part editor = .error e) : Follows (look part >>= next) editor changes := by
  rw [Follows, run_bind, run_look, hpart]

/-- What is done after an edit of the method cannot fail, so the edit has checked for both. -/
theorem editMethod_bind_comesTo {edit : Editing Method Unit} {next : Editing Editor α}
    {made : Method → α × Editor} (h : edit.Atomic) (editor : Editor)
    (hnext : ∀ method, next.ComesTo { editor with method } (.ok (made method))) :
    (editMethod edit >>= fun _ => next).ComesTo editor
      ((edit.result editor.method).map made) := by
  have hzoom : (editMethod edit).ComesTo editor _ := h.zoom (by rintro _ ⟨⟩; rfl)
  rw [ok_bind] at hzoom
  refine (run_bind ..).trans ?_
  rw [hzoom, result]
  cases edit.granted editor.method with
  | error e => rfl
  | ok granted => exact hnext granted.2

end Edits

theorem follows_markM (editor : Editor) (index : Nat) : Follows (markM index) editor [] := by
  have hmarks : editor.marks.map (Splice.moveAll []) = editor.marks := List.map_id editor.marks
  rw [Follows, markM, run_get_bind]
  by_cases hindex : editor.method.body.length < index
  · rw [if_pos hindex]
    exact rfl
  · rw [if_neg hindex]
    refine ⟨rfl, .done _, ?_⟩
    rw [hmarks]
    exact List.prefix_append _ _

theorem insertLabelledM_comesTo (editor : Editor) (index : Nat) (text : String)
    (labels : List ExternalLabel) : (insertLabelledM index text labels).ComesTo editor
      ((editor.method.insertLabelled index text labels).map fun method =>
        let added := method.body.length - editor.method.body.length
        let marks := editor.marks.map fun place => if index ≤ place then place + added else place
        (added, { editor with method, marks })) := by
  refine .get_bind ?_
  rw [Method.insertLabelled]
  exact editMethod_bind_comesTo
    (atomic_of_comesTo (Method.insertLabelledM_comesTo index text labels)) editor fun _ => rfl

theorem removeM_comesTo (editor : Editor) (index : Nat) : (removeM index).ComesTo editor
      ((editor.method.remove index 1).map fun method =>
        let marks := editor.marks.map fun place => if index < place then place - 1 else place
        ((), { editor with method, marks })) := by
  rw [Method.remove]
  exact editMethod_bind_comesTo (atomic_of_comesTo (Method.removeM_comesTo index 1)) editor
    fun _ => rfl

theorem follows_insertLabelledM (editor : Editor) (index : Nat) (text : String)
    (labels : List ExternalLabel) :
    Follows (insertLabelledM index text labels) editor (editor.insertion index text labels) := by
  refine follows_of_comesTo (insertLabelledM_comesTo editor index text labels) fun count next h => ?_
  obtain ⟨method, hmethod, h⟩ := map_eq_ok_iff.mp h
  obtain ⟨items, hitems, applied, aims⟩ := Method.exists_of_insertLabelled hmethod
  have hlength : method.body.length = editor.method.body.length + items.length :=
    Splice.length_of_apply applied
  have hmove : Splice.moveAll [.insert index items] =
      fun place => if index ≤ place then place + items.length else place := rfl
  cases h
  rw [insertion, hitems]
  refine ⟨rfl, .step applied aims (.done _), [], ?_⟩
  -- the number of instructions that the editor counts is that of those which were put in
  rw [List.append_nil, hmove, hlength, Nat.add_sub_cancel_left]

theorem follows_removeM (editor : Editor) (index : Nat) :
    Follows (removeM index) editor [.remove index 1] := by
  refine follows_of_comesTo (removeM_comesTo editor index) fun _ next h => ?_
  obtain ⟨method, hmethod, h⟩ := map_eq_ok_iff.mp h
  have applied : (Splice.remove index 1).apply editor.method = .ok method := hmethod
  have hmove : Splice.moveAll [.remove index 1] = Target.afterRemove index 1 := rfl
  cases h
  refine ⟨rfl, .step applied (List.forall_mem_nil _) (.done _), [], ?_⟩
  rw [List.append_nil, hmove, Target.afterRemove_one]

theorem follows_serve (editor : Editor) (request : Request) :
    Follows (serve request) editor (editor.change request) := by
  cases request with
  | mark index => exact (follows_markM editor index).map _
  | insert index text => exact (follows_insertLabelledM editor index text []).map _
  | insertAt mark text =>
      refine Follows.map _ ?_
      rw [change]
      cases hindex : editor.position mark with
      | error e => exact follows_of_error hindex
      | ok index => exact .look_bind hindex (follows_insertLabelledM editor index text [])
  | insertAfter mark text =>
      refine Follows.map _ ?_
      rw [change]
      cases hindex : editor.position mark with
      | error e => exact follows_of_error hindex
      | ok index => exact .look_bind hindex (follows_insertLabelledM editor (index + 1) text [])
  | insertLabelled index text labels =>
      exact (follows_insertLabelledM editor index text labels).map _
  | remove index => exact (follows_removeM editor index).map _

/-- Whatever a request comes to, it makes the changes that are logged for it. -/
theorem edited_serve (editor : Editor) (request : Request) :
    Edited editor (editor.changes request) ((serve request).run.run editor).2 := by
  have follows := follows_serve editor request
  rw [Follows] at follows
  rw [changes, granted]
  rcases hrun : (serve request).run.run editor with ⟨e | answer, next⟩
  · rw [hrun] at follows
    exact follows ▸ Edited.refl editor
  · rw [hrun] at follows
    exact follows

theorem serve_atomic (request : Request) : (serve request).Atomic := by
  intro editor e left hrun
  have follows := follows_serve editor request
  rwa [Follows, hrun] at follows

theorem position_eq_foreignMark {mark : Mark} (h : mark.editor ≠ editor.id) :
    editor.position mark = .error (.foreignMark mark.slot) := by
  rw [position]
  split
  · rw [if_neg h]
  · rfl

/-- What asks for the position of a mark is refused with the mark. -/
theorem refused_of_position {mark : Mark} {e : Error} (h : editor.position mark = .error e) :
    editor.registerAt mark = .error e ∧ ∀ text,
      (serve (.insertAt mark text)).run.run editor = (.error e, editor) ∧
        (serve (.insertAfter mark text)).run.run editor = (.error e, editor) := by
  refine ⟨by rw [registerAt, h]; rfl, fun text => ⟨?_, ?_⟩⟩
  · rw [serve, run_map, insertAtM, run_bind, run_look, h]
    rfl
  · rw [serve, run_map, insertAfterM, run_bind, run_look, h]
    rfl

theorem Edited.position_eq {slot index : Nat} (h : Edited editor changes next)
    (hslot : editor.marks[slot]? = some index) :
    next.position ⟨editor.id, slot⟩ = .ok (Splice.moveAll changes index) := by
  obtain ⟨later, hlater⟩ := h.marks
  have hmarks : next.marks[slot]? = some (Splice.moveAll changes index) := by
    have hmoved : (editor.marks.map (Splice.moveAll changes))[slot]? =
        some (Splice.moveAll changes index) := by
      rw [List.getElem?_map, hslot, Option.map_some]
    rw [← hlater, List.getElem?_append_left (List.getElem?_eq_some_iff.mp hmoved).1, hmoved]
  rw [position, hmarks]
  exact if_pos h.number.symm

/-- A branch that has not been taken out leads to where the changes take its target. -/
theorem Edited.exists_branch {source target : Nat} {branch : Instruction}
    (h : Edited editor changes next) (hbranch : editor.method.body[source]? = some branch)
    (htarget : branch.target = some target) (kept : Splice.KeepsAll changes source) :
    ∃ branch', next.method.body[Splice.moveAll changes source]? = some branch' ∧
      branch'.target = some (Splice.moveAll changes target) := by
  refine ⟨branch.retarget (Splice.moveAll changes), ?_, ?_⟩
  · rw [Splice.getElem?_moveAll h.run kept, hbranch, Option.map_some]
  · rw [Instruction.retarget, htarget, Option.map_some]

end Editor

/-! ## Several editors -/

/-- The editors that have been made, in order, and the number of the next one. -/
structure Bench where
  next : Nat
  editors : List Editor := []
deriving DecidableEq, Repr

namespace Bench

open Editor

inductive Call where
  | make (method : Method)
  | ask (which : Nat) (request : Request)
deriving DecidableEq, Repr

/-- What the editor that is asked answers, and what becomes of the editors; there is nothing to ask an
editor before it is made. -/
def serve (bench : Bench) : Call → Option (Except Error Answer) × Bench
  | .make method =>
    let (editor, next) := (Editor.new method).run bench.next
    (none, ⟨next, bench.editors ++ [editor]⟩)
  | .ask which request =>
    match bench.editors[which]? with
    | none => (none, bench)
    | some editor =>
      let (answer, left) := (Editor.serve request).run.run editor
      (some answer, { bench with editors := bench.editors.set which left })

def serveAll (bench : Bench) (calls : List Call) : Bench :=
  calls.foldl (fun bench call => (bench.serve call).2) bench

/-- What a call changes in the body of the method of one of the editors. -/
def changes (i : Nat) (bench : Bench) : Call → List Splice
  | .make _ => []
  | .ask which request =>
    match bench.editors[which]? with
    | none => []
    | some editor => if which = i then editor.changes request else []

/-- What calls change in the body of the method of one of the editors, the first change in front. -/
def log (i : Nat) (bench : Bench) : List Call → List Splice
  | [] => []
  | call :: calls => bench.changes i call ++ log i (bench.serve call).2 calls

/-! ### One call -/

variable {bench : Bench} {which i first : Nat} {editor : Editor} {request : Request}

theorem serve_make (bench : Bench) (method : Method) : bench.serve (.make method) =
    (none, ⟨bench.next + 1, bench.editors ++ [{ id := bench.next, method }]⟩) := rfl

theorem serve_ask (h : bench.editors[which]? = some editor) : bench.serve (.ask which request) =
    (some ((Editor.serve request).run.run editor).1, { bench with
      editors := bench.editors.set which ((Editor.serve request).run.run editor).2 }) := by
  rw [serve, h]
  rfl

theorem serve_ask_of_none (h : bench.editors[which]? = none) :
    bench.serve (.ask which request) = (none, bench) := by
  rw [serve, h]

/-- The editors have been numbered in the order in which they were made. -/
structure Numbered (first : Nat) (bench : Bench) : Prop where
  next : bench.next = first + bench.editors.length
  number : ∀ i editor, bench.editors[i]? = some editor → editor.id = first + i

theorem exists_edited_serve (call : Call) (h : bench.editors[i]? = some editor) :
    ∃ next, (bench.serve call).2.editors[i]? = some next ∧
      Edited editor (bench.changes i call) next := by
  cases call with
  | make method =>
      refine ⟨editor, ?_, .refl editor⟩
      rw [← h]
      exact List.getElem?_append_left (List.getElem?_eq_some_iff.mp h).1
  | ask which request =>
      rw [changes]
      cases hasked : bench.editors[which]? with
      | none =>
          rw [serve_ask_of_none hasked]
          exact ⟨editor, h, .refl editor⟩
      | some asked =>
          rw [serve_ask hasked]
          by_cases hi : which = i
          · subst hi
            cases hasked.symm.trans h
            dsimp only
            rw [if_pos rfl]
            exact ⟨_, List.getElem?_set_self (List.getElem?_eq_some_iff.mp h).1,
              edited_serve editor request⟩
          · dsimp only
            rw [if_neg hi]
            exact ⟨editor, (List.getElem?_set_ne hi).trans h, .refl editor⟩

theorem exists_edited_serveAll (calls : List Call) (h : bench.editors[i]? = some editor) :
    ∃ next, (bench.serveAll calls).editors[i]? = some next ∧
      Edited editor (bench.log i calls) next := by
  induction calls generalizing bench editor with
  | nil => exact ⟨editor, h, .refl editor⟩
  | cons call calls ih =>
      obtain ⟨middle, hmiddle, edited⟩ := exists_edited_serve call h
      obtain ⟨next, hnext, edited'⟩ := ih hmiddle
      exact ⟨next, hnext, edited.trans edited'⟩

/-- A new editor gets the next number, and no request changes the number of an editor. -/
theorem Numbered.serve (h : Numbered first bench) (call : Call) :
    Numbered first (bench.serve call).2 := by
  cases call with
  | make method =>
      refine ⟨?_, fun i editor hi => ?_⟩
      · rw [serve_make, List.length_append, List.length_singleton, h.next, Nat.add_assoc]
      · rw [serve_make, List.getElem?_append] at hi
        split at hi
        · exact h.number i editor hi
        · obtain ⟨hlast, rfl⟩ := List.getElem?_eq_some_iff.mp hi
          rw [List.length_singleton] at hlast
          rw [List.getElem_singleton]
          show bench.next = first + i
          rw [h.next]
          omega
  | ask which request =>
      cases hasked : bench.editors[which]? with
      | none => rwa [serve_ask_of_none hasked]
      | some asked =>
          rw [serve_ask hasked]
          refine ⟨?_, fun i editor hi => ?_⟩
          · rw [List.length_set]
            exact h.next
          · rw [List.getElem?_set] at hi
            split at hi
            · rename_i heq
              subst heq
              obtain ⟨-, ⟨⟩⟩ := Option.ite_none_right_eq_some.mp hi
              exact (edited_serve asked request).number.trans (h.number which asked hasked)
            · exact h.number i editor hi

theorem numbered_serveAll (first : Nat) (calls : List Call) :
    Numbered first (serveAll ⟨first, []⟩ calls) := by
  have run {bench : Bench} (h : Numbered first bench) :
      Numbered first (bench.serveAll calls) := by
    induction calls generalizing bench with
    | nil => exact h
    | cons call calls ih => exact ih (h.serve call)
  exact run ⟨rfl, nofun⟩

/-- No editor knows a mark of another one. -/
theorem Numbered.position_eq {j slot : Nat} {other : Editor} (h : Numbered first bench)
    (hj : j ≠ i) (hother : bench.editors[j]? = some other) :
    other.position ⟨first + i, slot⟩ = .error (.foreignMark slot) := by
  refine position_eq_foreignMark fun heq => hj ?_
  rw [h.number j other hother] at heq
  exact (Nat.add_left_cancel heq).symm

/-- A request that is refused leaves every editor as it was. -/
theorem serve_of_error {call : Call} {e : Error} (h : (bench.serve call).1 = some (.error e)) :
    (bench.serve call).2 = bench := by
  cases call with
  | make method => cases h
  | ask which request =>
      cases hasked : bench.editors[which]? with
      | none => rw [serve_ask_of_none hasked]
      | some asked =>
          rw [serve_ask hasked] at h ⊢
          rcases hrun : (Editor.serve request).run.run asked with ⟨outcome, left⟩
          rw [hrun] at h
          cases h
          obtain ⟨_, rfl⟩ := List.getElem?_eq_some_iff.mp hasked
          rw [serve_atomic request _ _ _ hrun, List.set_getElem_self]

/-- A mark is given out for any index up to the end of the body. -/
theorem serve_ask_mark {index : Nat} (h : bench.editors[i]? = some editor)
    (hindex : index ≤ editor.method.body.length) : bench.serve (.ask i (.mark index)) =
      (some (.ok (.marked ⟨editor.id, editor.marks.length⟩)), { bench with
        editors := bench.editors.set i { editor with marks := editor.marks ++ [index] } }) := by
  rw [serve_ask h, Editor.serve, run_map, markM, run_get_bind, if_neg (Nat.not_lt.mpr hindex)]
  rfl

theorem serveAll_append (bench : Bench) (calls others : List Call) :
    bench.serveAll (calls ++ others) = (bench.serveAll calls).serveAll others :=
  List.foldl_append

end Bench

namespace Editor

open Bench

/-! ## Marks -/

/-- Editors are made one by one, with numbers from any first one on, and are asked for this and that in
between.  An editor gives a mark out for any index up to the end of the body.  Whatever the editors are
asked before and after, and whatever editors are made, the mark then stands at a position of the body,
which is where the changes since then take the marked index: with the instruction that stood there, or
with the one behind it if it was taken out, or at the end.  That is where the branches lead to which led
to the marked index when the mark was made.  Any other editor refuses the mark, and a call that is
refused leaves every editor as it was. -/
theorem mark_follows_branches (first i index : Nat) (before after : List Call) :
    let opened := serveAll ⟨first, []⟩ before
    let marked := (opened.serve (.ask i (.mark index))).2
    let now := serveAll ⟨first, []⟩ (before ++ .ask i (.mark index) :: after)
    let changes := marked.log i after
    let place := Splice.moveAll changes index
    (∀ j editor, now.editors[j]? = some editor → editor.id = first + j) ∧
    (∀ call e, (now.serve call).1 = some (.error e) → (now.serve call).2 = now) ∧
    ∀ old, opened.editors[i]? = some old → index ≤ old.method.body.length →
      let mark : Mark := ⟨first + i, old.marks.length⟩
      (opened.serve (.ask i (.mark index))).1 = some (.ok (.marked mark)) ∧
      (∃ editor, now.editors[i]? = some editor ∧
        Splice.Run old.method changes editor.method ∧
        editor.position mark = .ok place ∧ place ≤ editor.method.body.length ∧
        (∀ position, Splice.CarriesAll changes old.method.body.length index position ↔
          position = place) ∧
        (∀ source branch, old.method.body[source]? = some branch →
          branch.target = some index → Splice.KeepsAll changes source →
            ∃ branch', editor.method.body[Splice.moveAll changes source]? = some branch' ∧
              branch'.target = some place) ∧
        (Splice.KeepsAll changes index → editor.method.body[place]? =
          old.method.body[index]?.map (.retarget (Splice.moveAll changes))) ∧
        (index = old.method.body.length → place = editor.method.body.length)) ∧
      ∀ j other, j ≠ i → now.editors[j]? = some other →
        other.position mark = .error (.foreignMark mark.slot) ∧
        other.registerAt mark = .error (.foreignMark mark.slot) ∧
        ∀ text,
          (now.serve (.ask j (.insertAt mark text))).1 = some (.error (.foreignMark mark.slot)) ∧
          (now.serve (.ask j (.insertAfter mark text))).1 =
            some (.error (.foreignMark mark.slot)) := by
  intro opened marked now changes place
  have hnow : now = marked.serveAll after := serveAll_append ⟨first, []⟩ before _
  have numbered : Numbered first now := numbered_serveAll first _
  refine ⟨numbered.number, fun call e h => serve_of_error h, fun old hold hindex => ?_⟩
  intro mark
  have hnumber : old.id = first + i := (numbered_serveAll first before).number i old hold
  have hask := serve_ask_mark hold hindex
  have hmarked : marked.editors[i]? = some { old with marks := old.marks ++ [index] } := by
    rw [show marked = _ from congrArg Prod.snd hask]
    exact List.getElem?_set_self (List.getElem?_eq_some_iff.mp hold).1
  obtain ⟨editor, heditor, edited⟩ := exists_edited_serveAll after hmarked
  have hrun : Splice.Run old.method changes editor.method := edited.run
  have hposition : editor.position mark = .ok place := by
    rw [show mark = ⟨old.id, old.marks.length⟩ by rw [hnumber]]
    exact edited.position_eq List.getElem?_concat_length
  refine ⟨by rw [hask, hnumber], ⟨editor, hnow ▸ heditor, hrun, hposition,
    Splice.moveAll_le hrun hindex, fun position => Splice.carriesAll_iff hrun hindex,
    fun source branch => edited.exists_branch, Splice.getElem?_moveAll hrun, ?_⟩, ?_⟩
  · rintro rfl
    exact Splice.moveAll_length hrun
  · intro j other hj hother
    have hforeign : other.position mark = .error (.foreignMark mark.slot) :=
      numbered.position_eq hj hother
    obtain ⟨hregister, hinserts⟩ := refused_of_position hforeign
    refine ⟨hforeign, hregister, fun text => ⟨?_, ?_⟩⟩
    · rw [serve_ask hother, (hinserts text).1]
    · rw [serve_ask hother, (hinserts text).2]

/-- A method with a branch. -/
def branching : Method :=
  ⟨"La;", "b", [], "V", .empty, 1,
    [⟨.ifEqz, [0], none, none, some 1, none⟩, { opcode := .nop }, { opcode := .returnVoid }]⟩

/-- A method with nothing but a return. -/
def returning : Method := ⟨"La;", "c", [], "V", .empty, 0, [{ opcode := .returnVoid }]⟩

/-- What is asked once the instruction that the branch leads to has been marked; a third editor is made
by then. -/
def branchingCalls : List Call :=
  [.ask 0 (.insert 0 "nop"), .make returning, .ask 1 (.remove 0), .ask 0 (.remove 2)]

/-- The marked instruction is moved by an insertion and then taken out: the mark stands on the return,
and so does the branch.  Neither the editor that was there nor the one that came later knows it. -/
theorem mark_follows_branches_branchAndReturn :
    let made := [.make branching, .make returning]
    let opened := serveAll ⟨5, []⟩ made
    let now := serveAll ⟨5, []⟩ (made ++ .ask 0 (.mark 1) :: branchingCalls)
    ∃ old first second third, opened.editors[0]? = some old ∧ 1 ≤ old.method.body.length ∧
      now.editors = [first, second, third] ∧
      first.position ⟨5, 0⟩ = .ok 2 ∧
      second.position ⟨5, 0⟩ = .error (.foreignMark 0) ∧
      third.position ⟨5, 0⟩ = .error (.foreignMark 0) ∧
      ∃ branch, first.method.body[1]? = some branch ∧ branch.target = some 2 := by
  intro made opened now
  have hopened : opened.editors[0]? = some { id := 5, method := branching } := rfl
  have hindex : 1 ≤ branching.body.length := by decide
  have hlog : (opened.serve (.ask 0 (.mark 1))).2.log 0 branchingCalls =
      [.insert 0 [{ opcode := .nop }], .remove 2 1] := by
    decide +kernel
  have hkept : Splice.KeepsAll [.insert 0 [{ opcode := .nop }], .remove 2 1] 0 := by
    refine ⟨nofun, ?_, trivial⟩
    rintro index count ⟨⟩
    exact .inl (by decide)
  obtain ⟨-, -, hmark⟩ := mark_follows_branches 5 0 1 made branchingCalls
  obtain ⟨-, ⟨_, hfirst, -, hposition, -, -, hbranches, -⟩, hforeign⟩ :=
    hmark _ hopened hindex
  rw [show _ = _ from hlog] at hposition hbranches
  have hlength : now.editors.length = 3 := by decide +kernel
  obtain ⟨first, second, third, heditors⟩ := List.length_eq_three.mp hlength
  obtain rfl : first = _ := Option.some.inj ((congrArg (·[0]?) heditors).symm.trans hfirst)
  have hsecond : now.editors[1]? = some second := by rw [heditors]; rfl
  have hthird : now.editors[2]? = some third := by rw [heditors]; rfl
  exact ⟨_, first, second, third, hopened, hindex, heditors, hposition,
    (hforeign 1 second nofun hsecond).1, (hforeign 2 third nofun hthird).1,
    hbranches 0 _ rfl rfl hkept⟩

end Editor

end DexGraft
