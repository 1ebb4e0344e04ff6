import DexGraft.Proofs.Code.Word
import DexGraft.Proofs.Edit.Insertion
import DexGraft.Proofs.Smali.Content

/-!
# Insertions joined

Two texts that are put in at one index, the one that is to stand behind first, make the body that
one text of both makes.  In one case the labels of each text are counted from the index, and those
of the text behind move when the other one is put in; in the other they are counted behind the
instructions of the text in front from the start.
-/

namespace DexGraft

open Smali Outcome

/-- A target moves by the lengths of what is put in at one index. -/
@[simp] theorem Target.afterInsert_afterInsert (index front back target : Nat) :
    Target.afterInsert index front (Target.afterInsert index back target) =
      Target.afterInsert index (front + back) target := by
  by_cases h : index ≤ target
  · rw [Target.afterInsert, Target.afterInsert, Target.afterInsert, if_pos h, if_pos h,
      if_pos (Nat.le_add_right_of_le h), Nat.add_assoc, Nat.add_comm back]
  · rw [Target.afterInsert, Target.afterInsert, Target.afterInsert, if_neg h, if_neg h, if_neg h]

theorem Target.afterInsert_add (index count offset : Nat) :
    Target.afterInsert index count (index + offset) = index + count + offset := by
  rw [Target.afterInsert, if_pos (Nat.le_add_right index offset), Nat.add_right_comm]

namespace Smali

/-! ## Names that stand for other instructions -/

theorem Reads.retarget {labels labels' : Labels} {trailing : Trailing} {rest : List (List Char)}
    {literal : Option Int64} {reference : Option Reference} {target : Option Nat}
    {prototype : Option String} (h : Reads labels trailing rest literal reference target prototype)
    {move : Nat → Nat} (hlabels : ∀ name place, labels.lookup name = some place →
      labels'.lookup name = some (move place)) :
    Reads labels' trailing rest literal reference (target.map move) prototype := by
  have label : ∀ {text place}, readLabel labels text = .ok place →
      readLabel labels' text = .ok (move place) := by
    intro text place hread
    obtain ⟨name, htext, hlookup⟩ := readLabel_eq_ok_iff.mp hread
    exact readLabel_eq_ok_iff.mpr ⟨name, htext, hlabels name place hlookup⟩
  cases h with
  | nothing => exact .nothing
  | literal read => exact .literal read
  | reference read => exact .reference read
  | prototyped read read' => exact .prototyped read read'
  | branch read => exact .branch (label read)
  | payload read => exact .payload (label read)

/-- Where labels stand for other instructions, and for a method with another body, the operands make
the same instruction up, but for its target. -/
theorem instruction_retarget {method : Method} {labels labels' : Labels} {opcode : Opcode}
    {operands : List (List Char)} {item : Instruction}
    (h : instruction ⟨method, labels⟩ opcode operands = .ok item) (body : List Instruction)
    {move : Nat → Nat} (hlabels : ∀ name place, labels.lookup name = some place →
      labels'.lookup name = some (move place)) :
    instruction ⟨{ method with body := body }, labels'⟩ opcode operands =
      .ok (item.retarget move) := by
  obtain ⟨hlength, rfl, rest, hregisters, hreads⟩ := of_instruction h
  exact instruction_of_reads hlength hregisters (hreads.retarget hlabels)

theorem forall₂_instruction_retarget {method : Method} {labels labels' : Labels}
    {operations : List (Opcode × List (List Char))} {items : List Instruction}
    (h : List.Forall₂ (fun operation item =>
      instruction ⟨method, labels⟩ operation.1 operation.2 = .ok item) operations items)
    (body : List Instruction) {move : Nat → Nat}
    (hlabels : ∀ name place, labels.lookup name = some place →
      labels'.lookup name = some (move place)) :
    List.Forall₂ (fun operation item =>
      instruction ⟨{ method with body := body }, labels'⟩ operation.1 operation.2 = .ok item)
      operations (items.map (.retarget move)) :=
  List.forall₂_map_right_iff.mpr (h.imp fun _ _ hread => instruction_retarget hread body hlabels)

/-- A text is assembled for any place and body as it is for the front of the method, with its
branches moved. -/
theorem assembleAt_relocated {text : String} {method : Method} {items : List Instruction}
    (h : assemble text method = .ok items) (body : List Instruction) (base : Nat) :
    assembleAt text { method with body := body } base [] =
      .ok (items.map (.retarget (base + ·))) := by
  obtain ⟨lines, htext, hnames, hnew, hitems⟩ := assembleAt_eq_ok_iff.mp h
  refine assembleAt_eq_ok_iff.mpr ⟨lines, htext, hnames, hnew,
    forall₂_instruction_retarget hitems body fun name place hlookup => ?_⟩
  rw [lookup_labelsOf_nil_iff hnames] at hlookup ⊢
  exact mem_definitions_add hlookup base

/-- The text has a line that holds the label. -/
def Defines (text : String) (name : List Char) : Prop :=
  ∃ numbered number, Smali.lines text = .ok numbered ∧ (number, Line.label name) ∈ numbered

theorem HasLines.defines {text : String} {lines : List Line} (h : HasLines text lines)
    {name : List Char} (hname : name ∈ labelNames lines) : Defines text name := by
  obtain ⟨numbered, hlines, rfl⟩ := hasLines_iff.mp h
  obtain ⟨⟨number, line⟩, hmem, rfl⟩ := List.mem_map.mp (mem_labelNames.mp hname)
  exact ⟨numbered, number, hlines, hmem⟩

/-- Two texts without a common label are assembled together, the branches of the second moved behind
the instructions of the first. -/
theorem assembleAt_joined {front back : String} {method : Method} {items items' : List Instruction}
    (hfront : assemble front method = .ok items) (hback : assemble back method = .ok items')
    (hnames : ∀ name, ¬ (Defines front name ∧ Defines back name)) (base : Nat) :
    assembleAt (front ++ "\n" ++ back) method base [] =
      .ok (items.map (.retarget (base + ·)) ++
        items'.map (.retarget (base + items.length + ·))) := by
  obtain ⟨lines, htext, hnodup, hnew, hitems⟩ := assembleAt_eq_ok_iff.mp hfront
  obtain ⟨lines', htext', hnodup', -, hitems'⟩ := assembleAt_eq_ok_iff.mp hback
  obtain ⟨gap, hgap, hjoined⟩ := htext.joined htext'
  have hcount : (operations lines).length = items.length := hitems.length_eq
  have hoperations : operations (lines ++ gap ++ lines') =
      operations lines ++ operations lines' := by
    rw [operations_append, operations_append, operations_of_forall_blank hgap, List.append_nil]
  have hdefinitions : definitions base (lines ++ gap ++ lines') =
      definitions base lines ++ definitions (base + items.length) lines' := by
    rw [definitions_append, definitions_append, definitions_of_forall_blank hgap, List.append_nil,
      operations_append, operations_of_forall_blank hgap, List.append_nil, hcount]
  have hnodup'' : (labelNames (lines ++ gap ++ lines')).Nodup := by
    rw [← map_fst_definitions base, hdefinitions, List.map_append, map_fst_definitions,
      map_fst_definitions]
    refine List.nodup_append.mpr ⟨hnodup, hnodup', fun name hname other hother heq => ?_⟩
    exact hnames name ⟨htext.defines hname, htext'.defines (heq ▸ hother)⟩
  refine assembleAt_eq_ok_iff.mpr ⟨_, hjoined, hnodup'', List.forall_mem_nil _, ?_⟩
  rw [hoperations]
  -- each text names what its own lines say
  refine List.rel_append
    (forall₂_instruction_retarget hitems method.body fun name place hlookup => ?_)
    (forall₂_instruction_retarget hitems' method.body fun name place hlookup => ?_)
  · rw [lookup_labelsOf_nil_iff hnodup] at hlookup
    rw [lookup_labelsOf_nil_iff hnodup'', hdefinitions]
    exact List.mem_append_left _ (mem_definitions_add hlookup base)
  · rw [lookup_labelsOf_nil_iff hnodup'] at hlookup
    rw [lookup_labelsOf_nil_iff hnodup'', hdefinitions]
    exact List.mem_append_right _ (mem_definitions_add hlookup _)

end Smali

/-- What is put into a list in front of what was put in at the same index. -/
theorem Splice.edit_insert_edit_insert {index : Nat} {l : List Instruction}
    (hindex : index ≤ l.length) (front back : List Instruction) (fill : Instruction → Instruction) :
    (insert index front).edit id ((insert index back).edit fill l) =
      (insert index (front ++ back.map fill)).edit id l := by
  have hlength : (l.take index).length = index := List.length_take_of_le hindex
  simp only [edit, List.map_id, List.append_assoc]
  rw [List.take_left' hlength, List.drop_left' hlength]

namespace Method

variable {method middle result : Method} {index : Nat}

/-- Instructions that are put in at one index, those that are to stand behind first, could have been
put in at once; the targets of those behind move with the ones in front. -/
theorem insert_insert {front back : List Instruction}
    (hback : method.insert index back = .ok middle)
    (hfront : middle.insert index front = .ok result) :
    method.insert index
      (front ++ back.map (.retarget (Target.afterInsert index front.length))) = .ok result := by
  have happly : (Splice.insert index back).apply method = .ok middle := hback
  have happly' : (Splice.insert index front).apply middle = .ok result := hfront
  obtain ⟨fits, rfl⟩ := Splice.apply_eq_ok_iff.mp happly
  obtain ⟨-, rfl⟩ := Splice.apply_eq_ok_iff.mp happly'
  have hindex : index ≤ (method.body.map (Instruction.retarget (Target.afterInsert index
      (front.length + back.length)))).length := by
    rw [List.length_map]
    exact fits
  show (Splice.insert index _).apply method = _
  refine Splice.apply_eq_ok_iff.mpr ⟨fits, ?_⟩
  rw [Splice.map_edit, List.map_map]
  simp only [Splice.move, List.length_append, List.length_map, Function.comp_def,
    Weave.retarget_retarget, Target.afterInsert_afterInsert, id_eq]
  rw [Splice.edit_insert_edit_insert hindex]

/-- A text is put in as the instructions that it is assembled into. -/
theorem insertText_eq_ok_iff {text : String} {next : Method} :
    method.insertText index text = .ok next ↔ index ≤ method.body.length ∧
      ∃ items, assembleAt text method index [] = .ok items ∧
        method.insert index items = .ok next := by
  constructor
  · intro h
    obtain ⟨hindex, -, items, hitems, happly⟩ := of_insertLabelled h
    exact ⟨hindex, items, hitems, happly⟩
  · rintro ⟨hindex, items, hitems, hinsert⟩
    rw [insertText_eq, if_neg (Nat.not_lt.mpr hindex), hitems, ok_bind, hinsert]

theorem isWord_of_insertText {text : String} {next : Method}
    (h : method.insertText index text = .ok next) (fits : ¬ method.Overflows next) :
    next.IsWord := by
  obtain ⟨items, -, applied, aims⟩ := exists_of_insertLabelled h
  exact Splice.isWord_of_apply applied aims fits

/-- Of two texts that have no label in common and can be assembled each on its own, the second can
be put in first and then the first at the same index, and this makes the method that putting both in
as one text makes, with every target: the instructions of the first text are put in, and behind them
those of the second.  Unless there are indices past 64 bits in the end, there are none on the way. -/
theorem insertText_joined {method : Method} {index : Nat} {front back : String}
    {items items' : List Instruction} (hindex : index ≤ method.body.length)
    (hfront : assemble front method = .ok items) (hback : assemble back method = .ok items')
    (hnames : ∀ name, ¬ (Defines front name ∧ Defines back name)) :
    ∃ middle result, method.insertText index back = .ok middle ∧
      middle.insertText index front = .ok result ∧
      method.insertText index (front ++ "\n" ++ back) = .ok result ∧
      method.insert index (items.map (.retarget (index + ·)) ++
        items'.map (.retarget (index + items.length + ·))) = .ok result ∧
      (¬ method.Overflows result → middle.IsWord ∧ result.IsWord) := by
  obtain ⟨body, hlength, hmiddle⟩ := exists_insert hindex (items'.map (.retarget (index + ·)))
  have hindex' : index ≤ ({ method with body := body } : Method).body.length := by
    show index ≤ body.length
    omega
  obtain ⟨_, -, hresult⟩ := exists_insert hindex' (items.map (.retarget (index + ·)))
  have hjoined := insert_insert hmiddle hresult
  rw [List.length_map, List.map_map] at hjoined
  simp only [Function.comp_def, Weave.retarget_retarget, Target.afterInsert_add] at hjoined
  have hback' := assembleAt_relocated hback method.body index
  have hfront' := assembleAt_relocated hfront body index
  have htext := assembleAt_joined hfront hback hnames index
  have hmade := insertText_eq_ok_iff.mpr ⟨hindex, _, hback', hmiddle⟩
  have hmade' := insertText_eq_ok_iff.mpr ⟨hindex', _, hfront', hresult⟩
  have hmade'' := insertText_eq_ok_iff.mpr ⟨hindex, _, htext, hjoined⟩
  refine ⟨_, _, hmade, hmade', hmade'', hjoined, fun fits => ⟨?_, isWord_of_insertText hmade'' fits⟩⟩
  refine isWord_of_insertText hmade fun overflows => fits (overflows.mono ?_)
  have applied : (Splice.insert index _).apply _ = .ok _ := hresult
  rw [Splice.length_of_apply applied]
  exact Nat.le_add_right _ _

/-- Both texts end with a label, and the body branches to where they are put in and behind. -/
theorem insertText_joined_trailingLabels :
    let method : Method := ⟨"La;", "b", [], "V", .empty, 1,
      [⟨.ifEqz, [0], none, none, some 1, none⟩, ⟨.goto, [], none, none, some 2, none⟩,
        { opcode := .returnVoid }]⟩
    let front := "if-eqz v0, :end\n:end"
    let back := ":top\nif-nez v0, :top\ngoto :rest\n:rest"
    let result : Method := { method with body :=
      [⟨.ifEqz, [0], none, none, some 4, none⟩, ⟨.ifEqz, [0], none, none, some 2, none⟩,
        ⟨.ifNez, [0], none, none, some 2, none⟩, ⟨.goto, [], none, none, some 4, none⟩,
        ⟨.goto, [], none, none, some 5, none⟩, { opcode := .returnVoid }] }
    1 ≤ method.body.length ∧
      assemble front method = .ok [⟨.ifEqz, [0], none, none, some 1, none⟩] ∧
      assemble back method = .ok
        [⟨.ifNez, [0], none, none, some 0, none⟩, ⟨.goto, [], none, none, some 2, none⟩] ∧
      (∀ name, ¬ (Defines front name ∧ Defines back name)) ∧
      ∃ middle, method.insertText 1 back = .ok middle ∧
        middle.insertText 1 front = .ok result ∧
        method.insertText 1 (front ++ "\n" ++ back) = .ok result := by
  intro method front back result
  have hindex : 1 ≤ method.body.length := by decide
  have hfront : assemble front method = .ok [⟨.ifEqz, [0], none, none, some 1, none⟩] := by
    decide +kernel
  have hback : assemble back method = .ok
      [⟨.ifNez, [0], none, none, some 0, none⟩, ⟨.goto, [], none, none, some 2, none⟩] := by
    decide +kernel
  have hlines : Smali.lines front = .ok
      [(1, .instruction .ifEqz ["v0".toList, ":end".toList]), (2, .label "end".toList)] := by
    decide +kernel
  have hlines' : Smali.lines back = .ok
      [(1, .label "top".toList), (2, .instruction .ifNez ["v0".toList, ":top".toList]),
        (3, .instruction .goto [":rest".toList]), (4, .label "rest".toList)] := by
    decide +kernel
  have hnames : ∀ name, ¬ (Defines front name ∧ Defines back name) := by
    rintro name ⟨⟨numbered, number, hnumbered, hmem⟩, ⟨numbered', number', hnumbered', hmem'⟩⟩
    rw [hlines] at hnumbered
    rw [hlines'] at hnumbered'
    cases hnumbered
    cases hnumbered'
    simp only [List.mem_cons, Prod.mk.injEq, reduceCtorEq, and_false, Line.label.injEq, false_or,
      List.not_mem_nil, or_false] at hmem hmem'
    rw [hmem.2] at hmem'
    revert hmem'
    simp
  obtain ⟨middle, result', hmiddle, hresult, hjoined, -⟩ :=
    insertText_joined hindex hfront hback hnames
  have heq : method.insertText 1 (front ++ "\n" ++ back) = .ok result := by decide +kernel
  rw [heq] at hjoined
  cases hjoined
  exact ⟨hindex, hfront, hback, hnames, middle, hmiddle, hresult, heq⟩

end Method

end DexGraft
