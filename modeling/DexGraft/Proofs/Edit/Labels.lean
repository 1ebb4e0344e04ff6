import DexGraft.Proofs.Edit.Insertion

/-!
# Where labels lead

A text that is put into a body names instructions by labels: those of its own lines, and external ones
for instructions that the body has already.  `Smali.Leads` says where a label leads in the new body, in
terms of the lines of the text and of where the positions of the old body go.  The main statement is
that every branch of the text leads where its label does, and every older branch to the instruction
that it led to before.
-/

namespace DexGraft

open Text Outcome

namespace Smali

/-! ## Lines and the instructions they hold -/

/-- How many instructions the lines hold. -/
def instructionCount (lines : List (Nat × Line)) : Nat := lines.countP (·.2.isInstruction)

/-- The line with the index holds an instruction. -/
def HoldsInstruction (lines : List (Nat × Line)) (i : Nat) : Prop :=
  ∃ number opcode operands, lines[i]? = some (number, .instruction opcode operands)

/-- The line with the index holds the label. -/
def HoldsLabel (lines : List (Nat × Line)) (i : Nat) (name : List Char) : Prop :=
  ∃ number, lines[i]? = some (number, .label name)

/-- Where the instruction of a line stands when the text is put in at `index`: behind those of the
lines in front. -/
def placeOfLine (index : Nat) (lines : List (Nat × Line)) (i : Nat) : Nat :=
  index + instructionCount (lines.take i)

theorem isInstruction_iff {lines : List (Nat × Line)} {i : Nat} {line : Nat × Line}
    (h : lines[i]? = some line) : line.2.isInstruction ↔ HoldsInstruction lines i := by
  rw [HoldsInstruction, h]
  rcases line with ⟨number, - | name | ⟨opcode, operands⟩⟩
  · exact iff_of_false nofun nofun
  · exact iff_of_false nofun nofun
  · exact iff_of_true rfl ⟨number, opcode, operands, rfl⟩

/-- Lines without an instruction do not move the place. -/
theorem instructionCount_take_eq {lines : List (Nat × Line)} {i j : Nat} (hle : i ≤ j)
    (h : ∀ k, i ≤ k → k < j → ¬ HoldsInstruction lines k) :
    instructionCount (lines.take j) = instructionCount (lines.take i) := by
  induction j, hle using Nat.le_induction with
  | base => rfl
  | succ j hle ih =>
      rw [← ih fun k hk hkj => h k hk (Nat.lt_succ_of_lt hkj), instructionCount, instructionCount,
        List.take_add_one, List.countP_append, Nat.add_eq_left]
      cases hline : lines[j]? with
      | none => rfl
      | some line =>
          have hnot : ¬ line.2.isInstruction := fun hline' =>
            h j hle (Nat.lt_succ_self j) ((isInstruction_iff hline).mp hline')
          rw [Option.toList_some, List.countP_singleton, if_neg hnot]

/-- Each line with an instruction provides one, at its place among the others. -/
theorem getElem?_of_instructions {scope : Scope} {lines : List (Nat × Line)}
    {items : List Instruction} (h : instructions scope lines = .ok items) {i number : Nat}
    {opcode : Opcode} {operands : List (List Char)}
    (hline : lines[i]? = some (number, .instruction opcode operands)) :
    ∃ item, items[instructionCount (lines.take i)]? = some item ∧
      instruction scope opcode operands = .ok item := by
  obtain ⟨front, back, rfl, rfl⟩ := Weave.split_of_getElem? hline
  rw [instructions_eq_ok_iff, List.map_append, operations_append] at h
  obtain ⟨others, rest, rfl, hothers, hrest⟩ := exists_of_forall₂_append h
  obtain ⟨item, rest, hread, -, rfl⟩ := List.forall₂_cons_left_iff.mp hrest
  have hcount : instructionCount front = others.length := by
    rw [instructionCount, ← length_operations, hothers.length_eq]
  refine ⟨item, ?_, hread⟩
  rw [List.take_left, hcount]
  simp

/-! ## What labels stand for -/

theorem mem_definitions_iff_holdsLabel {position target : Nat} {lines : List (Nat × Line)}
    {name : List Char} : (name, target) ∈ definitions position (lines.map (·.2)) ↔
      ∃ i, HoldsLabel lines i name ∧ target = placeOfLine position lines i := by
  rw [mem_definitions_iff]
  constructor
  · rintro ⟨before, after, hsplit, rfl⟩
    obtain ⟨front, back, rfl, rfl, hback⟩ := List.map_eq_append_iff.mp hsplit
    obtain ⟨⟨number, _⟩, back, rfl, rfl, -⟩ := List.map_eq_cons_iff.mp hback
    refine ⟨front.length, ⟨number, by simp⟩, ?_⟩
    rw [placeOfLine, List.take_left, length_operations, instructionCount]
  · rintro ⟨i, ⟨number, hline⟩, rfl⟩
    obtain ⟨front, back, rfl, rfl⟩ := Weave.split_of_getElem? hline
    refine ⟨front.map (·.2), back.map (·.2), List.map_append, ?_⟩
    rw [placeOfLine, List.take_left, length_operations, instructionCount]

/-- A label stands for what it stood for before the lines, or for as many instructions as there are in
front of the line that holds it. -/
theorem lookup_labelsFrom_iff {position : Nat} {labels labels' : Labels}
    {lines : List (Nat × Line)} (h : labelsFrom position labels lines = .ok labels')
    {name : List Char} {target : Nat} :
    labels'.lookup name = some target ↔ labels.lookup name = some target ∨
      ∃ i, HoldsLabel lines i name ∧ target = placeOfLine position lines i := by
  obtain ⟨rfl, hnames, hnew⟩ := labelsFrom_eq_ok_iff.mp h
  rw [lookup_definitions_append_iff hnames hnew, mem_definitions_iff_holdsLabel, or_comm]

/-- The label is the last one that is given for its name. -/
def IsLast (external : List ExternalLabel) (name : List Char) (label : ExternalLabel) : Prop :=
  ∃ others later, external = others ++ label :: later ∧ label.name.toList = name ∧
    ∀ other ∈ later, other.name.toList ≠ name

theorem lookup_externalLabels_iff {base count : Nat} {external : List ExternalLabel}
    {name : List Char} {target : Nat} :
    (externalLabels base count external).lookup name = some target ↔
      ∃ label, IsLast external name label ∧ target = Target.afterInsert base count label.index := by
  induction external using List.reverseRecOn with
  | nil =>
      constructor
      · rintro ⟨⟩
      · rintro ⟨label, ⟨others, later, h, -⟩, -⟩
        exact absurd h.symm (List.append_ne_nil_of_right_ne_nil _ (List.cons_ne_nil _ _))
  | append_singleton external last ih =>
      have hcons : externalLabels base count (external ++ [last]) =
          (last.name.toList, Target.afterInsert base count last.index) ::
            externalLabels base count external := by
        rw [externalLabels, List.reverse_append]
        rfl
      rw [hcons]
      by_cases hname : last.name.toList = name
      · subst hname
        rw [List.lookup_cons_self]
        constructor
        · rintro ⟨⟩
          exact ⟨last, ⟨external, [], rfl, rfl, List.forall_mem_nil _⟩, rfl⟩
        · rintro ⟨label, ⟨others, later, hsplit, -, hlater⟩, rfl⟩
          rcases List.eq_nil_or_concat later with rfl | ⟨later, other, rfl⟩
          · obtain ⟨-, heq⟩ := List.append_inj' hsplit rfl
            cases heq
            rfl
          · rw [List.concat_eq_append, ← List.cons_append, ← List.append_assoc] at hsplit
            obtain ⟨-, heq⟩ := List.append_inj' hsplit rfl
            cases heq
            exact absurd rfl (hlater last (by simp))
      · rw [List.lookup_cons, beq_eq_false_iff_ne.mpr (Ne.symm hname), ih]
        refine exists_congr fun label => and_congr_left fun _ => ?_
        constructor
        · rintro ⟨others, later, rfl, hlabel, hlater⟩
          refine ⟨others, later ++ [last], by simp, hlabel, fun other hother => ?_⟩
          rcases List.mem_append.mp hother with hother | hother
          · exact hlater other hother
          · rw [List.mem_singleton.mp hother]
            exact hname
        · rintro ⟨others, later, hsplit, hlabel, hlater⟩
          rcases List.eq_nil_or_concat later with rfl | ⟨later, other, rfl⟩
          · obtain ⟨-, heq⟩ := List.append_inj' hsplit rfl
            cases heq
            exact absurd hlabel hname
          · rw [List.concat_eq_append, ← List.cons_append, ← List.append_assoc] at hsplit
            obtain ⟨rfl, -⟩ := List.append_inj' hsplit rfl
            exact ⟨others, later, rfl, hlabel, fun other hother =>
              hlater other (by simp [hother])⟩

/-! ## Branches of a text -/

theorem getLast?_of_drop_eq_singleton {α : Type} {l : List α} {n : Nat} {a : α}
    (h : l.drop n = [a]) : l.getLast? = some a := by
  rw [← List.take_append_drop n l, h]
  exact List.getLast?_concat

/-- A target is what the only text behind the registers reads as, where the opcode takes a label. -/
theorem target_of_reads {labels : Labels} {trailing : Trailing} {texts : List (List Char)}
    {literal : Option Int64} {reference : Option Reference} {target : Option Nat}
    {prototype : Option String} (h : Reads labels trailing texts literal reference target prototype) :
    (trailing = .branch ∨ trailing = .payload → ∃ text place, texts = [text] ∧ target = some place ∧
      readLabel labels text = .ok place) ∧
    (¬ (trailing = .branch ∨ trailing = .payload) → target = none) := by
  cases h with
  | nothing | literal read | reference read | prototyped read read' =>
      exact ⟨fun h => h.elim nofun nofun, fun _ => rfl⟩
  | branch read => exact ⟨fun _ => ⟨_, _, rfl, rfl, read⟩, fun h => absurd (.inl rfl) h⟩
  | payload read => exact ⟨fun _ => ⟨_, _, rfl, rfl, read⟩, fun h => absurd (.inr rfl) h⟩

/-- The instructions with a target are those that name a label last, and the target is what the label
stands for. -/
theorem target_of_instruction {scope : Scope} {opcode : Opcode} {operands : List (List Char)}
    {item : Instruction} (h : instruction scope opcode operands = .ok item)
    (hoperands : AreOperands operands) :
    (opcode.format.trailing = .branch ∨ opcode.format.trailing = .payload →
      ∃ name target, operands.getLast? = some (':' :: name) ∧ item.target = some target ∧
        scope.labels.lookup name = some target) ∧
    (¬ (opcode.format.trailing = .branch ∨ opcode.format.trailing = .payload) →
      item.target = none) := by
  obtain ⟨-, -, rest, hregisters, hreads⟩ := of_instruction h
  obtain ⟨⟨count, rfl⟩, -⟩ := of_readRegisters hregisters
  obtain ⟨hlabelled, hother⟩ := target_of_reads hreads
  refine ⟨fun htrailing => ?_, hother⟩
  obtain ⟨text, target, hdrop, htarget, hread⟩ := hlabelled htrailing
  obtain ⟨name, hname, hlookup⟩ := readLabel_eq_ok_iff.mp hread
  have hlast : operands.getLast? = some text := getLast?_of_drop_eq_singleton hdrop
  obtain ⟨last, -, hoperand⟩ := hoperands.forall_mem text (List.mem_of_getLast? hlast)
  rw [hoperand.trimmed] at hname
  exact ⟨name, target, hname ▸ hlast, htarget, hlookup⟩

/-- Where a label leads once the text has been put in at `index`.  An external label leads to the
instruction that it stood for; a label of a line leads to the instruction of the next line that holds
one, or, if there is none, to where the text was put in. -/
inductive Leads (length index : Nat) (items : List Instruction) (lines : List (Nat × Line))
    (external : List ExternalLabel) (name : List Char) : Nat → Prop
  | external {label : ExternalLabel} {place : Nat} (last : IsLast external name label)
      (carries : (Splice.insert index items).Carries length label.index place) :
      Leads length index items lines external name place
  | next {i j : Nat} (labelled : HoldsLabel lines i name) (behind : i < j)
      (holds : HoldsInstruction lines j)
      (between : ∀ k, i < k → k < j → ¬ HoldsInstruction lines k) :
      Leads length index items lines external name (placeOfLine index lines j)
  | trailing {i place : Nat} (labelled : HoldsLabel lines i name)
      (none : ∀ j, i < j → ¬ HoldsInstruction lines j)
      (carries : (Splice.insert index items).Carries length index place) :
      Leads length index items lines external name place

theorem HoldsLabel.not_holdsInstruction {lines : List (Nat × Line)} {i : Nat} {name : List Char}
    (h : HoldsLabel lines i name) : ¬ HoldsInstruction lines i := by
  obtain ⟨number, h⟩ := h
  rintro ⟨number', opcode, operands, h'⟩
  rw [h] at h'
  cases h'

/-- The label of a line stands for the instruction of the next line that holds one. -/
theorem placeOfLine_eq_of_next {lines : List (Nat × Line)} {index i j : Nat} {name : List Char}
    (labelled : HoldsLabel lines i name) (behind : i < j)
    (between : ∀ k, i < k → k < j → ¬ HoldsInstruction lines k) :
    placeOfLine index lines j = placeOfLine index lines i := by
  refine congrArg (index + ·) (instructionCount_take_eq behind.le fun k hk hkj => ?_)
  rcases hk.eq_or_lt with rfl | hk
  · exact labelled.not_holdsInstruction
  · exact between k hk hkj

/-- A label with no instruction behind it stands behind all instructions of the text. -/
theorem placeOfLine_eq_of_trailing {lines : List (Nat × Line)} {index i : Nat} {name : List Char}
    (labelled : HoldsLabel lines i name) (none : ∀ j, i < j → ¬ HoldsInstruction lines j) :
    placeOfLine index lines i = index + instructionCount lines := by
  obtain ⟨number, hline⟩ := labelled
  have hlt : i < lines.length := (List.getElem?_eq_some_iff.mp hline).1
  have heq : placeOfLine index lines lines.length = placeOfLine index lines i :=
    placeOfLine_eq_of_next ⟨number, hline⟩ hlt fun k hk _ => none k hk
  rw [← heq, placeOfLine, List.take_length]

/-- In front of a line there is a next one that holds an instruction, or there is none. -/
theorem exists_next_or_none (lines : List (Nat × Line)) (i : Nat) :
    (∃ j, i < j ∧ HoldsInstruction lines j ∧ ∀ k, i < k → k < j → ¬ HoldsInstruction lines k) ∨
      ∀ j, i < j → ¬ HoldsInstruction lines j := by
  by_cases h : ∃ j, i < j ∧ HoldsInstruction lines j
  · classical
    refine .inl ⟨Nat.find h, (Nat.find_spec h).1, (Nat.find_spec h).2, fun k hk hlt hholds => ?_⟩
    exact Nat.find_min h hlt ⟨hk, hholds⟩
  · exact .inr fun j hj hholds => h ⟨j, hj, hholds⟩

/-- What a label stands for while a text is assembled is where it leads in the new body. -/
theorem leads_iff_lookup {length index : Nat} {items : List Instruction}
    {lines : List (Nat × Line)} {external : List ExternalLabel} {labels : Labels}
    (hindex : index ≤ length) (hexternal : ∀ label ∈ external, label.index < length)
    (hlength : items.length = instructionCount lines)
    (h : labelsFrom index (externalLabels index (instructionCount lines) external) lines =
      .ok labels) {name : List Char} {place : Nat} :
    Leads length index items lines external name place ↔ labels.lookup name = some place := by
  have carries {source place : Nat} (hsource : source ≤ length) :
      (Splice.insert index items).Carries length source place ↔
        place = Target.afterInsert index (instructionCount lines) source := by
    rw [Splice.carries_iff (show (Splice.insert index items).Fits length from hindex) hsource,
      ← hlength]
    rfl
  have hput : Target.afterInsert index (instructionCount lines) index =
      index + instructionCount lines := if_pos le_rfl
  rw [lookup_labelsFrom_iff h, lookup_externalLabels_iff]
  constructor
  · intro hleads
    cases hleads with
    | @external label place last hcarries =>
        have hmem : label ∈ external := by
          obtain ⟨others, later, rfl, -⟩ := last
          simp
        exact .inl ⟨label, last, (carries (hexternal label hmem).le).mp hcarries⟩
    | @next i j labelled behind holds between =>
        exact .inr ⟨i, labelled, placeOfLine_eq_of_next labelled behind between⟩
    | @trailing i place labelled none hcarries =>
        refine .inr ⟨i, labelled, ?_⟩
        rw [placeOfLine_eq_of_trailing labelled none, (carries hindex).mp hcarries, hput]
  · rintro (⟨label, last, rfl⟩ | ⟨i, labelled, rfl⟩)
    · have hmem : label ∈ external := by
        obtain ⟨others, later, rfl, -⟩ := last
        simp
      exact .external last ((carries (hexternal label hmem).le).mpr rfl)
    · rcases exists_next_or_none lines i with ⟨j, behind, holds, between⟩ | none
      · rw [← placeOfLine_eq_of_next labelled behind between]
        exact .next labelled behind holds between
      · refine .trailing labelled none ((carries hindex).mpr ?_)
        rw [placeOfLine_eq_of_trailing labelled none, hput]

end Smali

namespace Method

open Smali

/-- When a text is put into a body, the instruction of each of its lines stands behind those of the
lines in front.  It has a target exactly if its opcode takes a label, and then leads where its label
does: to the instruction that the last external label of the name stood for, or to the instruction of
the next line that holds one, or to what stood where the text was put in.  The instructions of the old
body keep all but their targets, and every branch among them leads to the instruction that it led to
before; one that led to where the text was put in leads behind the text. -/
theorem insertLabelled_leads {method next : Method} {index : Nat} {text : String}
    {external : List ExternalLabel} (h : method.insertLabelled index text external = .ok next) :
    ∃ lines items, Smali.lines text = .ok lines ∧
      items.length = instructionCount lines ∧
      (Splice.insert index items).apply method = .ok next ∧
      (∀ i number opcode operands, lines[i]? = some (number, .instruction opcode operands) →
        ∃ item, items[instructionCount (lines.take i)]? = some item ∧
          next.body[placeOfLine index lines i]? = some item ∧ item.opcode = opcode ∧
          (opcode.format.trailing = .branch ∨ opcode.format.trailing = .payload →
            ∃ name target, operands.getLast? = some (':' :: name) ∧ item.target = some target ∧
              ∀ place, Leads method.body.length index items lines external name place ↔
                place = target) ∧
          (¬ (opcode.format.trailing = .branch ∨ opcode.format.trailing = .payload) →
            item.target = none)) ∧
      ∃ moved : Nat → Nat,
        (∀ position ≤ method.body.length, ∀ place,
          (Splice.insert index items).Carries method.body.length position place ↔
            place = moved position) ∧
        moved index = index + items.length ∧ moved method.body.length = next.body.length ∧
        ∀ source old, method.body[source]? = some old →
          next.body[moved source]? = some { old with target := old.target.map moved } := by
  obtain ⟨hindex, hexternal, items, hitems, happly⟩ := of_insertLabelled h
  obtain ⟨lines, hlines, hassemble⟩ := bind_eq_ok_iff.mp hitems
  obtain ⟨labels, hlabels, hinstructions⟩ := bind_eq_ok_iff.mp hassemble
  have hlength : items.length = instructionCount lines := length_of_instructions hinstructions
  have fits : (Splice.insert index items).Fits method.body.length := hindex
  refine ⟨lines, items, hlines, hlength, happly, ?_,
    Target.afterInsert index items.length, ?_, if_pos le_rfl, ?_, ?_⟩
  · intro i number opcode operands hline
    obtain ⟨item, hitem, hread⟩ := getElem?_of_instructions hinstructions hline
    obtain ⟨-, hoperands⟩ := operands_of_linesFrom hlines (fun _ => not_mem_of_mem_lines)
      (List.mem_of_getElem? hline)
    obtain ⟨hlabelled, hother⟩ := target_of_instruction hread hoperands
    have hlt := (List.getElem?_eq_some_iff.mp hitem).1
    refine ⟨item, hitem, ?_, (of_instruction hread).2.1, fun htrailing => ?_, hother⟩
    · rw [placeOfLine, Splice.getElem?_add_of_insert happly hlt, hitem]
    · obtain ⟨name, target, hlast, htarget, hlookup⟩ := hlabelled htrailing
      refine ⟨name, target, hlast, htarget, fun place => ?_⟩
      rw [leads_iff_lookup hindex hexternal hlength hlabels, hlookup, Option.some.injEq, eq_comm]
  · intro position hposition place
    exact Splice.carries_iff fits hposition
  · have hmove : (Splice.insert index items).move method.body.length = _ := Splice.move_length fits
    rw [Splice.length_of_apply happly]
    exact hmove
  · intro source old hold
    have hmoved := Splice.getElem?_afterInsert_of_insert happly source
    rw [hold] at hmoved
    exact hmoved

/-- Three branches go in front of the instruction that an older branch leads to: one to the label
above it, one to a label that is given twice from outside, and one to where they were put in. -/
theorem insertLabelled_leads_threeBranches :
    let method : Method := ⟨"La;", "b", [], "V", .empty, 1,
      [⟨.ifEqz, [0], none, none, some 1, none⟩, { opcode := .nop }, { opcode := .returnVoid }]⟩
    let text := ":top\ngoto :top\ngoto :out\ngoto :rest\n:rest"
    let external : List ExternalLabel := [⟨"out", 0⟩, ⟨"out", 2⟩]
    let lines : List (Nat × Smali.Line) :=
      [(1, .label "top".toList), (2, .instruction .goto [":top".toList]),
        (3, .instruction .goto [":out".toList]), (4, .instruction .goto [":rest".toList]),
        (5, .label "rest".toList)]
    let next : Method := { method with body :=
      [⟨.ifEqz, [0], none, none, some 4, none⟩, ⟨.goto, [], none, none, some 1, none⟩,
        ⟨.goto, [], none, none, some 5, none⟩, ⟨.goto, [], none, none, some 4, none⟩,
        { opcode := .nop }, { opcode := .returnVoid }] }
    method.insertLabelled 1 text external = .ok next ∧ Smali.lines text = .ok lines ∧
      ∃ items, (Splice.insert 1 items).apply method = .ok next ∧
        Leads 3 1 items lines external "top".toList 1 ∧
        Leads 3 1 items lines external "out".toList 5 ∧
        Leads 3 1 items lines external "rest".toList 4 := by
  intro method text external lines next
  have hinsert : method.insertLabelled 1 text external = .ok next := by decide +kernel
  have hread : Smali.lines text = .ok lines := by decide +kernel
  obtain ⟨lines', items, hlines, -, happly, hinserted, -⟩ := insertLabelled_leads hinsert
  rw [hread] at hlines
  cases hlines
  -- the branch of each line leads where its label does
  have leads : ∀ (i number place : Nat) (name : List Char),
      lines[i]? = some (number, .instruction .goto [':' :: name]) →
      next.body[placeOfLine 1 lines i]? = some ⟨.goto, [], none, none, some place, none⟩ →
        Leads 3 1 items lines external name place := by
    intro i number place name hline hplace
    obtain ⟨item, -, hitem, -, hbranch, -⟩ := hinserted i number .goto _ hline
    obtain ⟨name', target, hname, htarget, hleads⟩ := hbranch (.inl rfl)
    rw [hplace] at hitem
    cases hitem
    cases hname
    cases htarget
    exact (hleads place).mpr rfl
  exact ⟨hinsert, hread, items, happly, leads 1 2 1 _ rfl rfl, leads 2 3 5 _ rfl rfl,
    leads 3 4 4 _ rfl rfl⟩

end Method

end DexGraft
