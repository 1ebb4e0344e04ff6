import DexGraft.Edit.Blueprint
import DexGraft.Proofs.Code.Splice
import DexGraft.Proofs.Edit.ByText
import DexGraft.Proofs.Smali.Listing

/-!
# Insertions of text

An edit that puts the instructions of a text in is a splice.  The branches among them lead to the
instructions that external labels stood for before the edit, or to one of the instructions that are
put in, or right behind the last of these.
-/

namespace DexGraft

open Text Outcome

namespace Smali

/-- A label that the lines define stands for as many instructions as there are in front of it. -/
theorem of_mem_labelsFrom {position : Nat} {labels labels' : Labels} {lines : List (Nat × Line)}
    (h : labelsFrom position labels lines = .ok labels') {label : List Char × Nat}
    (hmem : label ∈ labels') :
    label ∈ labels ∨ ∃ before number after, lines = before ++ (number, .label label.1) :: after ∧
      label.2 = position + before.countP (·.2.isInstruction) := by
  obtain ⟨rfl, -, -⟩ := labelsFrom_eq_ok_iff.mp h
  rw [List.mem_append, List.mem_reverse, or_comm] at hmem
  refine hmem.imp_right fun hmem => ?_
  obtain ⟨_, _, hsplit, hplace⟩ := mem_definitions_iff.mp hmem
  obtain ⟨before, after, rfl, rfl, hafter⟩ := List.map_eq_append_iff.mp hsplit
  obtain ⟨⟨number, _⟩, after, rfl, rfl, -⟩ := List.map_eq_cons_iff.mp hafter
  rw [length_operations] at hplace
  exact ⟨before, number, after, rfl, hplace⟩

theorem mem_of_mem_externalLabels {base count : Nat} {external : List ExternalLabel}
    {label : List Char × Nat} (h : label ∈ externalLabels base count external) :
    ∃ old ∈ external, label.2 = Target.afterInsert base count old.index := by
  obtain ⟨old, hold, rfl⟩ := List.mem_map.mp h
  exact ⟨old, List.mem_reverse.mp hold, rfl⟩

/-- Where a branch of a text leads to. -/
theorem target_of_assembleAt {text : String} {method : Method} {base : Nat}
    {external : List ExternalLabel} {items : List Instruction}
    (h : assembleAt text method base external = .ok items) {item : Instruction}
    (hmem : item ∈ items) {target : Nat} (htarget : item.target = some target) :
    (∃ label ∈ external, target = Target.afterInsert base items.length label.index) ∨
      ∃ lines before number name after, Smali.lines text = .ok lines ∧
        lines = before ++ (number, .label name) :: after ∧
        items.length = lines.countP (·.2.isInstruction) ∧
        target = base + before.countP (·.2.isInstruction) := by
  obtain ⟨lines, hlines, h⟩ := bind_eq_ok_iff.mp h
  obtain ⟨labels, hlabels, h⟩ := bind_eq_ok_iff.mp h
  have hlength := length_of_instructions h
  obtain ⟨name, hlabel⟩ := mem_of_target h hmem htarget
  rcases of_mem_labelsFrom hlabels hlabel with hold | ⟨before, number, after, hsplit, heq⟩
  · rw [← hlength] at hold
    exact .inl (mem_of_mem_externalLabels hold)
  · exact .inr ⟨lines, before, number, name, after, hlines, hsplit, hlength, heq⟩

/-! ## Texts that end with an instruction -/

theorem of_linesFrom_append {first : Nat} {texts texts' : List (List Char)}
    {lines : List (Nat × Line)} (h : linesFrom first (texts ++ texts') = .ok lines) :
    ∃ front back, lines = front ++ back ∧
      linesFrom (first + texts.length) texts' = .ok back := by
  induction texts generalizing first lines with
  | nil => exact ⟨[], lines, rfl, h⟩
  | cons text texts ih =>
      rw [List.cons_append, linesFrom] at h
      split at h
      · obtain ⟨rest, hrest, rfl⟩ := map_eq_ok_iff.mp h
        obtain ⟨front, back, rfl, hback⟩ := ih hrest
        refine ⟨_ :: front, back, rfl, ?_⟩
        rw [List.length_cons, ← hback]
        congr 1
        omega
      · cases h

theorem of_instructions_append {scope : Scope} {front back : List (Nat × Line)}
    {items : List Instruction} (h : instructions scope (front ++ back) = .ok items) :
    ∃ others items', items = others ++ items' ∧ instructions scope back = .ok items' := by
  rw [instructions_eq_ok_iff, List.map_append, operations_append] at h
  obtain ⟨others, items', rfl, -, hback⟩ := exists_of_forall₂_append h
  exact ⟨others, items', rfl, instructions_eq_ok_iff.mpr hback⟩

/-- A text whose last line holds an instruction is assembled into instructions that end with it, and
none of them branches to anything but one of them. -/
theorem exists_of_assembleAt_lineFeed {text : String} {method : Method} {base : Nat}
    {items : List Instruction} {front last : List Char} {opcode : Opcode}
    {operands : List (List Char)} (htext : text.toList = front ++ '\n' :: last) (hne : last ≠ [])
    (hline : '\n' ∉ last) (hread : Line.read last = .ok (.instruction opcode operands))
    (h : assembleAt text method base [] = .ok items) :
    ∃ others item labels, items = others ++ [item] ∧
      instruction ⟨method, labels⟩ opcode operands = .ok item ∧
      ∀ other ∈ items, ∀ target, other.target = some target →
        base ≤ target ∧ target < base + items.length := by
  have hassembled := h
  obtain ⟨lines, hlines, h⟩ := bind_eq_ok_iff.mp h
  obtain ⟨labels, -, h⟩ := bind_eq_ok_iff.mp h
  have hsplit := hlines
  rw [Smali.lines, htext, Text.lines, linesFrom_append_lineFeed, lines_eq_singleton hline hne]
    at hsplit
  obtain ⟨begun, back, rfl, hback⟩ := of_linesFrom_append hsplit
  obtain ⟨number', rfl⟩ : ∃ number', back = [(number', .instruction opcode operands)] := by
    rw [linesFrom, hread] at hback
    cases hback
    exact ⟨_, rfl⟩
  obtain ⟨others, items', rfl, hitems'⟩ := of_instructions_append h
  obtain ⟨item, hitem, rfl⟩ : ∃ item, instruction ⟨method, labels⟩ opcode operands = .ok item ∧
      items' = [item] := by
    rw [instructions] at hitems'
    split at hitems'
    · rename_i item hitem
      cases hitems'
      exact ⟨item, hitem, rfl⟩
    · cases hitems'
  refine ⟨others, item, labels, rfl, hitem, ?_⟩
  intro other hmem target htarget
  rcases target_of_assembleAt hassembled hmem htarget with
    ⟨_, hlabel, -⟩ | ⟨lines', before, number, name, after, hlines', hsplit', hcount, rfl⟩
  · cases hlabel
  rw [hlines] at hlines'
  cases hlines'
  -- the label stands in front of the last line, which is an instruction
  have hbefore : before.countP (·.2.isInstruction) ≤ begun.countP (·.2.isInstruction) := by
    rcases List.eq_nil_or_concat after with rfl | ⟨after, line, rfl⟩
    · obtain ⟨-, heq⟩ := List.append_inj' hsplit' rfl
      cases heq
    · rw [List.concat_eq_append, ← List.cons_append, ← List.append_assoc] at hsplit'
      obtain ⟨rfl, -⟩ := List.append_inj' hsplit' rfl
      rw [List.countP_append]
      exact Nat.le_add_right _ _
  rw [List.countP_append, List.countP_cons_of_pos rfl] at hcount
  omega

end Smali

namespace Method

theorem getElem?_of_instruction {method : Method} {index : Nat} {instruction : Instruction}
    (h : method.instruction index = .ok instruction) : method.body[index]? = some instruction := by
  rw [Method.instruction] at h
  split at h
  · cases h
    assumption
  · cases h

theorem of_registerAt {method : Method} {index : Nat} {register : Register}
    (h : method.registerAt index = .ok register) :
    ∃ instruction, method.body[index]? = some instruction ∧
      instruction.registers.head? = some register := by
  obtain ⟨instruction, hinstruction, h⟩ := bind_eq_ok_iff.mp h
  split at h
  · cases h
    exact ⟨instruction, getElem?_of_instruction hinstruction, ‹_›⟩
  · cases h

/-- Instructions can be put in at every position of the body. -/
theorem exists_insert {method : Method} {index : Nat} (fits : index ≤ method.body.length)
    (items : List Instruction) : ∃ body, body.length = method.body.length + items.length ∧
      method.insert index items = .ok { method with body := body } := by
  have happly := Splice.apply_eq_ok_iff.mpr
    ⟨show (Splice.insert index items).Fits method.body.length from fits, rfl⟩
  exact ⟨_, Splice.length_of_apply happly, happly⟩

/-- Putting a text in takes positions of the body for the index and for the labels, and puts in what
the text assembles into. -/
theorem of_insertLabelled {method next : Method} {index : Nat} {text : String}
    {labels : List ExternalLabel} (h : method.insertLabelled index text labels = .ok next) :
    index ≤ method.body.length ∧ (∀ label ∈ labels, label.index < method.body.length) ∧
      ∃ items, Smali.assembleAt text method index labels = .ok items ∧
        (Splice.insert index items).apply method = .ok next := by
  rw [insertLabelled_eq] at h
  split at h
  · cases h
  rename_i hindex
  split at h
  · cases h
  rename_i hlabels
  refine ⟨Nat.le_of_not_lt hindex, fun label hmem => ?_, bind_eq_ok_iff.mp h⟩
  have hbound := List.find?_eq_none.mp hlabels label hmem
  rw [decide_eq_true_eq] at hbound
  exact Nat.lt_of_not_le hbound

/-- A text is put in as the instructions that it assembles into, whose targets are positions of the
new body. -/
theorem exists_of_insertLabelled {method next : Method} {index : Nat} {text : String}
    {labels : List ExternalLabel} (h : method.insertLabelled index text labels = .ok next) :
    ∃ items, Smali.assembleAt text method index labels = .ok items ∧
      (Splice.insert index items).apply method = .ok next ∧
      (Splice.insert index items).Aims next.body.length := by
  obtain ⟨hindex, hlabels, items, hitems, happly⟩ := of_insertLabelled h
  have hlength : next.body.length = method.body.length + items.length :=
    Splice.length_of_apply happly
  refine ⟨items, hitems, happly, ?_⟩
  intro item hmem target htarget
  rcases Smali.target_of_assembleAt hitems hmem htarget with
    ⟨label, hlabel, rfl⟩ | ⟨lines, before, number, name, after, -, hsplit, hcount, rfl⟩
  · have hbound := hlabels label hlabel
    rw [Target.afterInsert]
    split <;> omega
  · rw [hsplit, List.countP_append] at hcount
    omega

/-- Putting a text in leaves all but the body as it is. -/
theorem frame_of_insertText {method next : Method} {index : Nat} {text : String}
    (h : method.insertText index text = .ok next) : { next with body := method.body } = method := by
  obtain ⟨items, -, happly, -⟩ := exists_of_insertLabelled h
  obtain ⟨-, rfl⟩ := Splice.apply_eq_ok_iff.mp happly
  rfl

end Method

namespace Blueprint

variable {blueprint : Blueprint} {owner : String} {method : Method}

/-- The frame has what was asked for, and no body. -/
theorem eq_of_frame (h : blueprint.frame owner = .ok method) :
    method = ⟨owner, blueprint.name, blueprint.parameters, blueprint.returnType, blueprint.flags,
      method.registers, []⟩ := by
  simp only [frame] at h
  split at h
  · cases h
  split at h
  · cases h
  · cases h
    rfl

/-- A method that is built is a frame, or what the text of the body makes of it. -/
theorem exists_of_build (h : blueprint.build owner = .ok method) :
    ∃ frame, blueprint.frame owner = .ok frame ∧
      ((∃ text, frame.insertText 0 text = .ok method) ∨ method = frame) := by
  rw [build] at h
  split at h
  · cases h
  split at h
  · cases h
  split at h
  · cases h
  obtain ⟨frame, hframe, h⟩ := bind_eq_ok_iff.mp h
  refine ⟨frame, hframe, ?_⟩
  split at h
  · exact .inl ⟨_, h⟩
  · cases h
    exact .inr rfl

/-- A method that is built has the name and the signature that were asked for. -/
theorem ref_of_build (h : blueprint.build owner = .ok method) :
    method.ref = ⟨owner, blueprint.name, blueprint.parameters, blueprint.returnType⟩ := by
  obtain ⟨frame, hframe, hmade⟩ := exists_of_build h
  have href : frame.ref = ⟨owner, blueprint.name, blueprint.parameters, blueprint.returnType⟩ := by
    rw [eq_of_frame hframe, Method.ref]
  rcases hmade with ⟨text, hinsert⟩ | rfl
  · rw [← Method.frame_of_insertText hinsert] at href
    exact href
  · exact href

end Blueprint

end DexGraft
