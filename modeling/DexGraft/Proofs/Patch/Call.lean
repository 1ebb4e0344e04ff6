import DexGraft.Patch.Hook
import DexGraft.Proofs.Smali.Assembly

/-!
# Calls at hook points

The line of text that calls a method is assembled into the call of this method or not at all.  The
reference at the end of the line may hold characters that end a line or begin a comment, but no part
of a reference is a reference, so nothing else is called when the line is cut short.  It is assembled
exactly if the reference can be written where it stands.
-/

namespace DexGraft

open Text Outcome Smali

/-- The reference can be written behind other operands: no comment and no other operand begins in it,
and it leaves no string and no brace open. -/
def MethodRef.Writable (target : MethodRef) : Prop :=
  ∃ last : Nesting, last.isClosed ∧ Operand last target.text.toList

namespace HookPoint

/-- The call of a method with the registers of the point. -/
def call (point : HookPoint) (target : MethodRef) : Instruction :=
  { opcode := .invokeStatic, registers := point.registers, reference := some (.method target) }

variable (point : HookPoint) (target : MethodRef)

/-- The registers of the point, as an operand. -/
def registersOperand : List Char :=
  ("\x7b" ++ Register.listText point.registers ++ "\x7d").toList

theorem operand_registersOperand : Operand {} point.registersOperand :=
  operand_list point.registers

theorem registersOperand_ne_nil : point.registersOperand ≠ [] := by
  rw [registersOperand, toList_braced]
  nofun

/-- The line of a call up to the reference. -/
def front : List Char :=
  Opcode.invokeStatic.mnemonic.toList ++ ' ' :: (point.registersOperand ++ [','])

theorem front_eq :
    point.front =
      ("invoke-static \x7b" ++ Register.listText point.registers ++ "\x7d,").toList := by
  have hmnemonic : Opcode.invokeStatic.mnemonic = "invoke-static" := rfl
  rw [front, registersOperand, hmnemonic]
  simp

theorem toList_callText :
    (point.callText target).toList = point.front ++ (" " ++ target.text).toList := by
  have hcall : point.callText target =
      "invoke-static \x7b" ++ Register.listText point.registers ++ "\x7d, " ++ target.text := rfl
  rw [hcall, front_eq]
  simp

theorem ofMnemonic?_invokeStatic :
    Opcode.ofMnemonic? Opcode.invokeStatic.mnemonic = some .invokeStatic := by
  decide +kernel

/-- The first line of a text that begins like a call. -/
theorem exists_lines_front_append (cs : List Char) :
    ∃ line rest, line <+: cs ∧ Text.lines (point.front ++ cs) = (point.front ++ line) :: rest := by
  have hne : point.front ≠ [] := by
    rw [front]
    exact List.append_ne_nil_of_right_ne_nil _ (List.cons_ne_nil _ _)
  have hlast : point.front.getLast? ≠ some '\r' := by
    rw [front, List.getLast?_append_of_ne_nil _ (List.cons_ne_nil _ _), ← List.cons_append,
      List.getLast?_concat]
    decide
  have hline : '\n' ∉ point.front := by
    have hoperand := point.operand_registersOperand.oneLine
    have hmnemonic : '\n' ∉ Opcode.invokeStatic.mnemonic.toList := by decide
    rw [front]
    simp only [List.mem_append, List.mem_cons, List.not_mem_nil, or_false, not_or]
    exact ⟨hmnemonic, by decide, hoperand, by decide⟩
  exact exists_lines_append hne hlast hline cs

/-- What is read from a reference that may have been cut short is the reference, and if so it has not
been. -/
theorem eq_of_readReference_isPrefix {target : MethodRef} {descriptor : String} {cs : List Char}
    {reference : Reference} (htarget : MethodRef.parse descriptor = .ok target)
    (hstart : cs <+: descriptor.toList) (h : readReference .method (trim cs) = .ok reference) :
    reference = .method target ∧ trim cs = trim descriptor.toList := by
  have hread : MethodRef.read (trim descriptor.toList) = .ok target :=
    MethodRef.read_trim_eq_ok_iff.mpr htarget
  obtain ⟨method, hmethod, rfl⟩ := map_eq_ok_iff.mp (readReference_eq_ok_iff.mp h)
  rw [trim_trim] at hmethod
  obtain ⟨more, hmore⟩ := trim_isPrefix_trim hstart
  have htrim : trim (trim cs ++ more) = trim cs ++ more := by rw [hmore, trim_trim]
  rw [← hmore] at hread ⊢
  have hnil := MethodRef.eq_nil_of_read_append hmethod hread (trim_trim cs) htrim
  rw [hnil, List.append_nil] at hread ⊢
  rw [hmethod] at hread
  cases hread
  exact ⟨rfl, rfl⟩

/-- The reference that is read behind the registers is what stands on the line, up to a comment. -/
theorem exists_of_instruction_registersOperand {scope : Scope} {others : List (List Char)}
    {item : Instruction}
    (h : instruction scope .invokeStatic (point.registersOperand :: others) = .ok item) :
    ∃ text reference, others = [text] ∧ readReference .method text = .ok reference ∧
      item = { opcode := .invokeStatic, registers := point.registers, reference } := by
  obtain ⟨-, hopcode, rest, hregisters, hreads⟩ := of_instruction h
  obtain ⟨registers, hlist, heq⟩ := bind_eq_ok_iff.mp hregisters
  rw [registersOperand, readRegisterList_list] at hlist
  cases hlist
  rcases item with ⟨opcode, registers, literal, reference, target, prototype⟩
  cases heq
  cases hopcode
  cases hreads with
  | @reference kind text reference hread => exact ⟨text, reference, rfl, hread, rfl⟩

/-- The first instruction of a text that begins like a call takes the registers, and its reference is
what stands behind them on the line, up to a comment. -/
theorem exists_of_assembleAt_front {text : String} {cs : List Char} {method : Method} {base : Nat}
    {external : List ExternalLabel} {items : List Instruction}
    (htext : text.toList = point.front ++ cs)
    (h : assembleAt text method base external = .ok items) :
    ∃ line rest reference more, line <+: cs ∧
      Text.lines text.toList = (point.front ++ line) :: rest ∧
      readReference .method (trim (stripComment .outside line)) = .ok reference ∧
      items =
        { opcode := .invokeStatic, registers := point.registers, reference } :: more ∧
      (rest = [] → more = []) := by
  obtain ⟨line, rest, hstart, hlines⟩ := point.exists_lines_front_append cs
  rw [← htext] at hlines
  have hfront : point.front ++ line =
      Opcode.invokeStatic.mnemonic.toList ++ ' ' :: (point.registersOperand ++ ',' :: line) := by
    simp [front]
  obtain ⟨lines, hread, hitems⟩ := bind_eq_ok_iff.mp h
  obtain ⟨labels, -, hitems⟩ := bind_eq_ok_iff.mp hitems
  rw [Smali.lines, hlines, Smali.linesFrom, hfront,
    Line.read_operand_append ofMnemonic?_invokeStatic point.operand_registersOperand
      point.registersOperand_ne_nil] at hread
  cases hothers : operandsFrom {} [] (trimBack (stripComment .outside line)) with
  | error fault =>
      rw [hothers] at hread
      cases hread
  | ok others =>
      rw [hothers] at hread
      obtain ⟨lines, hrest, rfl⟩ := map_eq_ok_iff.mp hread
      rw [instructions] at hitems
      split at hitems
      swap
      · cases hitems
      rename_i item hitem
      obtain ⟨more, hmore, rfl⟩ := map_eq_ok_iff.mp hitems
      obtain ⟨operand, reference, rfl, hreference, rfl⟩ :=
        point.exists_of_instruction_registersOperand hitem
      have hoperand : operand = trim (stripComment .outside line) := by
        rw [eq_trim_of_operandsFrom hothers, List.reverse_nil, List.nil_append, trim_trimBack]
      rw [hoperand] at hreference
      refine ⟨line, rest, reference, more, hstart, hlines, hreference, rfl, ?_⟩
      rintro rfl
      cases hrest
      cases hmore
      rfl

/-- A blank in front of a reference makes no difference. -/
theorem parse_blank_append_iff {descriptor : String} {target : MethodRef} :
    MethodRef.parse (" " ++ descriptor) = .ok target ↔ MethodRef.parse descriptor = .ok target := by
  have hblank : Blanks " ".toList := blanks_of_all rfl
  rw [MethodRef.parse, MethodRef.parse, ← MethodRef.read_trim_eq_ok_iff, String.toList_append,
    trim_blanks_append _ hblank, MethodRef.read_trim_eq_ok_iff]

/-- A text that begins like a call and goes on with a whole reference is assembled into the call and
nothing else. -/
theorem eq_singleton_of_assembleAt {point : HookPoint} {target : MethodRef}
    {text descriptor : String} {method : Method} {base : Nat} {external : List ExternalLabel}
    {items : List Instruction} (htext : text.toList = point.front ++ descriptor.toList)
    (htarget : MethodRef.parse descriptor = .ok target)
    (hlast : ∀ c ∈ descriptor.toList.getLast?, isBlank c = false)
    (h : assembleAt text method base external = .ok items) : items = [point.call target] := by
  obtain ⟨line, rest, reference, more, hstart, hlines, hreference, rfl, hmore⟩ :=
    point.exists_of_assembleAt_front htext h
  have huncommented := stripComment_isPrefix .outside line
  obtain ⟨rfl, htrim⟩ :=
    eq_of_readReference_isPrefix htarget (huncommented.trans hstart) hreference
  -- nothing has been cut off, so that there is no other line
  have hwhole := eq_of_isPrefix_of_trim_eq (huncommented.trans hstart) hlast htrim
  rw [hwhole] at huncommented
  have hline : line = descriptor.toList :=
    hstart.eq_of_length_le huncommented.length_le
  have hmem : point.front ++ line ∈ Text.lines text.toList := by
    rw [hlines]
    exact List.mem_cons_self ..
  have hone : '\n' ∉ text.toList := by
    rw [htext, ← hline]
    exact not_mem_of_mem_lines hmem
  have hne : text.toList ≠ [] := by
    intro hnil
    rw [hnil] at hlines
    cases hlines
  rw [lines_eq_singleton hone hne, List.cons.injEq] at hlines
  rw [hmore hlines.2.symm, call]

/-- The text of a call is assembled into the call, if it is assembled at all. -/
theorem assembleOne_callText {point : HookPoint} {target : MethodRef} {descriptor : String}
    {method : Method} {index : Nat} {item : Instruction}
    (htarget : MethodRef.parse descriptor = .ok target)
    (h : method.assembleOne index (point.callText target) = .ok item) :
    item = point.call target := by
  obtain ⟨items, hitems, h⟩ := bind_eq_ok_iff.mp h
  obtain ⟨line, rest, reference, more, hstart, -, hreference, rfl, -⟩ :=
    point.exists_of_assembleAt_front (point.toList_callText target) hitems
  cases more with
  | cons item' more => cases h
  | nil =>
      cases h
      have hwritten : MethodRef.parse (" " ++ target.text) = .ok target := by
        rw [parse_blank_append_iff, MethodRef.parse, MethodRef.toList_text_of_read htarget]
        exact MethodRef.read_trim_eq_ok_iff.mpr htarget
      have hshort := (stripComment_isPrefix .outside line).trans hstart
      rw [(eq_of_readReference_isPrefix hwritten hshort hreference).1, call]

/-! ## Calls that can be written -/

/-- The line of a call is the text of the call. -/
theorem text_call : (point.call target).text = point.callText target := by
  have hregisters : (point.call target).registersText =
      "\x7b" ++ Register.listText point.registers ++ "\x7d" := rfl
  have htext : (point.call target).text = "invoke-static" ++ " " ++
      ("\x7b" ++ Register.listText point.registers ++ "\x7d") ++ "" ++ (", " ++ target.text) ++ "" ++
        "" := rfl
  have hcall : point.callText target =
      "invoke-static \x7b" ++ Register.listText point.registers ++ "\x7d, " ++ target.text := rfl
  rw [← String.toList_inj, htext, hcall]
  simp

variable {point : HookPoint} {target : MethodRef} {descriptor : String}

theorem assembled_call (htarget : MethodRef.parse descriptor = .ok target)
    (hwritable : target.Writable) : Assembled (point.call target) := by
  obtain ⟨last, hclosed, hoperand⟩ := hwritable
  have hread : readReference .method target.text.toList = .ok (.method target) := by
    have htrimmed : MethodRef.read (trim (trim descriptor.toList)) = .ok target := by
      rw [MethodRef.read_trim_eq_ok_iff, MethodRef.read_trim_eq_ok_iff]
      exact htarget
    rw [readReference_eq_ok_iff, MethodRef.toList_text_of_read htarget]
    simp only [Reference.read, htrimmed, Except.map]
  refine ⟨ofMnemonic?_invokeStatic, fun count hcount => ?_, .reference hclosed hoperand hread⟩
  cases hcount

theorem writable_of_assembled (h : Assembled (point.call target)) : target.Writable := by
  have htrails : Trails (.reference .method) none (some (.method target)) none none := h.trails
  cases htrails with
  | reference closed operand _ => exact ⟨_, closed, operand⟩

/-- The call is assembled from its text exactly if its reference can be written. -/
theorem assembleOne_callText_iff (htarget : MethodRef.parse descriptor = .ok target)
    (method : Method) (index : Nat) :
    (∃ item, method.assembleOne index (point.callText target) = .ok item) ↔ target.Writable := by
  constructor
  · rintro ⟨item, hitem⟩
    have hcall := assembleOne_callText htarget hitem
    obtain ⟨items, hitems, hitem⟩ := bind_eq_ok_iff.mp hitem
    split at hitem
    · cases hitem
      rw [hcall] at hitems
      exact writable_of_assembled (assembled_of_mem hitems (List.mem_singleton_self _))
    · cases hitem
  · intro hwritable
    have hassembled : Assembled (point.call target) := assembled_call htarget hwritable
    have hplain : (point.call target).Plain := ⟨nofun, nofun⟩
    refine ⟨point.call target, ?_⟩
    rw [Method.assembleOne, ← text_call, assembleAt_text hassembled,
      instructions_singleton_iff.mpr (instruction_operandTexts hassembled hplain nofun)]
    rfl

end HookPoint

end DexGraft
