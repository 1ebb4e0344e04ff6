import DexGraft.Proofs.Smali.Line
import DexGraft.Smali.Assembly
import Mathlib.Data.List.Nodup

/-!
# What a text says

A text is assembled by what its lines say, whatever their numbers: the instructions that they hold,
each with the operands that it is written with, and the labels, each of which stands for as many
instructions as there are in front of it.  Both of these are lists which are joined when texts are.
-/

namespace DexGraft.Smali

open Outcome

/-! ## Lines -/

/-- The opcode and the operands that the line holds. -/
def Line.operation? : Line → Option (Opcode × List (List Char))
  | .instruction opcode operands => some (opcode, operands)
  | .blank | .label _ => none

theorem exists_of_operation? {line : Line} {operation : Opcode × List (List Char)}
    (h : line.operation? = some operation) :
    ∃ opcode operands, line = .instruction opcode operands := by
  cases line with
  | blank => cases h
  | label name => cases h
  | instruction opcode operands => exact ⟨opcode, operands, rfl⟩

/-- The instructions of the lines, as they are written. -/
def operations (lines : List Line) : List (Opcode × List (List Char)) :=
  lines.filterMap Line.operation?

/-- The labels of the lines, the next instruction of which has index `position`, with what they
stand for. -/
def definitions (position : Nat) : List Line → Labels
  | [] => []
  | .blank :: rest => definitions position rest
  | .label name :: rest => (name, position) :: definitions position rest
  | .instruction .. :: rest => definitions (position + 1) rest

/-- The names of the labels of the lines. -/
def labelNames (lines : List Line) : List (List Char) := (definitions 0 lines).map (·.1)

theorem operations_append (front back : List Line) :
    operations (front ++ back) = operations front ++ operations back :=
  List.filterMap_append

theorem definitions_append (position : Nat) (front back : List Line) :
    definitions position (front ++ back) =
      definitions position front ++ definitions (position + (operations front).length) back := by
  induction front generalizing position with
  | nil => rfl
  | cons line front ih =>
      rcases line with - | name | ⟨opcode, operands⟩
      · exact ih position
      · exact congrArg ((name, position) :: ·) (ih position)
      · show definitions (position + 1) (front ++ back) = _
        rw [ih (position + 1), Nat.add_assoc, Nat.add_comm 1]
        rfl

/-- Labels stand for instructions further behind when there are others in front. -/
theorem definitions_add (count position : Nat) (lines : List Line) :
    definitions (count + position) lines =
      (definitions position lines).map fun label => (label.1, count + label.2) := by
  induction lines generalizing position with
  | nil => rfl
  | cons line lines ih =>
      rcases line with - | name | ⟨opcode, operands⟩
      · exact ih position
      · exact congrArg ((name, count + position) :: ·) (ih position)
      · exact ih (position + 1)

theorem mem_definitions_add {name : List Char} {place : Nat} {lines : List Line}
    (h : (name, place) ∈ definitions 0 lines) (base : Nat) :
    (name, base + place) ∈ definitions base lines := by
  rw [← Nat.add_zero base, definitions_add]
  exact List.mem_map.mpr ⟨(name, place), h, rfl⟩

theorem map_fst_definitions (position : Nat) (lines : List Line) :
    (definitions position lines).map (·.1) = labelNames lines := by
  rw [← Nat.add_zero position, definitions_add, List.map_map]
  rfl

/-- A label stands for as many instructions as there are in front of the line that holds it. -/
theorem mem_definitions_iff {position place : Nat} {lines : List Line} {name : List Char} :
    (name, place) ∈ definitions position lines ↔ ∃ before after,
      lines = before ++ .label name :: after ∧ place = position + (operations before).length := by
  constructor
  · intro h
    induction lines generalizing position with
    | nil => cases h
    | cons line lines ih =>
        rcases line with - | other | ⟨opcode, operands⟩
        · obtain ⟨before, after, rfl, rfl⟩ := ih h
          exact ⟨.blank :: before, after, rfl, rfl⟩
        · rcases List.mem_cons.mp h with heq | h
          · cases heq
            exact ⟨[], lines, rfl, rfl⟩
          · obtain ⟨before, after, rfl, rfl⟩ := ih h
            exact ⟨.label other :: before, after, rfl, rfl⟩
        · obtain ⟨before, after, rfl, rfl⟩ := ih h
          refine ⟨.instruction opcode operands :: before, after, rfl, ?_⟩
          rw [Nat.add_assoc, Nat.add_comm 1]
          rfl
  · rintro ⟨before, after, rfl, rfl⟩
    rw [definitions_append]
    exact List.mem_append_right _ List.mem_cons_self

theorem mem_labelNames {name : List Char} {lines : List Line} :
    name ∈ labelNames lines ↔ Line.label name ∈ lines := by
  constructor
  · intro h
    obtain ⟨⟨_, place⟩, hmem, rfl⟩ := List.mem_map.mp h
    obtain ⟨before, after, rfl, -⟩ := mem_definitions_iff.mp hmem
    exact List.mem_append_right _ List.mem_cons_self
  · intro h
    obtain ⟨before, after, rfl⟩ := List.append_of_mem h
    exact List.mem_map.mpr ⟨_, mem_definitions_iff.mpr ⟨before, after, rfl, rfl⟩, rfl⟩

/-- A label stands for one of the instructions, or for the place behind them. -/
theorem bounds_of_mem_definitions {position place : Nat} {lines : List Line} {name : List Char}
    (h : (name, place) ∈ definitions position lines) :
    position ≤ place ∧ place ≤ position + (operations lines).length := by
  obtain ⟨before, after, rfl, rfl⟩ := mem_definitions_iff.mp h
  rw [operations_append, List.length_append]
  omega

/-- The line holds a label or an instruction. -/
def Line.speaks : Line → Bool
  | .blank => false
  | .label _ | .instruction .. => true

/-- Blank lines say nothing. -/
theorem operations_filter_speaks (lines : List Line) :
    operations (lines.filter Line.speaks) = operations lines := by
  induction lines with
  | nil => rfl
  | cons line lines ih =>
      cases line with
      | blank => exact ih
      | label name => exact ih
      | instruction opcode operands => exact congrArg ((opcode, operands) :: ·) ih

theorem definitions_filter_speaks (position : Nat) (lines : List Line) :
    definitions position (lines.filter Line.speaks) = definitions position lines := by
  induction lines generalizing position with
  | nil => rfl
  | cons line lines ih =>
      cases line with
      | blank => exact ih position
      | label name => exact congrArg ((name, position) :: ·) (ih position)
      | instruction opcode operands => exact ih (position + 1)

theorem filter_speaks_of_forall_blank {lines : List Line} (h : ∀ line ∈ lines, line = .blank) :
    lines.filter Line.speaks = [] := by
  refine List.filter_eq_nil_iff.mpr fun line hmem => ?_
  rw [h line hmem]
  exact Bool.false_ne_true

theorem operations_of_forall_blank {lines : List Line} (h : ∀ line ∈ lines, line = .blank) :
    operations lines = [] := by
  rw [← operations_filter_speaks, filter_speaks_of_forall_blank h]
  rfl

theorem definitions_of_forall_blank {lines : List Line} (h : ∀ line ∈ lines, line = .blank)
    (position : Nat) : definitions position lines = [] := by
  rw [← definitions_filter_speaks, filter_speaks_of_forall_blank h]
  rfl

theorem length_operations (lines : List (Nat × Line)) :
    (operations (lines.map (·.2))).length = lines.countP (·.2.isInstruction) := by
  induction lines with
  | nil => rfl
  | cons line lines ih =>
      rcases line with ⟨number, - | name | ⟨opcode, operands⟩⟩
      · exact ih
      · exact ih
      · rw [List.countP_cons_of_pos rfl, ← ih]
        rfl

/-! ## Texts -/

/-- The lines of the text read as these. -/
def HasLines (text : String) (lines : List Line) : Prop :=
  (Text.lines text.toList).map Line.read = lines.map .ok

theorem linesFrom_eq_ok_iff {first : Nat} {texts : List (List Char)} {lines : List Line} :
    (∃ numbered, linesFrom first texts = .ok numbered ∧ numbered.map (·.2) = lines) ↔
      texts.map Line.read = lines.map .ok := by
  induction texts generalizing first lines with
  | nil =>
      rw [List.map_nil, eq_comm, List.map_eq_nil_iff]
      constructor
      · rintro ⟨_, ⟨⟩, rfl⟩
        rfl
      · rintro rfl
        exact ⟨[], rfl, rfl⟩
  | cons text texts ih =>
      rw [List.map_cons, eq_comm, List.map_eq_cons_iff]
      constructor
      · rintro ⟨numbered, h, rfl⟩
        rw [linesFrom] at h
        split at h
        · rename_i line hread
          obtain ⟨rest, hrest, rfl⟩ := map_eq_ok_iff.mp h
          exact ⟨line, rest.map (·.2), rfl, hread.symm, (ih.mp ⟨rest, hrest, rfl⟩).symm⟩
        · cases h
      · rintro ⟨line, rest, rfl, hread, hrest⟩
        obtain ⟨numbered, hnumbered, rfl⟩ := ih.mpr hrest.symm
        refine ⟨(first, line) :: numbered, ?_, rfl⟩
        rw [linesFrom, ← hread, hnumbered]
        rfl

/-- A text has the lines that it reads as. -/
theorem hasLines_iff {text : String} {lines : List Line} :
    HasLines text lines ↔
      ∃ numbered, Smali.lines text = .ok numbered ∧ numbered.map (·.2) = lines :=
  linesFrom_eq_ok_iff.symm

/-- A text with another one behind it, on lines of its own, says what both say. -/
theorem HasLines.joined {front back : String} {lines lines' : List Line}
    (hfront : HasLines front lines) (hback : HasLines back lines') :
    ∃ gap, (∀ line ∈ gap, line = .blank) ∧
      HasLines (front ++ "\n" ++ back) (lines ++ gap ++ lines') := by
  obtain ⟨begun, last, hended, hopen⟩ := Text.exists_linesFrom_append_singleton [] front.toList
  have hlines : Text.lines (front ++ "\n" ++ back).toList =
      begun ++ [last] ++ Text.lines back.toList := by
    rw [← hended, Text.lines, ← Text.linesFrom_append_lineFeed]
    simp
  -- an empty line more is blank, and a carriage return less makes no difference
  have hread : ∃ gap, (∀ line ∈ gap, line = .blank) ∧
      (begun ++ [last]).map Line.read = (lines ++ gap).map .ok := by
    rw [HasLines, Text.lines] at hfront
    rcases hopen with ⟨hall, rfl⟩ | hall | hall
    · refine ⟨[.blank], List.forall_mem_singleton.mpr rfl, ?_⟩
      rw [List.map_append, List.map_append, ← hall, hfront]
      rfl
    · refine ⟨[], List.forall_mem_nil _, ?_⟩
      rw [List.append_nil, ← hall, hfront]
    · refine ⟨[], List.forall_mem_nil _, ?_⟩
      rw [List.append_nil, ← hfront, hall]
      simp [Line.read_append_return]
  obtain ⟨gap, hgap, hread⟩ := hread
  refine ⟨gap, hgap, ?_⟩
  rw [HasLines, hlines, List.map_append, hread, hback, ← List.map_append]

/-! ## Labels -/

theorem lookup_cons_eq_none_iff {name other : List Char} {position : Nat} {labels : Labels} :
    List.lookup other ((name, position) :: labels) = none ↔
      other ≠ name ∧ labels.lookup other = none := by
  simp [List.lookup_eq_none_iff]

/-- Labels are known if no two of them have one name, and none has the name of one that is known. -/
theorem labelsFrom_eq_ok_iff {position : Nat} {labels labels' : Labels}
    {lines : List (Nat × Line)} :
    labelsFrom position labels lines = .ok labels' ↔
      labels' = (definitions position (lines.map (·.2))).reverse ++ labels ∧
        (labelNames (lines.map (·.2))).Nodup ∧
        ∀ name ∈ labelNames (lines.map (·.2)), labels.lookup name = none := by
  rw [← map_fst_definitions position]
  induction lines generalizing position labels with
  | nil =>
      constructor
      · rintro ⟨⟩
        exact ⟨rfl, .nil, List.forall_mem_nil _⟩
      · rintro ⟨rfl, -, -⟩
        rfl
  | cons line lines ih =>
      rcases line with ⟨number, - | name | ⟨opcode, operands⟩⟩
      · exact ih
      · simp only [List.map_cons, definitions, labelsFrom]
        split
        · rename_i hknown
          refine iff_of_false nofun ?_
          rintro ⟨-, -, hnew⟩
          rw [hnew name List.mem_cons_self] at hknown
          cases hknown
        · rename_i hnew
          rw [Option.not_isSome_iff_eq_none] at hnew
          rw [ih, List.nodup_cons, List.forall_mem_cons, List.reverse_cons, List.append_assoc,
            List.singleton_append]
          simp only [lookup_cons_eq_none_iff, forall₂_and, List.forall_mem_ne']
          tauto
      · exact ih

theorem mem_of_lookup {labels : Labels} {name : List Char} {index : Nat}
    (h : labels.lookup name = some index) : (name, index) ∈ labels := by
  obtain ⟨front, back, rfl, -⟩ := List.lookup_eq_some_iff.mp h
  simp

/-- A name that is listed once is found with what it is listed with. -/
theorem lookup_eq_some_iff_mem {labels : Labels} (h : (labels.map (·.1)).Nodup)
    {name : List Char} {position : Nat} :
    labels.lookup name = some position ↔ (name, position) ∈ labels := by
  induction labels with
  | nil => exact iff_of_false nofun nofun
  | cons label labels ih =>
      rcases label with ⟨other, place⟩
      rw [List.map_cons, List.nodup_cons] at h
      rw [List.mem_cons, List.lookup_cons]
      by_cases hname : name = other
      · subst hname
        have hnot : (name, position) ∉ labels := fun hmem =>
          h.1 (List.mem_map.mpr ⟨(name, position), hmem, rfl⟩)
        simp [hnot, eq_comm]
      · rw [beq_eq_false_iff_ne.mpr hname]
        simp [hname, ih h.2]

theorem forall_lookup_externalLabels_iff {base count : Nat} {external : List ExternalLabel}
    {names : List (List Char)} :
    (∀ name ∈ names, (externalLabels base count external).lookup name = none) ↔
      ∀ label ∈ external, label.name.toList ∉ names := by
  simp only [List.lookup_eq_none_iff, externalLabels, List.forall_mem_map, List.mem_reverse,
    bne_iff_ne]
  constructor
  · intro h label hlabel hname
    exact h _ hname label hlabel rfl
  · rintro h name hname label hlabel rfl
    exact h label hlabel hname

/-- Names stand for what the lines say, and others for what they stood for before. -/
theorem lookup_definitions_append_iff {position place : Nat} {lines : List Line} {labels : Labels}
    (hnames : (labelNames lines).Nodup)
    (hnew : ∀ name ∈ labelNames lines, labels.lookup name = none)
    {name : List Char} :
    ((definitions position lines).reverse ++ labels).lookup name = some place ↔
      (name, place) ∈ definitions position lines ∨ labels.lookup name = some place := by
  rw [← map_fst_definitions position] at hnames hnew
  have hnodup : ((definitions position lines).reverse.map (·.1)).Nodup := by
    rw [List.map_reverse, List.nodup_reverse]
    exact hnames
  rw [List.lookup_append, Option.or_eq_some_iff, lookup_eq_some_iff_mem hnodup, List.mem_reverse]
  refine or_congr_right (and_iff_right_of_imp fun hlookup => ?_)
  refine List.lookup_eq_none_iff.mpr fun label hmem => bne_iff_ne.mpr ?_
  rintro rfl
  rw [hnew _ (List.mem_map_of_mem (List.mem_reverse.mp hmem))] at hlookup
  cases hlookup

/-- What names stand for while a text with these lines is assembled. -/
def labelsOf (base : Nat) (external : List ExternalLabel) (lines : List Line) : Labels :=
  (definitions base lines).reverse ++ externalLabels base (operations lines).length external

theorem lookup_labelsOf_iff {base place : Nat} {external : List ExternalLabel} {lines : List Line}
    (hnames : (labelNames lines).Nodup)
    (hnew : ∀ label ∈ external, label.name.toList ∉ labelNames lines) {name : List Char} :
    (labelsOf base external lines).lookup name = some place ↔
      (name, place) ∈ definitions base lines ∨
        (externalLabels base (operations lines).length external).lookup name = some place :=
  lookup_definitions_append_iff hnames (forall_lookup_externalLabels_iff.mpr hnew)

/-- Without external labels, names stand for what the lines say. -/
theorem lookup_labelsOf_nil_iff {base : Nat} {lines : List Line} (hnames : (labelNames lines).Nodup)
    {name : List Char} {place : Nat} :
    (labelsOf base [] lines).lookup name = some place ↔ (name, place) ∈ definitions base lines := by
  rw [lookup_labelsOf_iff hnames (List.forall_mem_nil _)]
  exact or_iff_left nofun

/-! ## Instructions -/

/-- Each instruction is what its line reads as. -/
theorem instructions_eq_ok_iff {scope : Scope} {lines : List (Nat × Line)}
    {items : List Instruction} :
    instructions scope lines = .ok items ↔
      List.Forall₂ (fun operation item => instruction scope operation.1 operation.2 = .ok item)
        (operations (lines.map (·.2))) items := by
  induction lines generalizing items with
  | nil =>
      rw [List.map_nil, show operations [] = [] from rfl, List.forall₂_nil_left_iff]
      constructor
      · rintro ⟨⟩
        rfl
      · rintro rfl
        rfl
  | cons line lines ih =>
      rcases line with ⟨number, - | name | ⟨opcode, operands⟩⟩
      · exact ih
      · exact ih
      · rw [List.map_cons, show operations (.instruction opcode operands :: lines.map (·.2)) =
          (opcode, operands) :: operations (lines.map (·.2)) from rfl, List.forall₂_cons_left_iff,
          instructions]
        constructor
        · intro h
          split at h
          · rename_i item hitem
            obtain ⟨rest, hrest, rfl⟩ := map_eq_ok_iff.mp h
            exact ⟨item, rest, hitem, ih.mp hrest, rfl⟩
          · cases h
        · rintro ⟨item, rest, hitem, hrest, rfl⟩
          rw [hitem, ih.mpr hrest]
          rfl

theorem exists_of_mem_instructions {scope : Scope} {lines : List (Nat × Line)}
    {items : List Instruction} (h : instructions scope lines = .ok items) {item : Instruction}
    (hmem : item ∈ items) : ∃ number opcode operands,
      (number, Line.instruction opcode operands) ∈ lines ∧
        instruction scope opcode operands = .ok item := by
  obtain ⟨operation, hoperation, hread⟩ := exists_of_forall₂ (instructions_eq_ok_iff.mp h) hmem
  obtain ⟨line, hline, heq⟩ := List.mem_filterMap.mp hoperation
  obtain ⟨⟨number, _⟩, hmem, rfl⟩ := List.mem_map.mp hline
  obtain ⟨opcode, operands, rfl⟩ := exists_of_operation? heq
  cases heq
  exact ⟨number, opcode, operands, hmem, hread⟩

/-- Texts that say the same are assembled into the same. -/
theorem assembleAt_eq_ok_iff {text : String} {method : Method} {base : Nat}
    {external : List ExternalLabel} {items : List Instruction} :
    assembleAt text method base external = .ok items ↔ ∃ lines, HasLines text lines ∧
      (labelNames lines).Nodup ∧ (∀ label ∈ external, label.name.toList ∉ labelNames lines) ∧
      List.Forall₂ (fun operation item =>
        instruction ⟨method, labelsOf base external lines⟩ operation.1 operation.2 = .ok item)
        (operations lines) items := by
  constructor
  · intro h
    obtain ⟨numbered, hlines, h⟩ := bind_eq_ok_iff.mp h
    obtain ⟨labels, hlabels, h⟩ := bind_eq_ok_iff.mp h
    obtain ⟨rfl, hnames, hnew⟩ := labelsFrom_eq_ok_iff.mp hlabels
    rw [← length_operations] at h hnew
    have hitems := instructions_eq_ok_iff.mp h
    exact ⟨_, hasLines_iff.mpr ⟨numbered, hlines, rfl⟩, hnames,
      forall_lookup_externalLabels_iff.mp hnew, hitems⟩
  · rintro ⟨lines, htext, hnames, hnew, hitems⟩
    obtain ⟨numbered, hlines, rfl⟩ := hasLines_iff.mp htext
    have hlabels : labelsFrom base (externalLabels base
        (operations (numbered.map (·.2))).length external) numbered =
          .ok (labelsOf base external (numbered.map (·.2))) :=
      labelsFrom_eq_ok_iff.mpr ⟨rfl, hnames, forall_lookup_externalLabels_iff.mpr hnew⟩
    rw [length_operations] at hlabels
    simp only [assembleAt, hlines, ok_bind, hlabels]
    exact instructions_eq_ok_iff.mpr hitems

end DexGraft.Smali
