import DexGraft.Proofs.Smali.Assembly
import DexGraft.Smali.Listing

/-!
# Listings read back

The body of a listing consists of lines that each hold a label or an instruction.  The labels are
named for the indices in front of which they stand, so assembling these lines finds every target
again.
-/

namespace DexGraft.Smali

open Text Outcome

/-! ## The lines of a listing -/

/-- The line with the label of the index, if the index is a target. -/
def listedLabel (targets : List Nat) (index : Nat) : List Line :=
  if index ∈ targets then [.label (labelName index)] else []

/-- The lines of the body of a listing from the given index on. -/
def listedLines (targets : List Nat) (index : Nat) : List Instruction → List Line
  | [] => listedLabel targets index
  | item :: rest =>
    listedLabel targets index ++ .instruction item.opcode item.operandTexts ::
      listedLines targets (index + 1) rest

/-- Lines with their numbers, as reading them provides. -/
def numbered (first : Nat) : List Line → List (Nat × Line)
  | [] => []
  | line :: lines => (first, line) :: numbered (first + 1) lines

/-- The blanks in front of the lines of a body. -/
def indent : List Char := [' ', ' ', ' ', ' ']

theorem blanks_indent : Blanks indent := blanks_of_all rfl

theorem toList_bodyLine (text : String) (rest : List Char) :
    (Listing.bodyLine text).toList ++ rest = (indent ++ text.toList) ++ '\n' :: rest := by
  simp [Listing.bodyLine, indent]

/-- An indented line reads as what it shows. -/
theorem linesFrom_bodyLine {text : String} {line : Line} {first : Nat} {rest : List Char}
    {lines : List (Nat × Line)} (htrim : trim text.toList = text.toList) (hne : text.toList ≠ [])
    (hline : '\n' ∉ text.toList) (hread : Line.read (indent ++ text.toList) = .ok line)
    (hrest : linesFrom (first + 1) (Text.lines rest) = .ok lines) :
    linesFrom first (Text.lines ((Listing.bodyLine text).toList ++ rest)) =
      .ok ((first, line) :: lines) := by
  have hlast : (indent ++ text.toList).getLast? ≠ some '\r' := by
    rw [List.getLast?_append_of_ne_nil _ hne]
    intro hreturn
    exact absurd ((trim_eq_self_iff.mp htrim).2 _ hreturn) (by decide)
  have hnewline : '\n' ∉ indent ++ text.toList := by
    rw [List.mem_append]
    rintro (hmem | hmem)
    · revert hmem
      decide
    · exact hline hmem
  rw [toList_bodyLine, lines_append rest hnewline hlast, linesFrom, hread, hrest]
  rfl

theorem read_labelText (index : Nat) :
    Line.read (indent ++ (Instruction.labelText index).toList) =
      .ok (.label (labelName index)) := by
  have hoperand := operand_labelText index
  have hblank : (labelName index).any isBlank = false := by
    rw [List.any_eq_false]
    intro c hc
    rw [(isWord_of_mem_labelName index c hc).2.1]
    nofun
  rw [Line.read_append blanks_indent hoperand.trimmed (stripComment_eq_self hoperand.passes),
    toList_labelText, Line.ofContent, hblank]
  rfl

theorem linesFrom_labelLine (method : Method) (index first : Nat) {rest : List Char}
    {lines : List Line}
    (hrest : ∀ first, linesFrom first (Text.lines rest) = .ok (numbered first lines)) :
    linesFrom first (Text.lines ((method.labelLine index).toList ++ rest)) =
      .ok (numbered first (listedLabel method.targets index ++ lines)) := by
  rw [Method.labelLine, listedLabel]
  split
  · have hoperand := operand_labelText index
    refine linesFrom_bodyLine hoperand.trimmed ?_ hoperand.oneLine (read_labelText index) (hrest _)
    rw [toList_labelText]
    nofun
  · exact hrest first

/-- The body of a listing reads as its lines. -/
theorem linesFrom_bodyListing (method : Method) {items : List Instruction}
    (h : ∀ item ∈ items, Assembled item) (index first : Nat) :
    linesFrom first (Text.lines (method.bodyListing index items).toList) =
      .ok (numbered first (listedLines method.targets index items)) := by
  induction items generalizing index first with
  | nil =>
      have hnil : ∀ first, linesFrom first (Text.lines []) = .ok (numbered first []) := fun _ => rfl
      have := linesFrom_labelLine method index first hnil
      rwa [List.append_nil, List.append_nil] at this
  | cons item items ih =>
      rw [List.forall_mem_cons] at h
      rw [Method.bodyListing, String.toList_append, String.toList_append, List.append_assoc]
      exact linesFrom_labelLine method index first fun first =>
        linesFrom_bodyLine (trim_text h.1) (text_ne_nil item) (not_mem_text h.1)
          (read_text h.1 blanks_indent) (ih h.2 (index + 1) (first + 1))

/-! ## The labels of a listing -/

theorem lookup_labelName_cons {labels : Labels} {index position j : Nat} (h : j ≠ index) :
    List.lookup (labelName j) ((labelName index, position) :: labels) =
      labels.lookup (labelName j) := by
  have hne : (labelName j == labelName index) = false :=
    beq_eq_false_iff_ne.mpr fun heq => h (labelName_injective heq)
  rw [List.lookup_cons, hne]

/-- A label that is new stands for the index that it is named for. -/
theorem labelsFrom_listedLabel (targets : List Nat) {index : Nat} (first : Nat) {labels : Labels}
    (lines : List Line) (hnew : labels.lookup (labelName index) = none) :
    ∃ labels', (∀ j, j ≠ index → labels'.lookup (labelName j) = labels.lookup (labelName j)) ∧
      (index ∈ targets → labels'.lookup (labelName index) = some index) ∧
      ∃ first', labelsFrom index labels (numbered first (listedLabel targets index ++ lines)) =
        labelsFrom index labels' (numbered first' lines) := by
  rw [listedLabel]
  split
  · refine ⟨(labelName index, index) :: labels, fun j => lookup_labelName_cons, fun _ => ?_,
      first + 1, ?_⟩
    · rw [List.lookup_cons_self]
    · rw [List.singleton_append, numbered, labelsFrom, hnew, Option.isSome_none,
        if_neg Bool.false_ne_true]
  · exact ⟨labels, fun _ _ => rfl, fun h => absurd h ‹_›, first, rfl⟩

/-- Every target up to the end of a listing has its label, and labels in front are kept. -/
theorem labelsFrom_listedLines {targets : List Nat} (items : List Instruction) {index first : Nat}
    {labels : Labels} (hnew : ∀ j, index ≤ j → labels.lookup (labelName j) = none) :
    ∃ labels', labelsFrom index labels (numbered first (listedLines targets index items)) =
        .ok labels' ∧
      (∀ j, j < index → labels'.lookup (labelName j) = labels.lookup (labelName j)) ∧
      ∀ j ∈ targets, index ≤ j → j ≤ index + items.length →
        labels'.lookup (labelName j) = some j := by
  induction items generalizing index first labels with
  | nil =>
      obtain ⟨labels', hother, hsame, first', heq⟩ :=
        labelsFrom_listedLabel targets first [] (hnew index le_rfl)
      rw [List.append_nil] at heq
      refine ⟨labels', heq, fun j hj => hother j hj.ne, fun j hmem hle hle' => ?_⟩
      have hj : j = index := le_antisymm hle' hle
      rw [hj] at hmem ⊢
      exact hsame hmem
  | cons item items ih =>
      obtain ⟨labels', hother, hsame, first', heq⟩ := labelsFrom_listedLabel targets first
        (.instruction item.opcode item.operandTexts :: listedLines targets (index + 1) items)
        (hnew index le_rfl)
      have hnew' : ∀ j, index + 1 ≤ j → labels'.lookup (labelName j) = none := by
        intro j hj
        rw [hother j (by omega), hnew j (by omega)]
      obtain ⟨labels'', hlabels, hfront, hback⟩ := ih hnew'
      refine ⟨labels'', ?_, fun j hj => ?_, fun j hmem hle hle' => ?_⟩
      · rw [listedLines, heq, numbered, labelsFrom, hlabels]
      · rw [hfront j (by omega), hother j hj.ne]
      · rcases hle.eq_or_lt with rfl | hlt
        · rw [hfront _ (Nat.lt_succ_self _), hsame hmem]
        · rw [List.length_cons] at hle'
          exact hback j hmem hlt (by omega)

/-! ## The instructions of a listing -/

theorem instructions_listedLabel (scope : Scope) (targets : List Nat) (index first : Nat)
    (lines : List Line) :
    ∃ first', instructions scope (numbered first (listedLabel targets index ++ lines)) =
      instructions scope (numbered first' lines) := by
  rw [listedLabel]
  split
  · exact ⟨first + 1, rfl⟩
  · exact ⟨first, rfl⟩

/-- With the labels of all targets, the lines of plain instructions read as the instructions. -/
theorem instructions_listedLines {scope : Scope} {targets : List Nat} {items : List Instruction}
    (h : ∀ item ∈ items, Assembled item) (hplain : ∀ item ∈ items, item.Plain)
    (hlabels : ∀ item ∈ items, ∀ target, item.target = some target →
      scope.labels.lookup (labelName target) = some target) (index first : Nat) :
    instructions scope (numbered first (listedLines targets index items)) = .ok items := by
  induction items generalizing index first with
  | nil =>
      obtain ⟨first', heq⟩ := instructions_listedLabel scope targets index first []
      rw [List.append_nil] at heq
      rw [listedLines, heq]
      rfl
  | cons item items ih =>
      rw [List.forall_mem_cons] at h hplain hlabels
      obtain ⟨first', heq⟩ := instructions_listedLabel scope targets index first
        (.instruction item.opcode item.operandTexts :: listedLines targets (index + 1) items)
      rw [listedLines, heq, numbered, instructions,
        instruction_operandTexts h.1 hplain.1 hlabels.1, ih h.2 hplain.2 hlabels.2]
      rfl

/-! ## Targets of assembled instructions -/

theorem length_of_instructions {scope : Scope} {lines : List (Nat × Line)}
    {items : List Instruction} (h : instructions scope lines = .ok items) :
    items.length = lines.countP (·.2.isInstruction) := by
  rw [← length_operations, (instructions_eq_ok_iff.mp h).length_eq]

/-- A target is what some label stands for. -/
theorem mem_of_target {scope : Scope} {lines : List (Nat × Line)} {items : List Instruction}
    (h : instructions scope lines = .ok items) {item : Instruction} (hmem : item ∈ items)
    {target : Nat} (htarget : item.target = some target) :
    ∃ name, (name, target) ∈ scope.labels := by
  obtain ⟨-, opcode, operands, -, hread⟩ := exists_of_mem_instructions h hmem
  obtain ⟨-, -, _, -, hreads⟩ := of_instruction hread
  rw [htarget] at hreads
  obtain ⟨text, hread⟩ := hreads.exists_readLabel
  obtain ⟨name, -, hlookup⟩ := readLabel_eq_ok_iff.mp hread
  exact ⟨name, mem_of_lookup hlookup⟩

/-- The targets of what is put in front of a body lead at most to its end. -/
theorem target_le_of_assemble {text : String} {method : Method} {items : List Instruction}
    (h : assemble text method = .ok items) {item : Instruction} (hmem : item ∈ items) {target : Nat}
    (htarget : item.target = some target) : target ≤ items.length := by
  obtain ⟨lines, -, h⟩ := bind_eq_ok_iff.mp h
  obtain ⟨labels, hlabels, h⟩ := bind_eq_ok_iff.mp h
  obtain ⟨name, hlabel⟩ := mem_of_target h hmem htarget
  obtain ⟨rfl, -, -⟩ := labelsFrom_eq_ok_iff.mp hlabels
  rw [externalLabels, List.reverse_nil, List.map_nil, List.append_nil, List.mem_reverse] at hlabel
  have hbound := (bounds_of_mem_definitions hlabel).2
  rwa [Nat.zero_add, length_operations, ← length_of_instructions h] at hbound

/-! ## Bodies -/

/--
Whatever text plain instructions were assembled from, the lines between the header and the end of a
listing of them assemble into the same instructions again, for any method.
-/
theorem assemble_bodyListing {text : String} {method : Method} {items : List Instruction}
    (h : assemble text method = .ok items) (hplain : ∀ item ∈ items, item.Plain)
    (frame other : Method) :
    ∃ body : String,
      { frame with body := items }.listing =
        ".method " ++ Listing.qualified frame.flags frame.signature ++ "\n" ++
          Listing.bodyLine (".registers " ++ Numeral.decimal frame.registers.toNat) ++
          body ++ ".end method\n" ∧
      assemble body other = .ok items := by
  have hassembled : ∀ item ∈ items, Assembled item := fun item => assembled_of_mem h
  set listed : Method := { frame with body := items }
  have hlines := linesFrom_bodyListing listed hassembled 0 1
  have hnew : ∀ j, 0 ≤ j → List.lookup (labelName j) ([] : Labels) = none := fun _ _ => rfl
  obtain ⟨labels, hlabels, -, hback⟩ := labelsFrom_listedLines items hnew
  have hbound : ∀ item ∈ items, ∀ target, item.target = some target →
      labels.lookup (labelName target) = some target := by
    intro item hmem target htarget
    have hlisted : target ∈ listed.targets := List.mem_filterMap.mpr ⟨item, hmem, htarget⟩
    have hle := target_le_of_assemble h hmem htarget
    exact hback target hlisted (Nat.zero_le _) (by rwa [Nat.zero_add])
  refine ⟨listed.bodyListing 0 items, rfl, ?_⟩
  rw [assemble, assembleAt, lines, hlines, ok_bind]
  show (labelsFrom 0 [] (numbered 1 _) >>= fun _ => _) = _
  rw [hlabels, ok_bind]
  exact instructions_listedLines hassembled hplain hbound 0 1

/-- A string with a comma and a number sign, and a branch to the end of the body. -/
theorem assemble_bodyListing_constString :
    let method : Method := ⟨"La;", "b", [], "V", .empty, 1, []⟩
    let items : List Instruction :=
      [⟨.constString, [0], none, some (.string "a, #"), none, none⟩,
        ⟨.ifEqz, [0], none, none, some 2, none⟩]
    assemble "const-string v0, \"a, #\"\nif-eqz v0, :end\n:end" method = .ok items ∧
      (∀ item ∈ items, item.Plain) ∧
      ∃ body : String,
        { method with body := items }.listing =
          ".method " ++ Listing.qualified method.flags method.signature ++ "\n" ++
            Listing.bodyLine (".registers " ++ Numeral.decimal method.registers.toNat) ++
            body ++ ".end method\n" ∧
        assemble body method = .ok items := by
  intro method items
  have assembles :
      assemble "const-string v0, \"a, #\"\nif-eqz v0, :end\n:end" method = .ok items := by decide
  have plain : ∀ item ∈ items, item.Plain := by decide
  exact ⟨assembles, plain, assemble_bodyListing assembles plain method method⟩

end DexGraft.Smali
