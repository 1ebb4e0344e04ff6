import DexGraft.Proofs.Smali.Content
import Mathlib.Logic.Relation

/-!
# Layout

Blanks around a line, a comment behind an instruction, and lines that hold no more than a comment make
no difference.  Comments are found and operands are split by two scans; the point is that they agree
on where the strings of a line end, for every line that holds an instruction.
-/

namespace DexGraft.Smali

open Text Outcome

/-! ## Layouts -/

/-- A line with nothing on it but blanks and a comment. -/
inductive Silent : List Char → Prop
  | blanks {blanks : List Char} (h : Blanks blanks) (oneLine : '\n' ∉ blanks) : Silent blanks
  | comment {blanks text : List Char} (h : Blanks blanks) (oneLine : '\n' ∉ blanks ++ text) :
      Silent (blanks ++ '#' :: text)

/-- A line, and what may stand in its place. -/
inductive Relaid : List Char → List Char → Prop
  | indented {line blanks : List Char} (h : Blanks blanks) (oneLine : '\n' ∉ blanks) :
      Relaid line (blanks ++ line)
  | trailed {line blanks : List Char} (h : Blanks blanks) (oneLine : '\n' ∉ blanks) :
      Relaid line (line ++ blanks)
  | commented {line text : List Char} {opcode : Opcode} {operands : List (List Char)}
      (instruction : Line.read line = .ok (.instruction opcode operands)) (oneLine : '\n' ∉ text) :
      Relaid line (line ++ '#' :: text)
  | filled {line line' : List Char} (blank : Silent line) (silent : Silent line') :
      Relaid line line'
  | above {line gap : List Char} (silent : Silent gap) : Relaid line (gap ++ '\n' :: line)
  | below {line gap : List Char} (silent : Silent gap) : Relaid line (line ++ '\n' :: gap)

/-- A text begins here, or a line. -/
inductive Starts : List Char → Prop
  | text : Starts []
  | line (front : List Char) : Starts (front ++ ['\n'])

/-- A text ends here, or a line. -/
inductive Ends : List Char → Prop
  | text : Ends []
  | lineFeed (back : List Char) : Ends ('\n' :: back)
  | carriageReturn (back : List Char) : Ends ('\r' :: '\n' :: back)

/-- A text, and one in which one of the lines is laid out in another way. -/
inductive Reformats : List Char → List Char → Prop
  | line {front line line' back : List Char} (starts : Starts front) (ends : Ends back)
      (oneLine : '\n' ∉ line) (relaid : Relaid line line') :
      Reformats (front ++ line ++ back) (front ++ line' ++ back)

/-! ## What a text says -/

/-- What was read says something, if only that the text cannot be assembled. -/
def speaks : Except AssemblyFault Line → Bool
  | .ok line => line.speaks
  | .error _ => true

/-- What the lines of a text say. -/
def said (cs : List Char) : List (Except AssemblyFault Line) :=
  ((parts (· == '\n') cs).map Line.read).filter speaks

theorem said_line {cs : List Char} (h : '\n' ∉ cs) : said cs = [Line.read cs].filter speaks := by
  have hline : ∀ c ∈ cs, (c == '\n') = false := by
    rintro c hc
    exact beq_eq_false_iff_ne.mpr fun heq => h (heq ▸ hc)
  rw [said, parts_eq_singleton hline, List.map_singleton]

theorem said_append_lineFeed (a b : List Char) : said (a ++ '\n' :: b) = said a ++ said b := by
  rw [said, parts_append_cons a b (c := '\n') rfl, List.map_append, List.filter_append]
  rfl

theorem said_silent {cs : List Char} (h : Silent cs) : said cs = [] := by
  cases h with
  | blanks h oneLine =>
      rw [said_line oneLine, Line.read_blanks h]
      rfl
  | @comment blanks text h oneLine =>
      have hline : '\n' ∉ blanks ++ '#' :: text := by simpa using oneLine
      rw [said_line hline, Line.read_blanks_comment h]
      rfl

theorem said_append_blanks (cs : List Char) {back : List Char} (hback : Blanks back)
    (hline : '\n' ∉ back) : said (cs ++ back) = said cs := by
  by_cases hmem : '\n' ∈ cs
  · obtain ⟨front, rest, rfl, -⟩ := List.eq_append_cons_of_mem hmem
    have hshorter : rest.length < (front ++ '\n' :: rest).length := by
      rw [List.length_append, List.length_cons]
      omega
    rw [List.append_assoc, List.cons_append, said_append_lineFeed,
      said_append_blanks rest hback hline, said_append_lineFeed]
  · have hboth : '\n' ∉ cs ++ back := by simp [hmem, hline]
    rw [said_line hboth, said_line hmem, Line.read_append_blanks cs hback]
termination_by cs.length

/-- What stands on the other lines is said in front of what a line says, and behind it. -/
theorem exists_said_eq {front back : List Char} (hfront : Starts front) (hback : Ends back) :
    ∃ before after, ∀ cs, said (front ++ cs ++ back) = before ++ said cs ++ after := by
  have hbefore : ∃ before, ∀ cs, said (front ++ cs) = before ++ said cs := by
    cases hfront with
    | text => exact ⟨[], fun cs => rfl⟩
    | line front =>
        refine ⟨said front, fun cs => ?_⟩
        rw [List.append_assoc, List.singleton_append, said_append_lineFeed]
  have hafter : ∃ after, ∀ cs, said (cs ++ back) = said cs ++ after := by
    cases hback with
    | text => exact ⟨[], fun cs => by rw [List.append_nil, List.append_nil]⟩
    | lineFeed back => exact ⟨said back, fun cs => said_append_lineFeed cs back⟩
    | carriageReturn back =>
        refine ⟨said back, fun cs => ?_⟩
        have hreturn : Blanks ['\r'] := blanks_of_all rfl
        rw [← List.singleton_append, ← List.append_assoc, said_append_lineFeed,
          said_append_blanks cs hreturn (by decide)]
  obtain ⟨before, hbefore⟩ := hbefore
  obtain ⟨after, hafter⟩ := hafter
  exact ⟨before, after, fun cs => by rw [hafter, hbefore]⟩

theorem said_relaid {line line' : List Char} (h : Relaid line line') (hline : '\n' ∉ line) :
    said line' = said line := by
  cases h with
  | @indented blanks h oneLine =>
      have hboth : '\n' ∉ blanks ++ line := by simp [hline, oneLine]
      rw [said_line hboth, said_line hline, Line.read_blanks_append line h]
  | trailed h oneLine => exact said_append_blanks line h oneLine
  | @commented text opcode operands instruction oneLine =>
      have hboth : '\n' ∉ line ++ '#' :: text := by simp [hline, oneLine]
      rw [said_line hboth, said_line hline, Line.read_append_comment instruction]
  | filled blank silent => rw [said_silent blank, said_silent silent]
  | above silent => rw [said_append_lineFeed, said_silent silent, List.nil_append]
  | below silent => rw [said_append_lineFeed, said_silent silent, List.append_nil]

/-- One step of laying out a text in another way changes nothing of what it says. -/
theorem Reformats.said_eq {cs cs' : List Char} (h : Reformats cs cs') : said cs' = said cs := by
  cases h with
  | line starts ends oneLine relaid =>
      obtain ⟨before, after, heq⟩ := exists_said_eq starts ends
      rw [heq, heq, said_relaid relaid oneLine]

/-! ## What is assembled -/

theorem filter_linesFrom {begun : List Char} (hbegun : '\n' ∉ begun) (cs : List Char) :
    ((Text.linesFrom begun cs).map Line.read).filter speaks = said (begun.reverse ++ cs) := by
  have hreverse : ∀ {begun : List Char}, '\n' ∉ begun → '\n' ∉ begun.reverse := fun h hmem =>
    h (List.mem_reverse.mp hmem)
  induction cs generalizing begun with
  | nil =>
      rw [Text.linesFrom, List.append_nil]
      split
      · rename_i hempty
        rw [List.isEmpty_iff.mp hempty]
        rfl
      · rw [said_line (hreverse hbegun)]
        rfl
  | cons c cs ih =>
      by_cases hc : c = '\n'
      · subst hc
        have hnil : ((Text.linesFrom [] cs).map Line.read).filter speaks = said cs :=
          ih List.not_mem_nil
        rw [said_append_lineFeed, said_line (hreverse hbegun)]
        rcases linesFrom_lineFeed begun cs with ⟨heq, -⟩ | ⟨rest, rfl, heq⟩
        · rw [heq, ← List.singleton_append, List.map_append, List.filter_append, hnil]
          rfl
        · -- the carriage return says nothing
          rw [heq, List.reverse_cons, Line.read_append_return, ← List.singleton_append,
            List.map_append, List.filter_append, hnil]
          rfl
      · have hmore : '\n' ∉ c :: begun := by
          rw [List.mem_cons, not_or]
          exact ⟨Ne.symm hc, hbegun⟩
        rw [linesFrom_cons _ _ hc, ih hmore, List.reverse_cons, List.append_assoc,
          List.singleton_append]

/-- What a text says is what its lines say. -/
theorem said_eq (text : String) :
    said text.toList = ((Text.lines text.toList).map Line.read).filter speaks :=
  (filter_linesFrom List.not_mem_nil text.toList).symm

theorem said_of_hasLines {text : String} {lines : List Line} (h : HasLines text lines) :
    said text.toList = (lines.filter Line.speaks).map .ok := by
  rw [said_eq, h, List.filter_map]
  rfl

/-- A text has lines if all that it says can be assembled. -/
theorem exists_hasLines {text : String} {lines : List Line}
    (h : said text.toList = lines.map .ok) :
    ∃ all, HasLines text all ∧ all.filter Line.speaks = lines := by
  rw [said_eq] at h
  unfold HasLines
  generalize (Text.lines text.toList).map Line.read = readings at h
  induction readings generalizing lines with
  | nil =>
      refine ⟨[], rfl, ?_⟩
      exact (List.map_eq_nil_iff.mp h.symm).symm
  | cons reading readings ih =>
      cases hspeaks : speaks reading with
      | true =>
          rw [List.filter_cons_of_pos hspeaks, eq_comm, List.map_eq_cons_iff] at h
          obtain ⟨line, rest, rfl, rfl, hrest⟩ := h
          obtain ⟨all, rfl, rfl⟩ := ih hrest.symm
          exact ⟨line :: all, rfl, List.filter_cons_of_pos hspeaks⟩
      | false =>
          rw [List.filter_cons_of_neg (by simp [hspeaks])] at h
          obtain ⟨all, rfl, rfl⟩ := ih h
          rcases reading with fault | line
          · cases hspeaks
          · exact ⟨line :: all, rfl, List.filter_cons_of_neg (by simpa [speaks] using hspeaks)⟩

/-- What a text is assembled into depends on what it says, and on nothing else. -/
theorem assembleAt_of_said_eq {text text' : String} (h : said text'.toList = said text.toList)
    {method : Method} {base : Nat} {external : List ExternalLabel} {items : List Instruction}
    (hassemble : assembleAt text method base external = .ok items) :
    assembleAt text' method base external = .ok items := by
  obtain ⟨lines, hlines, hnames, hnew, hitems⟩ := assembleAt_eq_ok_iff.mp hassemble
  obtain ⟨lines', hlines', hsaid⟩ := exists_hasLines (h.trans (said_of_hasLines hlines))
  have hoperations : operations lines' = operations lines := by
    rw [← operations_filter_speaks, hsaid, operations_filter_speaks]
  have hdefinitions : ∀ position, definitions position lines' = definitions position lines := by
    intro position
    rw [← definitions_filter_speaks, hsaid, definitions_filter_speaks]
  have hlabelNames : labelNames lines' = labelNames lines := by
    rw [labelNames, hdefinitions, labelNames]
  have hlabels : labelsOf base external lines' = labelsOf base external lines := by
    rw [labelsOf, hdefinitions, hoperations, labelsOf]
  refine assembleAt_eq_ok_iff.mpr ⟨lines', hlines', ?_, ?_, ?_⟩
  · rwa [hlabelNames]
  · rwa [hlabelNames]
  · rwa [hlabels, hoperations]

theorem said_eq_of_reflTransGen {cs cs' : List Char}
    (h : Relation.ReflTransGen Reformats cs cs') : said cs' = said cs := by
  induction h with
  | refl => rfl
  | tail _ step ih => rw [step.said_eq, ih]

/--
Whatever is done to the layout of a text, it is assembled into the same instructions, or remains
without instructions: blanks around lines, comments behind instructions, and lines in between that say
nothing make no difference, be there quotes, commas, or number signs in the strings of the text.
-/
theorem layout_keeps_instructions {text text' : String}
    (h : Relation.ReflTransGen Reformats text.toList text'.toList) (method : Method) (base : Nat)
    (external : List ExternalLabel) (items : List Instruction) :
    assembleAt text method base external = .ok items ↔
      assembleAt text' method base external = .ok items := by
  have hsaid := said_eq_of_reflTransGen h
  exact ⟨assembleAt_of_said_eq hsaid, assembleAt_of_said_eq hsaid.symm⟩

/-- A comment that opens a string, behind a string with all that a comment or an operand ends at. -/
theorem layout_keeps_instructions_quoted :
    let text := ":top\nconst-string v0, \"#,\\\"\\\\\"\ngoto :top"
    let text' := "# begin\n:top\n\tconst-string v0, \"#,\\\"\\\\\"# \"end\ngoto :top"
    let method : Method := ⟨"La;", "b", [], "V", .empty, 1, []⟩
    let items : List Instruction :=
      [⟨.constString, [0], none, some (.string "#,\"\\"), none, none⟩,
        ⟨.goto, [], none, none, some 0, none⟩]
    Relation.ReflTransGen Reformats text.toList text'.toList ∧
      assembleAt text method 0 [] = .ok items ∧ assembleAt text' method 0 [] = .ok items := by
  intro text text' method items
  let top := ":top".toList
  let line := "const-string v0, \"#,\\\"\\\\\"".toList
  let comment := "# \"end".toList
  let back := "\ngoto :top".toList
  have commented : Reformats (top ++ ['\n'] ++ line ++ back)
      (top ++ ['\n'] ++ (line ++ comment) ++ back) :=
    .line (.line top) (.lineFeed _) (by decide)
      (.commented (show Line.read line = .ok (.instruction .constString _) from rfl) (by decide))
  have indented : Reformats (top ++ ['\n'] ++ (line ++ comment) ++ back)
      (top ++ ['\n'] ++ (['\t'] ++ (line ++ comment)) ++ back) :=
    .line (.line top) (.lineFeed _) (by decide) (.indented (blanks_of_all rfl) (by decide))
  have above : Reformats ([] ++ top ++ ('\n' :: '\t' :: (line ++ comment ++ back)))
      ([] ++ ("# begin".toList ++ '\n' :: top) ++ ('\n' :: '\t' :: (line ++ comment ++ back))) :=
    .line .text (.lineFeed _) (by decide) (.above (.comment (List.forall_mem_nil _) (by decide)))
  have between : top ++ ['\n'] ++ (['\t'] ++ (line ++ comment)) ++ back =
      [] ++ top ++ ('\n' :: '\t' :: (line ++ comment ++ back)) := by decide
  have laid : Relation.ReflTransGen Reformats text.toList text'.toList := by
    have begins : text.toList = top ++ ['\n'] ++ line ++ back := by decide
    have ends : text'.toList = [] ++ ("# begin".toList ++ '\n' :: top) ++
        ('\n' :: '\t' :: (line ++ comment ++ back)) := by decide
    rw [begins, ends]
    exact .head commented (.head (between ▸ indented) (.single above))
  have assembled : assembleAt text method 0 [] = .ok items := by decide
  exact ⟨laid, assembled, (layout_keeps_instructions laid method 0 [] items).mp assembled⟩

end DexGraft.Smali
