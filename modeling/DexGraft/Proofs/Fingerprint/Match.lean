import DexGraft.Proofs.Fingerprint.Window
import Mathlib.Data.List.Forall2

/-!
# The first match

A fingerprint says what a method has to look like: `Fingerprint.Describes` puts its conditions into
words, one by one.  The main statement is that a search finds the first method of the pool, or of one
class, that is as described, and what it reports of that method.
-/

namespace DexGraft

namespace OpcodePattern

variable {pattern : OpcodePattern} {body : List Instruction} {window : Window}

/-! ## Windows -/

/-- The run of the window is a part of the body and has the opcodes of the pattern, except where the
pattern leaves a place open.  A run has at least one instruction. -/
structure Matches (pattern : OpcodePattern) (body : List Instruction) (window : Window) : Prop where
  ordered : window.first ≤ window.last
  inside : window.last < body.length
  length_eq : window.last + 1 = window.first + pattern.length
  opcodes : ∀ i opcode, pattern[i]? = some (some opcode) →
    ∃ instruction, body[window.first + i]? = some instruction ∧ instruction.opcode = opcode

/-- No other run that has the opcodes of the pattern begins further in front. -/
structure Leftmost (pattern : OpcodePattern) (body : List Instruction) (window : Window) : Prop
    extends pattern.Matches body window where
  least : ∀ other, pattern.Matches body other → window.first ≤ other.first

theorem fits_iff : pattern.fits body ↔ pattern.length ≤ body.length ∧
    ∀ (i : Nat) (opcode : Opcode), pattern[i]? = some (some opcode) →
      ∃ instruction, body[i]? = some instruction ∧ instruction.opcode = opcode := by
  constructor
  · intro h
    refine ⟨?_, fun i opcode => of_fits h⟩
    induction pattern generalizing body with
    | nil => exact Nat.zero_le _
    | cons place pattern ih =>
        cases body with
        | nil => cases h
        | cons instruction body =>
            rw [fits, Bool.and_eq_true] at h
            exact Nat.succ_le_succ (ih h.2)
  · rintro ⟨hlength, hopcodes⟩
    induction pattern generalizing body with
    | nil => rfl
    | cons place pattern ih =>
        cases body with
        | nil => cases hlength
        | cons instruction body =>
            have hrest := ih (Nat.le_of_succ_le_succ hlength) fun i => hopcodes (i + 1)
            rw [fits, hrest, Bool.and_true]
            cases place with
            | none => rfl
            | some opcode =>
                obtain ⟨first, hfirst, hopcode⟩ := hopcodes 0 opcode rfl
                cases hfirst
                exact beq_iff_eq.mpr hopcode.symm

/-- The windows of a pattern begin where the rest of the body begins with a run that fits. -/
theorem fits_drop_iff (hne : pattern ≠ []) {first : Nat} (hfirst : first ≤ body.length) :
    pattern.fits (body.drop first) ↔
      pattern.Matches body ⟨first, first + pattern.length - 1⟩ := by
  have hpos : 0 < pattern.length := List.length_pos_iff.mpr hne
  rw [fits_iff, List.length_drop]
  constructor
  · rintro ⟨hlength, hopcodes⟩
    refine ⟨?_, ?_, ?_, fun i opcode hplace => ?_⟩
    · exact Nat.le_sub_one_of_lt (Nat.lt_add_of_pos_right hpos)
    · show first + pattern.length - 1 < body.length
      omega
    · exact Nat.sub_add_cancel (Nat.le_add_left_of_le hpos)
    · obtain ⟨instruction, hinstruction, hopcode⟩ := hopcodes i opcode hplace
      exact ⟨instruction, List.getElem?_drop ▸ hinstruction, hopcode⟩
  · intro h
    have hinside : first + pattern.length - 1 < body.length := h.inside
    refine ⟨by omega, fun i opcode hplace => ?_⟩
    obtain ⟨instruction, hinstruction, hopcode⟩ := h.opcodes i opcode hplace
    exact ⟨instruction, List.getElem?_drop ▸ hinstruction, hopcode⟩

theorem Matches.ne_nil (h : pattern.Matches body window) : pattern ≠ [] := by
  rintro rfl
  have hlength : window.last + 1 = window.first := h.length_eq
  have := h.ordered
  omega

/-- A window is known by where it begins. -/
theorem Matches.window_eq (h : pattern.Matches body window) :
    window = ⟨window.first, window.first + pattern.length - 1⟩ := by
  rw [← h.length_eq]
  rfl

theorem Matches.fits_drop (h : pattern.Matches body window) :
    pattern.fits (body.drop window.first) := by
  have hfirst : window.first ≤ body.length := Nat.le_trans h.ordered (Nat.le_of_lt h.inside)
  rw [fits_drop_iff h.ne_nil hfirst, ← h.window_eq]
  exact h

theorem findFit?_eq_some_iff {first : Nat} : pattern.findFit? body = some first ↔
    first < body.length ∧ pattern.fits (body.drop first) ∧
      ∀ other < first, ¬ pattern.fits (body.drop other) := by
  induction body generalizing first with
  | nil =>
      constructor
      · rintro ⟨⟩
      · rintro ⟨⟨⟩, -⟩
  | cons instruction body ih =>
      rw [findFit?]
      split
      · rename_i hfits
        constructor
        · rintro ⟨⟩
          exact ⟨Nat.zero_lt_succ _, hfits, fun other hother =>
            absurd hother (Nat.not_lt_zero other)⟩
        · rintro ⟨-, -, hleast⟩
          cases first with
          | zero => rfl
          | succ first => exact absurd hfits (hleast 0 (Nat.zero_lt_succ _))
      · rename_i hfits
        rw [Option.map_eq_some_iff]
        constructor
        · rintro ⟨first, hfirst, rfl⟩
          obtain ⟨hlt, hfit, hleast⟩ := ih.mp hfirst
          refine ⟨Nat.succ_lt_succ hlt, hfit, fun other hother => ?_⟩
          cases other with
          | zero => exact hfits
          | succ other => exact hleast other (Nat.lt_of_succ_lt_succ hother)
        · rintro ⟨hlt, hfit, hleast⟩
          cases first with
          | zero => exact absurd hfit hfits
          | succ first =>
              exact ⟨first, ih.mpr ⟨Nat.lt_of_succ_lt_succ hlt, hfit, fun other hother =>
                hleast (other + 1) (Nat.succ_lt_succ hother)⟩, rfl⟩

theorem not_fits_of_findFit?_eq_none (h : pattern.findFit? body = none) {first : Nat}
    (hfirst : first < body.length) : ¬ pattern.fits (body.drop first) := by
  induction body generalizing first with
  | nil => cases hfirst
  | cons instruction body ih =>
      rw [findFit?] at h
      split at h
      · cases h
      rename_i hfits
      cases first with
      | zero => exact hfits
      | succ first =>
          exact ih (Option.map_eq_none_iff.mp h) (Nat.lt_of_succ_lt_succ hfirst)

/-- A scan finds the leftmost window. -/
theorem scan_eq_some_iff : pattern.scan body = some window ↔ pattern.Leftmost body window := by
  rw [scan]
  split
  · rename_i hempty
    constructor
    · rintro ⟨⟩
    · intro h
      exact absurd (List.isEmpty_iff.mp hempty) h.ne_nil
  rename_i hempty
  have hne : pattern ≠ [] := fun hnil => hempty (List.isEmpty_iff.mpr hnil)
  rw [Option.map_eq_some_iff]
  constructor
  · rintro ⟨first, hfirst, rfl⟩
    obtain ⟨hlt, hfits, hleast⟩ := findFit?_eq_some_iff.mp hfirst
    refine ⟨(fits_drop_iff hne (Nat.le_of_lt hlt)).mp hfits, fun other hother => ?_⟩
    exact Nat.le_of_not_lt fun hbefore => hleast other.first hbefore hother.fits_drop
  · intro h
    refine ⟨window.first, findFit?_eq_some_iff.mpr ⟨?_, h.fits_drop, ?_⟩, h.window_eq.symm⟩
    · exact Nat.lt_of_le_of_lt h.ordered h.inside
    · intro other hother hfits
      have hbefore : other ≤ body.length := by
        have := h.ordered
        have := h.inside
        omega
      exact Nat.not_le_of_lt hother (h.least _ ((fits_drop_iff hne hbefore).mp hfits))

/-- A scan finds a window if there is one. -/
theorem exists_scan_iff :
    (∃ window, pattern.scan body = some window) ↔ ∃ window, pattern.Matches body window := by
  constructor
  · rintro ⟨window, h⟩
    exact ⟨window, (scan_eq_some_iff.mp h).toMatches⟩
  · rintro ⟨window, h⟩
    cases hscan : pattern.scan body with
    | some found => exact ⟨found, rfl⟩
    | none =>
        have hempty : ¬ pattern.isEmpty := fun hempty =>
          h.ne_nil (List.isEmpty_iff.mp hempty)
        rw [scan, if_neg hempty, Option.map_eq_none_iff] at hscan
        have hfirst : window.first < body.length := Nat.lt_of_le_of_lt h.ordered h.inside
        exact absurd h.fits_drop (not_fits_of_findFit?_eq_none hscan hfirst)

end OpcodePattern

/-! ## Strings -/

theorem Instruction.string?_eq_some_iff {instruction : Instruction} {string : String} :
    instruction.string? = some string ↔ instruction.reference = some (.string string) := by
  rw [string?]
  split
  · rename_i href
    rw [href, Option.some.injEq, Option.some.injEq, Reference.string.injEq]
  · rename_i hother
    exact iff_of_false nofun (hother string)

theorem string?_beq_iff {instruction : Instruction} {string : String} :
    (instruction.string? == some string) = true ↔
      instruction.reference = some (.string string) :=
  beq_iff_eq.trans Instruction.string?_eq_some_iff

/-- The instruction with the index loads the string, and none in front of it does. -/
def StringMatch.IsFirst (body : List Instruction) (found : StringMatch) : Prop :=
  (∃ instruction, body[found.index]? = some instruction ∧
    instruction.reference = some (.string found.string)) ∧
  ∀ index < found.index, ∀ instruction, body[index]? = some instruction →
    instruction.reference ≠ some (.string found.string)

theorem findIdx?_string_eq_some_iff {body : List Instruction} {string : String} {index : Nat} :
    body.findIdx? (·.string? == some string) = some index ↔
      StringMatch.IsFirst body ⟨string, index⟩ := by
  rw [List.findIdx?_eq_some_iff_getElem, StringMatch.IsFirst]
  constructor
  · rintro ⟨hlt, hloads, hbefore⟩
    refine ⟨⟨body[index], List.getElem?_eq_getElem hlt, string?_beq_iff.mp hloads⟩, ?_⟩
    intro other hother instruction hinstruction hloads'
    obtain ⟨_, rfl⟩ := List.getElem?_eq_some_iff.mp hinstruction
    exact hbefore other hother (string?_beq_iff.mpr hloads')
  · rintro ⟨⟨instruction, hinstruction, hloads⟩, hbefore⟩
    obtain ⟨hlt, rfl⟩ := List.getElem?_eq_some_iff.mp hinstruction
    refine ⟨hlt, string?_beq_iff.mpr hloads, fun other hother hloads' => ?_⟩
    exact hbefore other hother _ (List.getElem?_eq_getElem _) (string?_beq_iff.mp hloads')

/-- Every string is found where it is loaded first, in the order of the strings. -/
theorem scanStrings_eq_some_iff {strings : List String} {body : List Instruction}
    {found : List StringMatch} : scanStrings strings body = some found ↔
      found.map (·.string) = strings ∧ ∀ one ∈ found, one.IsFirst body := by
  rw [scanStrings]
  induction strings generalizing found with
  | nil =>
      constructor
      · rintro ⟨⟩
        exact ⟨rfl, nofun⟩
      · rintro ⟨hnil, -⟩
        rw [List.map_eq_nil_iff.mp hnil]
        rfl
  | cons string strings ih =>
      rw [List.mapM_cons, Option.bind_eq_bind, Option.bind_eq_some_iff]
      constructor
      · rintro ⟨one, hone, h⟩
        obtain ⟨index, hindex, rfl⟩ := Option.map_eq_some_iff.mp hone
        obtain ⟨others, hothers, h⟩ := Option.bind_eq_some_iff.mp h
        cases h
        obtain ⟨hstrings, hfirst⟩ := ih.mp hothers
        refine ⟨congrArg (string :: ·) hstrings, List.forall_mem_cons.mpr ⟨?_, hfirst⟩⟩
        exact findIdx?_string_eq_some_iff.mp hindex
      · rintro ⟨hstrings, hfirst⟩
        cases found with
        | nil => cases hstrings
        | cons one others =>
            rw [List.map_cons, List.cons.injEq] at hstrings
            obtain ⟨rfl, hstrings⟩ := hstrings
            rw [List.forall_mem_cons] at hfirst
            refine ⟨one, ?_, Option.bind_eq_some_iff.mpr ⟨others, ih.mpr ⟨hstrings, hfirst.2⟩, rfl⟩⟩
            rw [findIdx?_string_eq_some_iff.mpr hfirst.1]
            rfl

theorem exists_scanStrings_iff {strings : List String} {body : List Instruction} :
    (∃ found, scanStrings strings body = some found) ↔
      ∀ string ∈ strings, ∃ instruction ∈ body,
        instruction.reference = some (.string string) := by
  rw [scanStrings]
  induction strings with
  | nil => exact iff_of_true ⟨[], rfl⟩ nofun
  | cons string strings ih =>
      rw [List.forall_mem_cons, ← ih]
      constructor
      · rintro ⟨found, h⟩
        rw [List.mapM_cons, Option.bind_eq_bind] at h
        obtain ⟨one, hone, h⟩ := Option.bind_eq_some_iff.mp h
        obtain ⟨others, hothers, -⟩ := Option.bind_eq_some_iff.mp h
        obtain ⟨index, hindex, -⟩ := Option.map_eq_some_iff.mp hone
        obtain ⟨⟨instruction, hinstruction, hloads⟩, -⟩ := findIdx?_string_eq_some_iff.mp hindex
        exact ⟨⟨instruction, List.mem_of_getElem? hinstruction, hloads⟩, others, hothers⟩
      · rintro ⟨⟨instruction, hmem, hloads⟩, others, hothers⟩
        cases hindex : body.findIdx? (·.string? == some string) with
        | none =>
            rw [List.findIdx?_eq_none_iff] at hindex
            exact absurd (string?_beq_iff.mpr hloads)
              (Bool.eq_false_iff.mp (hindex instruction hmem))
        | some index =>
            refine ⟨⟨string, index⟩ :: others, ?_⟩
            rw [List.mapM_cons, hindex, hothers]
            rfl

namespace Fingerprint

variable {fingerprint : Fingerprint}

/-! ## Descriptions -/

/-- A method of a class is as the fingerprint describes it, in all that the fingerprint says. -/
structure Describes (fingerprint : Fingerprint) (method : Method) (cls : ClassDef) : Prop where
  flags : ∀ test ∈ fingerprint.flags, method.flags.inter test.mask = test.value
  returnType : ∀ beginning ∈ fingerprint.returnType,
    beginning.toList <+: method.returnType.toList
  parameters : ∀ beginnings ∈ fingerprint.parameters,
    List.Forall₂ (fun beginning type => beginning.toList <+: type.toList)
      beginnings method.parameters
  condition : ∀ holds ∈ fingerprint.condition, holds method cls = true
  literal : ∀ literal ∈ fingerprint.literal, ∃ instruction ∈ method.body,
    instruction.literal = some literal
  strings : ∀ string ∈ fingerprint.strings, ∃ instruction ∈ method.body,
    instruction.reference = some (.string string)
  pattern : ∀ pattern ∈ fingerprint.pattern, ∃ window, pattern.Matches method.body window

/-- What is reported of a body: the leftmost window of the pattern, and no window without a pattern,
and the strings in order, each where it is loaded first. -/
structure Finds (fingerprint : Fingerprint) (body : List Instruction) (scan : Scan) : Prop where
  window : ∀ pattern, fingerprint.pattern = some pattern →
    ∃ window, scan.window = some window ∧ pattern.Leftmost body window
  noWindow : fingerprint.pattern = none → scan.window = none
  strings : scan.strings.map (·.string) = fingerprint.strings
  isFirst : ∀ found ∈ scan.strings, found.IsFirst body

theorem typesBegin_iff {beginnings types : List String} : typesBegin beginnings types ↔
    List.Forall₂ (fun beginning type => beginning.toList <+: type.toList) beginnings types := by
  rw [typesBegin, Bool.and_eq_true, beq_iff_eq, List.forall₂_iff_zip, List.all_eq_true]
  refine and_congr_right fun _ => ?_
  constructor
  · intro h a b hmem
    exact List.isPrefixOf_iff_prefix.mp (h (a, b) hmem)
  · rintro h ⟨a, b⟩ hmem
    exact List.isPrefixOf_iff_prefix.mpr (h hmem)

/-- A condition that need not be there holds if it does where it is there. -/
theorem all_iff {α : Type} {o : Option α} {p : α → Bool} {P : α → Prop} (h : ∀ a, p a ↔ P a) :
    o.all p ↔ ∀ a ∈ o, P a := by
  cases o with
  | none => exact iff_of_true rfl nofun
  | some a =>
      rw [Option.all_some, h]
      constructor
      · rintro ha _ ⟨⟩
        exact ha
      · intro hall
        exact hall a rfl

theorem acceptsShape_iff {method : Method} {cls : ClassDef} :
    fingerprint.acceptsShape method cls ↔
      (∀ test ∈ fingerprint.flags, method.flags.inter test.mask = test.value) ∧
      (∀ beginning ∈ fingerprint.returnType, beginning.toList <+: method.returnType.toList) ∧
      (∀ beginnings ∈ fingerprint.parameters,
        List.Forall₂ (fun beginning type => beginning.toList <+: type.toList)
          beginnings method.parameters) ∧
      (∀ holds ∈ fingerprint.condition, holds method cls = true) ∧
      ∀ literal ∈ fingerprint.literal, ∃ instruction ∈ method.body,
        instruction.literal = some literal := by
  have hflags (test : FlagTest) :
      test.accepts method.flags ↔ method.flags.inter test.mask = test.value := by
    rw [FlagTest.accepts, beq_iff_eq]
  have hreturn (beginning : String) : typeBegins beginning method.returnType ↔
      beginning.toList <+: method.returnType.toList :=
    List.isPrefixOf_iff_prefix
  have hliteral (literal : Int64) : (method.body.any (·.literal == some literal)) ↔
      ∃ instruction ∈ method.body, instruction.literal = some literal := by
    rw [List.any_eq_true]
    refine exists_congr fun instruction => and_congr_right fun _ => beq_iff_eq
  rw [acceptsShape, Bool.and_eq_true, Bool.and_eq_true, Bool.and_eq_true, Bool.and_eq_true,
    all_iff hflags, all_iff hreturn, all_iff fun _ => typesBegin_iff, all_iff fun _ => Iff.rfl,
    all_iff hliteral]
  tauto

/-- A method is found if it is as described. -/
theorem scan?_eq_some_iff {method : Method} {cls : ClassDef} {scan : Scan} :
    fingerprint.scan? method cls = some scan ↔
      fingerprint.Describes method cls ∧ fingerprint.Finds method.body scan := by
  rw [scan?]
  constructor
  · intro h
    split at h
    swap
    · cases h
    rename_i hshape
    obtain ⟨hflags, hreturn, hparameters, hcondition, hliteral⟩ := acceptsShape_iff.mp hshape
    obtain ⟨strings, hstrings, h⟩ := Option.bind_eq_some_iff.mp h
    obtain ⟨hnames, hfirst⟩ := scanStrings_eq_some_iff.mp hstrings
    have hloads := exists_scanStrings_iff.mp ⟨strings, hstrings⟩
    cases hpattern : fingerprint.pattern with
    | none =>
        rw [hpattern] at h
        cases h
        refine ⟨⟨hflags, hreturn, hparameters, hcondition, hliteral, hloads, ?_⟩, ?_, ?_, hnames,
          hfirst⟩
        · rw [hpattern]
          rintro _ ⟨⟩
        · rw [hpattern]
          rintro _ ⟨⟩
        · intro _
          rfl
    | some pattern =>
        rw [hpattern] at h
        obtain ⟨window, hwindow, h⟩ := Option.bind_eq_some_iff.mp h
        cases h
        have hleftmost := OpcodePattern.scan_eq_some_iff.mp hwindow
        refine ⟨⟨hflags, hreturn, hparameters, hcondition, hliteral, hloads, ?_⟩, ?_, ?_, hnames,
          hfirst⟩
        · rw [hpattern]
          rintro _ ⟨⟩
          exact ⟨window, hleftmost.toMatches⟩
        · rw [hpattern]
          rintro _ ⟨⟩
          exact ⟨window, rfl, hleftmost⟩
        · rw [hpattern]
          rintro ⟨⟩
  · rintro ⟨hdescribes, hfinds⟩
    have hshape : fingerprint.acceptsShape method cls :=
      acceptsShape_iff.mpr ⟨hdescribes.flags, hdescribes.returnType, hdescribes.parameters,
        hdescribes.condition, hdescribes.literal⟩
    have hstrings : scanStrings fingerprint.strings method.body = some scan.strings :=
      scanStrings_eq_some_iff.mpr ⟨hfinds.strings, hfinds.isFirst⟩
    rw [if_pos hshape, hstrings]
    cases hpattern : fingerprint.pattern with
    | none =>
        show some (Scan.mk none scan.strings) = some scan
        rw [← hfinds.noWindow hpattern]
    | some pattern =>
        obtain ⟨window, hwindow, hleftmost⟩ := hfinds.window pattern hpattern
        show (pattern.scan method.body).bind (fun found => some (Scan.mk (some found) scan.strings)) =
          some scan
        rw [OpcodePattern.scan_eq_some_iff.mpr hleftmost, Option.bind_some, ← hwindow]

theorem exists_scan?_iff {method : Method} {cls : ClassDef} :
    (∃ scan, fingerprint.scan? method cls = some scan) ↔ fingerprint.Describes method cls := by
  constructor
  · rintro ⟨scan, h⟩
    exact (scan?_eq_some_iff.mp h).1
  · intro h
    obtain ⟨strings, hstrings⟩ := exists_scanStrings_iff.mpr h.strings
    obtain ⟨hnames, hfirst⟩ := scanStrings_eq_some_iff.mp hstrings
    cases hpattern : fingerprint.pattern with
    | none =>
        refine ⟨⟨none, strings⟩, scan?_eq_some_iff.mpr ⟨h, ?_, fun _ => rfl, hnames, hfirst⟩⟩
        rw [hpattern]
        nofun
    | some pattern =>
        obtain ⟨window, hwindow⟩ := OpcodePattern.exists_scan_iff.mpr (h.pattern pattern hpattern)
        refine ⟨⟨some window, strings⟩, scan?_eq_some_iff.mpr ⟨h, ?_, ?_, hnames, hfirst⟩⟩
        · rw [hpattern]
          rintro _ ⟨⟩
          exact ⟨window, rfl, OpcodePattern.scan_eq_some_iff.mp hwindow⟩
        · rw [hpattern]
          nofun

end Fingerprint

/-! ## Places in order -/

/-- The place comes first: in a class further in front, or further in front in the same class. -/
def MethodId.Before (a b : MethodId) : Prop :=
  a.inClass < b.inClass ∨ a.inClass = b.inClass ∧ a.index < b.index

theorem MethodId.Before.asymm {a b : MethodId} (h : a.Before b) : ¬ b.Before a := by
  rintro (h' | ⟨h', hindex'⟩) <;> rcases h with h | ⟨h, hindex⟩ <;> omega

/-- There is a method at the place, in the class to which the search is confined, if it is. -/
def ClassPool.InScope (pool : ClassPool) (scope : Option Nat) (id : MethodId) : Prop :=
  (∃ method, pool.method? id = some method) ∧ ∀ inClass ∈ scope, id.inClass = inClass

namespace ClassPool

variable {pool : ClassPool}

theorem mem_classMethods_iff {inClass : Nat} {id : MethodId} :
    id ∈ pool.classMethods inClass ↔
      id.inClass = inClass ∧ ∃ method, pool.method? id = some method := by
  rw [classMethods]
  cases hcls : pool.classes[inClass]? with
  | none =>
      constructor
      · nofun
      · rintro ⟨rfl, method, h⟩
        rw [method?, hcls] at h
        cases h
  | some cls =>
      rw [List.mem_map]
      constructor
      · rintro ⟨index, hindex, rfl⟩
        have hlt : index < cls.methods.length := List.mem_range.mp hindex
        refine ⟨rfl, cls.methods[index], ?_⟩
        rw [method?, hcls]
        exact List.getElem?_eq_getElem _
      · rintro ⟨rfl, method, h⟩
        rw [method?, hcls] at h
        exact ⟨id.index, List.mem_range.mpr (List.getElem?_eq_some_iff.mp h).1, rfl⟩

theorem pairwise_classMethods (pool : ClassPool) (inClass : Nat) :
    (pool.classMethods inClass).Pairwise MethodId.Before := by
  rw [classMethods]
  split
  · rw [List.pairwise_map]
    exact List.pairwise_lt_range.imp fun hlt => .inr ⟨rfl, hlt⟩
  · exact .nil

theorem mem_methods_iff {id : MethodId} :
    id ∈ pool.methods ↔ ∃ method, pool.method? id = some method := by
  rw [methods, List.mem_flatMap]
  constructor
  · rintro ⟨inClass, -, h⟩
    exact (mem_classMethods_iff.mp h).2
  · rintro ⟨method, h⟩
    refine ⟨id.inClass, ?_, mem_classMethods_iff.mpr ⟨rfl, method, h⟩⟩
    obtain ⟨cls, hcls, -⟩ := Option.bind_eq_some_iff.mp h
    exact List.mem_range.mpr (List.getElem?_eq_some_iff.mp hcls).1

theorem pairwise_methods (pool : ClassPool) : pool.methods.Pairwise MethodId.Before := by
  rw [methods, List.pairwise_flatMap]
  refine ⟨fun inClass _ => pool.pairwise_classMethods inClass, ?_⟩
  refine List.pairwise_lt_range.imp fun hlt a ha b hb => .inl ?_
  rw [(mem_classMethods_iff.mp ha).1, (mem_classMethods_iff.mp hb).1]
  exact hlt

end ClassPool

namespace Fingerprint

variable {fingerprint : Fingerprint} {pool : ClassPool} {scope : Option Nat}

theorem mem_candidates_iff {id : MethodId} :
    id ∈ candidates pool scope ↔ pool.InScope scope id := by
  cases scope with
  | none =>
      rw [candidates, ClassPool.mem_methods_iff, ClassPool.InScope]
      exact (and_iff_left nofun).symm
  | some inClass =>
      rw [candidates, ClassPool.mem_classMethods_iff, ClassPool.InScope, and_comm]
      refine and_congr_right fun _ => ?_
      constructor
      · rintro h _ ⟨⟩
        exact h
      · intro h
        exact h inClass rfl

theorem pairwise_candidates (pool : ClassPool) (scope : Option Nat) :
    (candidates pool scope).Pairwise MethodId.Before := by
  cases scope with
  | none => exact pool.pairwise_methods
  | some inClass => exact pool.pairwise_classMethods inClass

/-- The method at the place is as described. -/
def DescribesAt (fingerprint : Fingerprint) (pool : ClassPool) (id : MethodId) : Prop :=
  ∃ cls method, pool.classes[id.inClass]? = some cls ∧ cls.methods[id.index]? = some method ∧
    fingerprint.Describes method cls

theorem resolveAt?_eq_some_iff {id : MethodId} {resolution : Resolution} :
    fingerprint.resolveAt? pool id = some resolution ↔
      ∃ cls method, pool.classes[id.inClass]? = some cls ∧ cls.methods[id.index]? = some method ∧
        fingerprint.Describes method cls ∧ fingerprint.Finds method.body resolution.scan ∧
        resolution.method = id ∧ resolution.fingerprint = fingerprint.name := by
  rw [resolveAt?]
  constructor
  · intro h
    obtain ⟨cls, hcls, h⟩ := Option.bind_eq_some_iff.mp h
    obtain ⟨method, hmethod, h⟩ := Option.bind_eq_some_iff.mp h
    obtain ⟨scan, hscan, h⟩ := Option.bind_eq_some_iff.mp h
    cases h
    obtain ⟨hdescribes, hfinds⟩ := scan?_eq_some_iff.mp hscan
    exact ⟨cls, method, hcls, hmethod, hdescribes, hfinds, rfl, rfl⟩
  · rintro ⟨cls, method, hcls, hmethod, hdescribes, hfinds, rfl, hname⟩
    have hscan := scan?_eq_some_iff.mpr ⟨hdescribes, hfinds⟩
    rw [hcls, Option.bind_eq_bind, Option.bind_some, hmethod, Option.bind_eq_bind,
      Option.bind_some, hscan, Option.bind_eq_bind, Option.bind_some, ← hname]

theorem resolveAt?_eq_none_iff {id : MethodId} :
    fingerprint.resolveAt? pool id = none ↔ ¬ fingerprint.DescribesAt pool id := by
  constructor
  · rintro h ⟨cls, method, hcls, hmethod, hdescribes⟩
    obtain ⟨scan, hscan⟩ := exists_scan?_iff.mpr hdescribes
    have hsome : fingerprint.resolveAt? pool id = some ⟨fingerprint.name, id, scan⟩ :=
      resolveAt?_eq_some_iff.mpr ⟨cls, method, hcls, hmethod, hdescribes,
        (scan?_eq_some_iff.mp hscan).2, rfl, rfl⟩
    rw [h] at hsome
    cases hsome
  · intro h
    cases hresolve : fingerprint.resolveAt? pool id with
    | none => rfl
    | some resolution =>
        obtain ⟨cls, method, hcls, hmethod, hdescribes, -⟩ := resolveAt?_eq_some_iff.mp hresolve
        exact absurd ⟨cls, method, hcls, hmethod, hdescribes⟩ h

/-- What a search gives if it finds something: the first place in scope with a method that is as
described, and what there is to report of this method. -/
structure FirstMatch (fingerprint : Fingerprint) (pool : ClassPool) (scope : Option Nat)
    (resolution : Resolution) : Prop where
  inScope : pool.InScope scope resolution.method
  first : ∀ earlier, pool.InScope scope earlier → earlier.Before resolution.method →
    ¬ fingerprint.DescribesAt pool earlier
  found : ∃ cls method, pool.classes[resolution.inClass]? = some cls ∧
    cls.methods[resolution.method.index]? = some method ∧
    fingerprint.Describes method cls ∧ fingerprint.Finds method.body resolution.scan
  name : resolution.fingerprint = fingerprint.name

theorem resolve?_eq_some_iff {resolution : Resolution} :
    fingerprint.resolve? pool scope = some resolution ↔
      fingerprint.FirstMatch pool scope resolution := by
  have hpairwise := pairwise_candidates pool scope
  rw [resolve?, List.findSome?_eq_some_iff]
  constructor
  · rintro ⟨before, id, behind, hsplit, hfound, hbefore⟩
    obtain ⟨cls, method, hcls, hmethod, hdescribes, hfinds, rfl, hname⟩ :=
      resolveAt?_eq_some_iff.mp hfound
    refine ⟨mem_candidates_iff.mp ?_, ?_, ⟨cls, method, hcls, hmethod, hdescribes, hfinds⟩, hname⟩
    · rw [hsplit]
      exact List.mem_append_right _ List.mem_cons_self
    · intro earlier hearlier hlt
      rw [hsplit, List.pairwise_append, List.pairwise_cons] at hpairwise
      rw [← mem_candidates_iff, hsplit, List.mem_append, List.mem_cons] at hearlier
      rcases hearlier with hmem | rfl | hmem
      · exact resolveAt?_eq_none_iff.mp (hbefore earlier hmem)
      · exact absurd hlt hlt.asymm
      · exact absurd hlt (hpairwise.2.1.1 earlier hmem).asymm
  · rintro ⟨hscope, hfirst, ⟨cls, method, hcls, hmethod, hdescribes, hfinds⟩, hname⟩
    obtain ⟨before, behind, hsplit⟩ := List.append_of_mem (mem_candidates_iff.mpr hscope)
    refine ⟨before, resolution.method, behind, hsplit, resolveAt?_eq_some_iff.mpr
      ⟨cls, method, hcls, hmethod, hdescribes, hfinds, rfl, hname⟩, fun earlier hmem => ?_⟩
    rw [hsplit, List.pairwise_append] at hpairwise
    refine resolveAt?_eq_none_iff.mpr (hfirst earlier ?_ ?_)
    · rw [← mem_candidates_iff, hsplit]
      exact List.mem_append_left _ hmem
    · exact hpairwise.2.2 earlier hmem _ List.mem_cons_self

theorem resolve?_eq_none_iff : fingerprint.resolve? pool scope = none ↔
    ∀ id, pool.InScope scope id → ¬ fingerprint.DescribesAt pool id := by
  rw [resolve?, List.findSome?_eq_none_iff]
  constructor
  · intro h id hscope
    exact resolveAt?_eq_none_iff.mp (h id (mem_candidates_iff.mpr hscope))
  · intro h id hmem
    exact resolveAt?_eq_none_iff.mpr (h id (mem_candidates_iff.mp hmem))

/-- The window that is reported cannot be had exactly if there is no pattern. -/
theorem Finds.window_eq_error_iff {resolution : Resolution} {body : List Instruction}
    (h : fingerprint.Finds body resolution.scan) (hname : resolution.fingerprint = fingerprint.name) :
    resolution.window = .error (.noPatternScan fingerprint.name) ↔ fingerprint.pattern = none := by
  rw [Resolution.window]
  cases hpattern : fingerprint.pattern with
  | none =>
      rw [h.noWindow hpattern, hname]
      exact iff_of_true rfl rfl
  | some pattern =>
      obtain ⟨window, hwindow, -⟩ := h.window pattern hpattern
      rw [hwindow]
      exact iff_of_false nofun nofun

/-- A search of a pool, or of one class of it, finds something exactly if there is a method in scope
that is as described.  It then gives the first one in the order of the pool, with the leftmost window
of the pattern, or without a window if there is no pattern, and with the strings in order, each where
the method loads it first. -/
theorem resolve_finds_first (fingerprint : Fingerprint) (pool : ClassPool) (scope : Option Nat) :
    ((∃ resolution, fingerprint.resolve? pool scope = some resolution) ↔
      ∃ id, pool.InScope scope id ∧ fingerprint.DescribesAt pool id) ∧
    (∀ resolution, fingerprint.resolve? pool scope = some resolution ↔
      fingerprint.FirstMatch pool scope resolution) ∧
    (∀ resolution, fingerprint.resolve? pool scope = some resolution →
      (resolution.window = .error (.noPatternScan fingerprint.name) ↔
        fingerprint.pattern = none)) ∧
    ∀ resolution, fingerprint.resolve pool scope = .ok resolution ↔
      fingerprint.resolve? pool scope = some resolution := by
  refine ⟨?_, fun resolution => resolve?_eq_some_iff, fun resolution h => ?_, fun resolution => ?_⟩
  · constructor
    · rintro ⟨resolution, h⟩
      obtain ⟨hscope, -, ⟨cls, method, hcls, hmethod, hdescribes, -⟩, -⟩ :=
        resolve?_eq_some_iff.mp h
      exact ⟨resolution.method, hscope, cls, method, hcls, hmethod, hdescribes⟩
    · rintro ⟨id, hscope, hdescribes⟩
      cases hresolve : fingerprint.resolve? pool scope with
      | some resolution => exact ⟨resolution, rfl⟩
      | none => exact absurd hdescribes (resolve?_eq_none_iff.mp hresolve id hscope)
  · obtain ⟨-, -, ⟨cls, method, -, -, -, hfinds⟩, hname⟩ := resolve?_eq_some_iff.mp h
    exact hfinds.window_eq_error_iff hname
  · rw [resolve]
    cases fingerprint.resolve? pool scope with
    | none => exact iff_of_false nofun nofun
    | some found =>
        constructor
        · rintro ⟨⟩
          rfl
        · rintro ⟨⟩
          rfl

end Fingerprint

end DexGraft
