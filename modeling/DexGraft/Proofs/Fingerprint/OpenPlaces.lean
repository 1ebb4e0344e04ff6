import DexGraft.Proofs.Fingerprint.Match

/-!
# Open places

A place that a pattern leaves open fits every opcode, so that what stands there may be replaced.
The run that was found still fits then, but a run that begins further in front may have come to fit
as well, if the two overlap.  The main statement says what a scan finds, and that it finds a run
again when opcodes in the open places of the one that it found have been replaced.
-/

namespace DexGraft.OpcodePattern

variable {pattern : OpcodePattern} {body other : List Instruction} {window : Window}

/-! ## Runs -/

/-- The body has a run from the index on that fits the pattern. -/
structure FitsAt (pattern : OpcodePattern) (body : List Instruction) (first : Nat) : Prop where
  inside : first + pattern.length ≤ body.length
  opcodes : ∀ i opcode, pattern[i]? = some (some opcode) →
    body[first + i]?.map Instruction.opcode = some opcode

theorem matches_iff : pattern.Matches body window ↔ pattern ≠ [] ∧
    pattern.FitsAt body window.first ∧ window.last + 1 = window.first + pattern.length := by
  constructor
  · intro h
    have hinside := h.inside
    have hlength := h.length_eq
    refine ⟨h.ne_nil, ⟨by omega, fun i opcode hplace => ?_⟩, hlength⟩
    exact Option.map_eq_some_iff.mpr (h.opcodes i opcode hplace)
  · rintro ⟨hne, h, hlength⟩
    have hpos : 0 < pattern.length := List.length_pos_iff.mpr hne
    have hinside := h.inside
    refine ⟨by omega, by omega, hlength, fun i opcode hplace => ?_⟩
    exact Option.map_eq_some_iff.mp (h.opcodes i opcode hplace)

/-- A run of a pattern that is not empty makes up a window. -/
theorem FitsAt.matches {first : Nat} (hne : pattern ≠ []) (h : pattern.FitsAt body first) :
    pattern.Matches body ⟨first, first + pattern.length - 1⟩ := by
  have hpos : 0 < pattern.length := List.length_pos_iff.mpr hne
  exact matches_iff.mpr ⟨hne, h, Nat.sub_add_cancel (Nat.le_add_left_of_le hpos)⟩

/-! ## Replaced opcodes -/

/-- The place is one of the window that the pattern leaves open. -/
def OpenAt (pattern : OpcodePattern) (window : Window) (place : Nat) : Prop :=
  ∃ i, pattern[i]? = some none ∧ place = window.first + i

/-- The bodies have the same opcodes except in the open places of the window. -/
structure Recodes (pattern : OpcodePattern) (window : Window) (body other : List Instruction) :
    Prop where
  length_eq : other.length = body.length
  opcode_eq : ∀ place, ¬ pattern.OpenAt window place →
    other[place]?.map Instruction.opcode = body[place]?.map Instruction.opcode

theorem Recodes.symm (h : pattern.Recodes window body other) :
    pattern.Recodes window other body :=
  ⟨h.length_eq.symm, fun place hopen => (h.opcode_eq place hopen).symm⟩

/-- A run still fits if its opcodes do not stand in open places. -/
theorem Recodes.fitsAt {first : Nat} (h : pattern.Recodes window body other)
    (hfits : pattern.FitsAt body first)
    (hclosed : ∀ i opcode, pattern[i]? = some (some opcode) →
      ¬ pattern.OpenAt window (first + i)) : pattern.FitsAt other first := by
  refine ⟨h.length_eq ▸ hfits.inside, fun i opcode hplace => ?_⟩
  rw [h.opcode_eq _ (hclosed i opcode hplace)]
  exact hfits.opcodes i opcode hplace

theorem Recodes.fitsAt_first (h : pattern.Recodes window body other)
    (hfits : pattern.FitsAt body window.first) : pattern.FitsAt other window.first := by
  refine h.fitsAt hfits fun i opcode hplace => ?_
  rintro ⟨j, hopen, heq⟩
  rw [← Nat.add_left_cancel heq, hplace] at hopen
  cases hopen

/-- Nothing has been replaced in front of the window. -/
theorem Recodes.fitsAt_of_le {first : Nat} (h : pattern.Recodes window body other)
    (hfits : pattern.FitsAt body first) (hfront : first + pattern.length ≤ window.first) :
    pattern.FitsAt other first := by
  refine h.fitsAt hfits fun i opcode hplace => ?_
  rintro ⟨j, -, heq⟩
  have hlt : i < pattern.length := (List.getElem?_eq_some_iff.mp hplace).1
  omega

/-! ## Scans -/

/-- A scan finds a run exactly if the pattern has a place and some run fits it, and then the run
that begins furthest in front.  When other opcodes are put in the open places of this run, a scan
finds a run again: the same one, or one that begins in front of it and reaches into it. -/
theorem scan_finds_leftmost (pattern : OpcodePattern) (body : List Instruction) :
    ((∃ window, pattern.scan body = some window) ↔
      pattern ≠ [] ∧ ∃ first, pattern.FitsAt body first) ∧
    ∀ window, pattern.scan body = some window →
      (pattern.FitsAt body window.first ∧
        ∀ first, pattern.FitsAt body first → window.first ≤ first) ∧
      (window.last = window.first + pattern.length - 1 ∧ window.first ≤ window.last ∧
        window.last < body.length) ∧
      ∀ other, pattern.Recodes window body other →
        ∃ found, pattern.scan other = some found ∧ found.first ≤ window.first ∧
          window.first ≤ found.last := by
  refine ⟨?_, fun window hscan => ?_⟩
  · rw [exists_scan_iff]
    constructor
    · rintro ⟨window, h⟩
      exact ⟨h.ne_nil, window.first, (matches_iff.mp h).2.1⟩
    · rintro ⟨hne, first, h⟩
      exact ⟨_, h.matches hne⟩
  have hleftmost := scan_eq_some_iff.mp hscan
  obtain ⟨hne, hfits, hlength⟩ := matches_iff.mp hleftmost.toMatches
  have least : ∀ first, pattern.FitsAt body first → window.first ≤ first :=
    fun first h => hleftmost.least _ (h.matches hne)
  refine ⟨⟨hfits, least⟩, ⟨by omega, hleftmost.ordered, hleftmost.inside⟩, fun other hrecodes => ?_⟩
  have hagain : pattern.Matches other window :=
    matches_iff.mpr ⟨hne, hrecodes.fitsAt_first hfits, hlength⟩
  obtain ⟨found, hfound⟩ := exists_scan_iff.mpr ⟨_, hagain⟩
  have hfound' := scan_eq_some_iff.mp hfound
  refine ⟨found, hfound, hfound'.least _ hagain, Nat.le_of_not_lt fun hfront => ?_⟩
  -- a run that ends in front of the window has its opcodes in the first body as well
  obtain ⟨-, hfoundFits, hfoundLength⟩ := matches_iff.mp hfound'.toMatches
  have hbefore := hrecodes.symm.fitsAt_of_le hfoundFits (by omega)
  have := least _ hbefore
  have := hfound'.ordered
  omega

/-- The open place comes first, and the opcode that is put in it fits the place behind it: the run
that is found then begins one instruction further in front. -/
theorem scan_finds_leftmost_overlapping :
    let pattern : OpcodePattern := [none, some .move]
    let body : List Instruction := [{ opcode := .nop }, { opcode := .nop }, { opcode := .move }]
    let other : List Instruction := [{ opcode := .nop }, { opcode := .move }, { opcode := .move }]
    pattern.scan body = some ⟨1, 2⟩ ∧ pattern.Recodes ⟨1, 2⟩ body other ∧
      ∃ found, pattern.scan other = some found ∧ found = ⟨0, 1⟩ ∧ found.first ≤ 1 ∧
        1 ≤ found.last := by
  intro pattern body other
  have hscan : pattern.scan body = some ⟨1, 2⟩ := by decide
  have hrecodes : pattern.Recodes ⟨1, 2⟩ body other := by
    refine ⟨rfl, fun place hopen => ?_⟩
    rcases place with - | - | - | place
    · rfl
    · exact absurd ⟨0, rfl, rfl⟩ hopen
    · rfl
    · rfl
  obtain ⟨-, h⟩ := scan_finds_leftmost pattern body
  obtain ⟨-, -, again⟩ := h _ hscan
  obtain ⟨found, hfound, hfirst, hlast⟩ := again other hrecodes
  refine ⟨hscan, hrecodes, found, hfound, ?_, hfirst, hlast⟩
  have hother : pattern.scan other = some ⟨0, 1⟩ := by decide
  rw [hother] at hfound
  exact (Option.some.inj hfound).symm

end DexGraft.OpcodePattern
