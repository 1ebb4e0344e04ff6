import DexGraft.Proofs.Code.Flags
import DexGraft.Proofs.Fingerprint.Match

/-!
# Methods found by their portraits

A portrait of a method says of it all that a fingerprint can say.  Such a fingerprint finds its method
as long as all flags of the method have a name.  The flags are kept as they are and compared with the
named ones only, so that the portrait of any other method finds nothing at all.
-/

namespace DexGraft

namespace OpcodePattern

variable {body : List Instruction}

/-- The pattern without open places that the body as a whole fits. -/
def ofBody (body : List Instruction) : OpcodePattern := body.map fun instruction =>
  some instruction.opcode

theorem length_ofBody (body : List Instruction) : (ofBody body).length = body.length :=
  List.length_map _

theorem matches_ofBody (hne : body ≠ []) : (ofBody body).Matches body ⟨0, body.length - 1⟩ := by
  have hpos : 0 < body.length := List.length_pos_iff.mpr hne
  refine ⟨Nat.zero_le _, Nat.sub_one_lt_of_lt hpos, ?_, fun i opcode hplace => ?_⟩
  · rw [length_ofBody, Nat.zero_add]
    exact Nat.sub_add_cancel hpos
  · rw [ofBody, List.getElem?_map] at hplace
    obtain ⟨instruction, hinstruction, hopcode⟩ := Option.map_eq_some_iff.mp hplace
    rw [Nat.zero_add]
    exact ⟨instruction, hinstruction, Option.some.inj hopcode⟩

/-- A pattern as long as the body leaves no room for another window. -/
theorem window_eq_of_matches_ofBody {window : Window} (h : (ofBody body).Matches body window) :
    window = ⟨0, body.length - 1⟩ := by
  have hlength := h.length_eq
  have hinside := h.inside
  rw [length_ofBody] at hlength
  have hfirst : window.first = 0 := by omega
  rw [h.window_eq, length_ofBody, hfirst, Nat.zero_add]

end OpcodePattern

namespace MethodId

theorem eq_or_before_of_not_before {a b : MethodId} (h : ¬ a.Before b) : b = a ∨ b.Before a := by
  obtain ⟨inClass, index⟩ := a
  obtain ⟨inClass', index'⟩ := b
  simp only [Before, MethodId.mk.injEq] at h ⊢
  omega

end MethodId

namespace Fingerprint

variable {fingerprint : Fingerprint} {method : Method}

/-! ## Searches that succeed -/

theorem resolve_eq_ok_iff {pool : ClassPool} {scope : Option Nat} {resolution : Resolution} :
    fingerprint.resolve pool scope = .ok resolution ↔
      fingerprint.resolve? pool scope = some resolution := by
  rw [resolve]
  cases fingerprint.resolve? pool scope with
  | none =>
      constructor
      · rintro ⟨⟩
      · rintro ⟨⟩
  | some found => rw [Except.ok.injEq, Option.some.injEq]

/-- A search does not go past a method that is as described. -/
theorem exists_resolve_of_describesAt {pool : ClassPool} {scope : Option Nat} {id : MethodId}
    (hscope : pool.InScope scope id) (h : fingerprint.DescribesAt pool id) :
    ∃ resolution, fingerprint.resolve pool scope = .ok resolution ∧
      (resolution.method = id ∨ resolution.method.Before id) := by
  cases hresolve : fingerprint.resolve? pool scope with
  | none => exact absurd h (resolve?_eq_none_iff.mp hresolve id hscope)
  | some resolution =>
      have hfirst := (resolve?_eq_some_iff.mp hresolve).first
      refine ⟨resolution, resolve_eq_ok_iff.mpr hresolve, ?_⟩
      exact MethodId.eq_or_before_of_not_before fun hbefore => hfirst id hscope hbefore h

/-- A search fails where no method whatsoever is as described. -/
theorem resolve_eq_error_of_forall (h : ∀ method cls, ¬ fingerprint.Describes method cls)
    (pool : ClassPool) (scope : Option Nat) :
    fingerprint.resolve pool scope = .error (.resolutionFailed fingerprint.name) := by
  have hnone : fingerprint.resolve? pool scope = none :=
    resolve?_eq_none_iff.mpr fun _ _ ⟨cls, method, _, _, hdescribes⟩ => h method cls hdescribes
  rw [resolve, hnone]

/-! ## Portraits -/

/-- The fingerprint says of the method all that can be said: its signature, exactly its flags, its
opcodes from the first to the last and all strings that it loads, and a literal, if it says one, is
one that the method has. -/
structure Portrays (fingerprint : Fingerprint) (method : Method) : Prop where
  returnType : fingerprint.returnType = some method.returnType
  flags : fingerprint.flags = some (.exactly method.flags)
  parameters : fingerprint.parameters = some method.parameters
  pattern : fingerprint.pattern = some (.ofBody method.body)
  strings : ∀ string, string ∈ fingerprint.strings ↔
    ∃ instruction ∈ method.body, instruction.reference = some (.string string)
  literal : ∀ literal ∈ fingerprint.literal, ∃ instruction ∈ method.body,
    instruction.literal = some literal
  condition : fingerprint.condition = none

/-- The portrait of a method that has the literal. -/
def portrait (name : String) (method : Method) (literal : Option Int64) : Fingerprint where
  name := name
  returnType := some method.returnType
  flags := some (.exactly method.flags)
  parameters := some method.parameters
  pattern := some (.ofBody method.body)
  strings := method.body.filterMap (·.string?)
  literal := literal

theorem portrays_portrait (name : String) {literal : Option Int64}
    (hliteral : ∀ value ∈ literal, ∃ instruction ∈ method.body, instruction.literal = some value) :
    (portrait name method literal).Portrays method where
  returnType := rfl
  flags := rfl
  parameters := rfl
  pattern := rfl
  strings := fun string => by
    rw [portrait, List.mem_filterMap]
    simp only [Instruction.string?_eq_some_iff]
  literal := hliteral
  condition := rfl

namespace Portrays

/-- Only the flags can keep a portrait from being a description. -/
theorem describes (h : fingerprint.Portrays method) (hbody : method.body ≠ [])
    (hflags : method.flags.inter .all = method.flags) (cls : ClassDef) :
    fingerprint.Describes method cls where
  flags := by
    rw [h.flags]
    rintro _ ⟨⟩
    exact hflags
  returnType := by
    rw [h.returnType]
    rintro _ ⟨⟩
    exact List.prefix_rfl
  parameters := by
    rw [h.parameters]
    rintro _ ⟨⟩
    exact List.forall₂_same.mpr fun _ _ => List.prefix_rfl
  condition := by
    rw [h.condition]
    rintro _ ⟨⟩
  literal := h.literal
  strings := fun string => (h.strings string).mp
  pattern := by
    rw [h.pattern]
    rintro _ ⟨⟩
    exact ⟨_, OpcodePattern.matches_ofBody hbody⟩

/-- Whatever has the flags of the portrait has all flags named. -/
theorem unnamed_eq_zero (h : fingerprint.Portrays method) {other : Method} {cls : ClassDef}
    (hother : fingerprint.Describes other cls) : method.flags.unnamed = 0 := by
  have hflags : other.flags.inter .all = method.flags :=
    hother.flags (.exactly method.flags) h.flags
  rw [← hflags, AccessFlags.unnamed_inter_all]

end Portrays

/--
A fingerprint that portrays a method with at least one instruction matches it in every class if all
flags of the method have a name.  It then reports the body as a whole and each string where it is
loaded first, and a search of a pool that holds the method succeeds with it or with an earlier one.
If the method has a flag without a name, the fingerprint matches no method at all.
-/
theorem portrait_finds_method (fingerprint : Fingerprint) (method : Method)
    (hbody : method.body ≠ []) (h : fingerprint.Portrays method) :
    (method.flags.unnamed = 0 →
      (∀ cls, ∃ scan, fingerprint.scan? method cls = some scan ∧
        scan.window = some ⟨0, method.body.length - 1⟩ ∧
        scan.strings.map (·.string) = fingerprint.strings ∧
        ∀ found ∈ scan.strings, found.IsFirst method.body) ∧
      ∀ pool scope id, pool.method? id = some method → (∀ inClass ∈ scope, id.inClass = inClass) →
        ∃ resolution, fingerprint.resolve pool scope = .ok resolution ∧
          (resolution.method = id ∨ resolution.method.Before id)) ∧
    (method.flags.unnamed ≠ 0 →
      (∀ other cls, fingerprint.scan? other cls = none) ∧
      ∀ pool scope,
        fingerprint.resolve pool scope = .error (.resolutionFailed fingerprint.name)) := by
  constructor
  · intro hnamed
    have hdescribes := h.describes hbody (AccessFlags.inter_all_eq_self_iff.mpr hnamed)
    refine ⟨fun cls => ?_, fun pool scope id hmethod hscope => ?_⟩
    · obtain ⟨scan, hscan⟩ := exists_scan?_iff.mpr (hdescribes cls)
      have hfinds := (scan?_eq_some_iff.mp hscan).2
      obtain ⟨window, hwindow, hleftmost⟩ := hfinds.window _ h.pattern
      rw [OpcodePattern.window_eq_of_matches_ofBody hleftmost.toMatches] at hwindow
      exact ⟨scan, hscan, hwindow, hfinds.strings, hfinds.isFirst⟩
    · obtain ⟨cls, hcls, hindex⟩ := Option.bind_eq_some_iff.mp hmethod
      exact exists_resolve_of_describesAt ⟨⟨method, hmethod⟩, hscope⟩
        ⟨cls, method, hcls, hindex, hdescribes cls⟩
  · intro hunnamed
    have hnone (other : Method) (cls : ClassDef) : ¬ fingerprint.Describes other cls :=
      fun hother => hunnamed (h.unnamed_eq_zero hother)
    refine ⟨fun other cls => ?_, resolve_eq_error_of_forall hnone⟩
    refine Option.eq_none_iff_forall_ne_some.mpr fun scan hscan => ?_
    exact hnone other cls (scan?_eq_some_iff.mp hscan).1

/-- A body that loads one string twice, with a literal in between. -/
def greeting : Method where
  owner := "La;"
  name := "<init>"
  parameters := ["I", "[La;"]
  returnType := "V"
  flags := ⟨0x11081⟩
  registers := 4
  body := [{ opcode := .constString, registers := [0], reference := some (.string "hello") },
    { opcode := .const4, registers := [1], literal := some 7 },
    { opcode := .constString, registers := [0], reference := some (.string "hello") },
    { opcode := .returnVoid }]

/-- The second of two equal methods is found by way of the first one. -/
theorem portrait_finds_method_greeting :
    let fingerprint := portrait "Greeting" greeting (some 7)
    let cls : ClassDef := ⟨"La;", none, .empty, none, [greeting, greeting]⟩
    greeting.body ≠ [] ∧ fingerprint.Portrays greeting ∧ greeting.flags.unnamed = 0 ∧
      (∃ scan, fingerprint.scan? greeting cls = some scan ∧ scan.window = some ⟨0, 3⟩ ∧
        scan.strings.map (·.string) = ["hello", "hello"]) ∧
      ∃ resolution, fingerprint.resolve ⟨[cls]⟩ (some 0) = .ok resolution ∧
        (resolution.method = ⟨0, 1⟩ ∨ resolution.method.Before ⟨0, 1⟩) := by
  intro fingerprint cls
  have hbody : greeting.body ≠ [] := List.cons_ne_nil _ _
  have hportrays : fingerprint.Portrays greeting := by
    refine portrays_portrait "Greeting" ?_
    rintro _ ⟨⟩
    exact ⟨_, List.mem_cons_of_mem _ List.mem_cons_self, rfl⟩
  have hnamed : greeting.flags.unnamed = 0 := by decide
  obtain ⟨hscan, hresolve⟩ := (portrait_finds_method fingerprint greeting hbody hportrays).1 hnamed
  obtain ⟨scan, hfound, hwindow, hstrings, -⟩ := hscan cls
  refine ⟨hbody, hportrays, hnamed, ⟨scan, hfound, hwindow, hstrings⟩, ?_⟩
  exact hresolve ⟨[cls]⟩ (some 0) ⟨0, 1⟩ rfl (by decide)

/-- A public method with one more flag, which has no name, is not found by its portrait. -/
theorem portrait_misses_unnamed_flag :
    let method : Method := ⟨"La;", "b", [], "V", ⟨0x40001⟩, 1, [{ opcode := .returnVoid }]⟩
    let fingerprint := portrait "F" method none
    let cls : ClassDef := ⟨"La;", none, .empty, none, [method]⟩
    method.body ≠ [] ∧ fingerprint.Portrays method ∧ fingerprint.scan? method cls = none ∧
      fingerprint.resolve ⟨[cls]⟩ none = .error (.resolutionFailed "F") := by
  intro method fingerprint cls
  have hportrays : fingerprint.Portrays method := portrays_portrait "F" nofun
  have hnone : fingerprint.resolve? ⟨[cls]⟩ none = none := by decide +kernel
  refine ⟨List.cons_ne_nil _ _, hportrays, by decide, ?_⟩
  rw [resolve, hnone]
  rfl

end Fingerprint

end DexGraft
