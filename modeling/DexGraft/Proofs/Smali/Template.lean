import DexGraft.Proofs.Outcome
import DexGraft.Proofs.Text.Cut
import DexGraft.Smali.Template
import Mathlib.Data.List.Induction

/-!
# Templates are filled in one pass

The text of a template consists of plain pieces and placeholders in just one way.  What the template
renders to is what the pieces stand for, put together: the placeholders stand for the values that were
last bound to their names, whatever these values look like.
-/

namespace DexGraft.Template

open Text Outcome

/-! ## Pieces of a text -/

/-- What a placeholder begins with. -/
def mark : List Char := ['$', '\x7b']

inductive Piece where
  | plain (text : List Char)
  | hole (name : List Char)
  /-- A placeholder without an end, with all that stands behind its mark. -/
  | unclosed (rest : List Char)
deriving DecidableEq, Repr

/-- The pieces of a text: a placeholder begins at the first mark, and ends at the next brace. -/
inductive Splits : List Char → List Piece → Prop
  | last {text : List Char} (unmarked : ¬ mark <:+: text) : Splits text [.plain text]
  | unclosed {front rest : List Char} (unmarked : ¬ mark <:+: front) (endless : '\x7d' ∉ rest) :
      Splits (front ++ mark ++ rest) [.plain front, .unclosed rest]
  | hole {front name back : List Char} {pieces : List Piece} (unmarked : ¬ mark <:+: front)
      (ends : '\x7d' ∉ name) (splits : Splits back pieces) :
      Splits (front ++ mark ++ (name ++ '\x7d' :: back)) (.plain front :: .hole name :: pieces)

/-- What stands in front of the first mark of a text, and what stands behind it. -/
theorem eq_of_append_mark {front front' rest rest' : List Char} (h : ¬ mark <:+: front)
    (h' : ¬ mark <:+: front') (heq : front ++ mark ++ rest = front' ++ mark ++ rest') :
    front = front' ∧ rest = rest' := by
  have hcut : cutOn? mark (front ++ mark ++ rest) = some (front, rest) :=
    cutOn?_append_of_not_infix (by decide) h rest
  have hcut' : cutOn? mark (front' ++ mark ++ rest') = some (front', rest') :=
    cutOn?_append_of_not_infix (by decide) h' rest'
  rw [heq, hcut', Option.some.injEq, Prod.mk.injEq] at hcut
  exact ⟨hcut.1.symm, hcut.2.symm⟩

theorem eq_of_append_brace {name name' back back' : List Char} (h : '\x7d' ∉ name)
    (h' : '\x7d' ∉ name') (heq : name ++ '\x7d' :: back = name' ++ '\x7d' :: back') :
    name = name' ∧ back = back' := by
  have hends : ∀ {name : List Char}, '\x7d' ∉ name → ∀ c ∈ name, (c == '\x7d') = false := by
    rintro name h c hc
    exact beq_eq_false_iff_ne.mpr fun heq => h (heq ▸ hc)
  have hcut := cut?_append (b := back) (hends h) (beq_self_eq_true '\x7d')
  rw [heq, cut?_append (hends h') (beq_self_eq_true '\x7d'), Option.some.injEq,
    Prod.mk.injEq] at hcut
  exact ⟨hcut.1.symm, hcut.2.symm⟩

theorem infix_mark (front rest : List Char) : mark <:+: front ++ mark ++ rest :=
  ⟨front, rest, rfl⟩

theorem Splits.unique {text : List Char} {pieces pieces' : List Piece} (h : Splits text pieces)
    (h' : Splits text pieces') : pieces = pieces' := by
  induction h generalizing pieces' with
  | last unmarked =>
      cases h' with
      | last => rfl
      | unclosed | hole => exact absurd (infix_mark _ _) unmarked
  | @unclosed front rest unmarked endless =>
      generalize heq : front ++ mark ++ rest = text at h'
      cases h' with
      | last unmarked' => exact absurd (heq ▸ infix_mark front rest) unmarked'
      | unclosed unmarked' =>
          obtain ⟨rfl, rfl⟩ := eq_of_append_mark unmarked unmarked' heq
          rfl
      | hole unmarked' =>
          obtain ⟨-, rfl⟩ := eq_of_append_mark unmarked unmarked' heq
          simp at endless
  | @hole front name back pieces unmarked ends splits ih =>
      generalize heq : front ++ mark ++ (name ++ '\x7d' :: back) = text at h'
      cases h' with
      | last unmarked' => exact absurd (heq ▸ infix_mark front _) unmarked'
      | unclosed unmarked' endless =>
          obtain ⟨-, rfl⟩ := eq_of_append_mark unmarked unmarked' heq
          simp at endless
      | hole unmarked' ends' splits' =>
          obtain ⟨rfl, hrest⟩ := eq_of_append_mark unmarked unmarked' heq
          obtain ⟨rfl, rfl⟩ := eq_of_append_brace ends ends' hrest
          rw [ih splits']

theorem exists_splits (text : List Char) : ∃ pieces, Splits text pieces := by
  cases hcut : cutOn? mark text with
  | none => exact ⟨_, .last (not_infix_of_cutOn?_eq_none (by decide) hcut)⟩
  | some cut =>
      obtain ⟨front, rest⟩ := cut
      have hfront := not_infix_of_cutOn? (by decide) hcut
      have htext := eq_append_of_cutOn? hcut
      by_cases hend : '\x7d' ∈ rest
      · obtain ⟨name, back, rfl, hname⟩ := List.eq_append_cons_of_mem hend
        have hshorter : back.length < text.length := by
          rw [htext]
          simp only [List.length_append, List.length_cons]
          omega
        obtain ⟨pieces, hpieces⟩ := exists_splits back
        rw [htext]
        exact ⟨_, .hole hfront hname hpieces⟩
      · rw [htext]
        exact ⟨_, .unclosed hfront hend⟩
termination_by text.length

/-! ## Values -/

/-- Something bound to a name: a value, or a register, which is shown as in a listing. -/
inductive Binding where
  | plain (name value : String)
  | register (name : String) (number : Register)
deriving DecidableEq, Repr

namespace Binding

def name : Binding → String
  | .plain name _ => name
  | .register name _ => name

/-- What takes the place of a placeholder with the name. -/
def shown : Binding → String
  | .plain _ value => value
  | .register _ number => number.text

end Binding

/-- The template with one thing more bound. -/
def bound (template : Template) : Binding → Template
  | .plain name value => template.bind name value
  | .register name number => template.bindRegister name number

/-- The template of a text, with values bound one by one. -/
def filled (text : String) (bindings : List Binding) : Template :=
  bindings.foldl bound ⟨text, []⟩

/-- What was bound to the name last. -/
def last? (bindings : List Binding) (name : String) : Option String :=
  (bindings.filter (·.name = name)).getLast?.map (·.shown)

theorem bound_eq (template : Template) (binding : Binding) :
    bound template binding =
      ⟨template.text, (binding.name, binding.shown) :: template.bindings⟩ := by
  cases binding <;> rfl

theorem filled_eq (text : String) (bindings : List Binding) :
    filled text bindings = ⟨text, (bindings.map fun b => (b.name, b.shown)).reverse⟩ := by
  induction bindings using List.reverseRecOn with
  | nil => rfl
  | append_singleton bindings binding ih =>
      rw [filled, List.foldl_append, List.foldl_cons, List.foldl_nil, ← filled, ih, bound_eq]
      simp

theorem last?_concat (bindings : List Binding) (binding : Binding) (name : String) :
    last? (bindings ++ [binding]) name =
      if binding.name = name then some binding.shown else last? bindings name := by
  rw [last?, List.filter_append]
  split
  · rename_i heq
    simp [heq]
  · rename_i hne
    simp [hne, last?]

/-- A name has the value that was bound to it last. -/
theorem lookup_filled (text : String) (bindings : List Binding) (name : String) :
    (filled text bindings).bindings.lookup name = last? bindings name := by
  rw [filled_eq]
  induction bindings using List.reverseRecOn with
  | nil => rfl
  | append_singleton bindings binding ih =>
      rw [last?_concat, ← ih, List.map_append, List.reverse_append, List.map_singleton,
        List.reverse_singleton, List.singleton_append, List.lookup_cons]
      by_cases heq : binding.name = name
      · rw [if_pos heq, heq, beq_self_eq_true]
      · rw [if_neg heq, beq_eq_false_iff_ne.mpr (Ne.symm heq)]

theorem last?_eq_none_iff {bindings : List Binding} {name : String} :
    last? bindings name = none ↔ ∀ binding ∈ bindings, binding.name ≠ name := by
  simp [last?]

/-! ## What the pieces stand for -/

/-- What takes the place of a piece. -/
inductive Fills (bindings : List Binding) : Piece → List Char → Prop
  | plain (text : List Char) : Fills bindings (.plain text) text
  | hole {name : List Char} {value : String}
      (known : last? bindings (String.ofList name) = some value) :
      Fills bindings (.hole name) value.toList

/-- Why nothing takes the place of a piece. -/
inductive Refuses (bindings : List Binding) : Piece → AssemblyFault → Prop
  | hole {name : List Char} (unknown : ∀ binding ∈ bindings, binding.name ≠ String.ofList name) :
      Refuses bindings (.hole name) (.unboundPlaceholder (String.ofList name))
  | unclosed (rest : List Char) : Refuses bindings (.unclosed rest) .unterminatedPlaceholder

/-- The lines that end in the piece, of those that are counted. -/
def Piece.lineEnds : Piece → Nat
  | .plain text => text.count '\n'
  | .hole _ | .unclosed _ => 0

def lineEnds : List Piece → Nat
  | [] => 0
  | piece :: pieces => piece.lineEnds + lineEnds pieces

/-- The pieces with the values of the placeholders, if the first of them begins on the line. -/
def assemble (bindings : List Binding) : Nat → List Piece → Except Error (List Char)
  | _, [] => .ok []
  | line, .plain text :: pieces =>
    (assemble bindings (line + text.count '\n') pieces).map (text ++ ·)
  | line, .hole name :: pieces =>
    match last? bindings (String.ofList name) with
    | some value => (assemble bindings line pieces).map (value.toList ++ ·)
    | none => .error (.assembly line (.unboundPlaceholder (String.ofList name)))
  | line, .unclosed _ :: _ => .error (.assembly line .unterminatedPlaceholder)

section Rendering

variable {known : List (String × String)} {line : Nat}

/-- A plain piece is kept as it is.  It ends in front of a mark or with the text, so that its last
character is no part of a mark. -/
theorem renderFrom_append {front rest : List Char} (hfront : ¬ mark <:+: front)
    (hrest : rest.head? ≠ some '\x7b') :
    renderFrom known line none (front ++ rest) =
      (renderFrom known (line + front.count '\n') none rest).map (front ++ ·) := by
  induction front generalizing line with
  | nil =>
      simp only [List.nil_append, List.count_nil, Nat.add_zero]
      cases renderFrom known line none rest <;> rfl
  | cons c front ih =>
      rw [List.infix_cons_iff, not_or] at hfront
      have hplain : ∀ cs, c = '$' → front ++ rest ≠ '\x7b' :: cs := by
        rintro cs rfl heq
        cases front with
        | nil => exact hrest (by rw [← List.nil_append rest, heq]; rfl)
        | cons d front =>
            obtain rfl := (List.cons.inj heq).1
            exact hfront.1 (List.prefix_append mark front)
      rw [List.cons_append, renderFrom, ih hfront.2, List.count_cons]
      · by_cases hc : c = '\n'
        · rw [if_pos hc, hc, beq_self_eq_true, if_pos rfl, Nat.add_right_comm, Nat.add_assoc]
          cases renderFrom known _ none rest <;> rfl
        · rw [if_neg hc, beq_eq_false_iff_ne.mpr hc, if_neg Bool.false_ne_true, Nat.add_zero]
          cases renderFrom known _ none rest <;> rfl
      · exact hplain

theorem renderFrom_mark (rest : List Char) :
    renderFrom known line none (mark ++ rest) = renderFrom known line (some []) rest := rfl

theorem renderFrom_name {begun name back : List Char} (hname : '\x7d' ∉ name) :
    renderFrom known line (some begun) (name ++ '\x7d' :: back) =
      renderFrom known line (some (name.reverse ++ begun)) ('\x7d' :: back) := by
  induction name generalizing begun with
  | nil => rfl
  | cons c name ih =>
      rw [List.mem_cons, not_or] at hname
      rw [List.cons_append, renderFrom, if_neg (Ne.symm hname.1), ih hname.2, List.reverse_cons,
        List.append_assoc, List.singleton_append]

theorem renderFrom_endless {begun rest : List Char} (hrest : '\x7d' ∉ rest) :
    renderFrom known line (some begun) rest =
      .error (.assembly line .unterminatedPlaceholder) := by
  induction rest generalizing begun with
  | nil => rfl
  | cons c rest ih =>
      rw [List.mem_cons, not_or] at hrest
      rw [renderFrom, if_neg (Ne.symm hrest.1), ih hrest.2]

variable {bindings : List Binding}

/-- The text is read piece by piece. -/
theorem renderFrom_eq_assemble (hknown : ∀ name, known.lookup name = last? bindings name)
    {text : List Char} {pieces : List Piece} (h : Splits text pieces) :
    renderFrom known line none text = assemble bindings line pieces := by
  induction h generalizing line with
  | @last text unmarked =>
      have hend : ([] : List Char).head? ≠ some '\x7b' := nofun
      rw [← List.append_nil text, renderFrom_append unmarked hend, List.append_nil]
      rfl
  | unclosed unmarked endless =>
      rw [List.append_assoc, renderFrom_append unmarked (by simp [mark]), renderFrom_mark,
        renderFrom_endless endless]
      rfl
  | @hole front name back pieces unmarked ends splits ih =>
      rw [List.append_assoc, renderFrom_append unmarked (by simp [mark]), renderFrom_mark,
        renderFrom_name ends, renderFrom, if_pos rfl, List.append_nil, List.reverse_reverse]
      simp only [hknown, ih]
      rfl

end Rendering

section Assembling

variable {bindings : List Binding} {line : Nat} {pieces : List Piece}

/-- The first piece decides, and the others do if it is filled. -/
theorem assemble_cons_of_fills {piece : Piece} {text : List Char}
    (h : Fills bindings piece text) :
    assemble bindings line (piece :: pieces) =
      (assemble bindings (line + piece.lineEnds) pieces).map (text ++ ·) := by
  cases h with
  | plain text => rfl
  | hole known => rw [assemble, known]; rfl

theorem assemble_cons_of_refuses {piece : Piece} {fault : AssemblyFault}
    (h : Refuses bindings piece fault) :
    assemble bindings line (piece :: pieces) = .error (.assembly line fault) := by
  cases h with
  | hole unknown => rw [assemble, last?_eq_none_iff.mpr unknown]
  | unclosed rest => rfl

theorem fills_or_refuses (bindings : List Binding) (piece : Piece) :
    (∃ text, Fills bindings piece text) ∨ ∃ fault, Refuses bindings piece fault := by
  cases piece with
  | plain text => exact .inl ⟨text, .plain text⟩
  | unclosed rest => exact .inr ⟨_, .unclosed rest⟩
  | hole name =>
      cases hknown : last? bindings (String.ofList name) with
      | none => exact .inr ⟨_, .hole (last?_eq_none_iff.mp hknown)⟩
      | some value => exact .inl ⟨_, .hole hknown⟩

theorem assemble_eq_ok_iff {text : List Char} :
    assemble bindings line pieces = .ok text ↔
      ∃ texts, List.Forall₂ (Fills bindings) pieces texts ∧ text = texts.flatten := by
  induction pieces generalizing line text with
  | nil =>
      simp only [assemble, List.forall₂_nil_left_iff, exists_eq_left, List.flatten_nil,
        Except.ok.injEq]
      exact eq_comm
  | cons piece pieces ih =>
      constructor
      · intro h
        rcases fills_or_refuses bindings piece with ⟨front, hfront⟩ | ⟨fault, hfault⟩
        · rw [assemble_cons_of_fills hfront] at h
          obtain ⟨back, hback, rfl⟩ := map_eq_ok_iff.mp h
          obtain ⟨texts, htexts, rfl⟩ := ih.mp hback
          exact ⟨front :: texts, .cons hfront htexts, rfl⟩
        · rw [assemble_cons_of_refuses hfault] at h
          cases h
      · rintro ⟨_, hfilled, rfl⟩
        obtain ⟨front, texts, hfront, htexts, rfl⟩ := List.forall₂_cons_left_iff.mp hfilled
        rw [assemble_cons_of_fills hfront, ih.mpr ⟨texts, htexts, rfl⟩]
        rfl

/-- The first piece that nothing takes the place of is the reason, with the line it is on. -/
theorem assemble_eq_error_iff {e : Error} :
    assemble bindings line pieces = .error e ↔
      ∃ front piece back fault, pieces = front ++ piece :: back ∧
        (∀ other ∈ front, ∃ text, Fills bindings other text) ∧ Refuses bindings piece fault ∧
        e = .assembly (line + lineEnds front) fault := by
  constructor
  · intro h
    induction pieces generalizing line with
    | nil => cases h
    | cons piece pieces ih =>
        rcases fills_or_refuses bindings piece with ⟨text, htext⟩ | ⟨fault, hfault⟩
        · rw [assemble_cons_of_fills htext] at h
          have hback : assemble bindings (line + piece.lineEnds) pieces = .error e := by
            generalize assemble bindings (line + piece.lineEnds) pieces = back at h
            cases back with
            | ok back => cases h
            | error e' =>
                cases h
                rfl
          obtain ⟨front, refused, back, fault, rfl, hfront, hfault, rfl⟩ := ih hback
          refine ⟨piece :: front, refused, back, fault, rfl, ?_, hfault, ?_⟩
          · exact List.forall_mem_cons.mpr ⟨⟨text, htext⟩, hfront⟩
          · rw [lineEnds, Nat.add_assoc]
        · rw [assemble_cons_of_refuses hfault] at h
          cases h
          exact ⟨[], piece, pieces, fault, rfl, List.forall_mem_nil _, hfault, rfl⟩
  · rintro ⟨front, piece, back, fault, rfl, hfront, hfault, rfl⟩
    induction front generalizing line with
    | nil => exact assemble_cons_of_refuses hfault
    | cons other front ih =>
        rw [List.forall_mem_cons] at hfront
        obtain ⟨⟨text, htext⟩, hfront⟩ := hfront
        rw [List.cons_append, assemble_cons_of_fills htext, ih hfront, lineEnds,
          Nat.add_assoc]
        rfl

/-- All the pieces are filled if all the placeholders have an end and a name that is bound. -/
theorem exists_fills_iff :
    (∃ texts, List.Forall₂ (Fills bindings) pieces texts) ↔
      (∀ rest, .unclosed rest ∉ pieces) ∧
        ∀ name, .hole name ∈ pieces → ∃ binding ∈ bindings, binding.name = String.ofList name := by
  constructor
  · rintro ⟨texts, hfilled⟩
    have hmem : ∀ piece ∈ pieces, ∃ text, Fills bindings piece text := by
      intro piece hpiece
      obtain ⟨text, -, htext⟩ := exists_of_forall₂ hfilled.flip hpiece
      exact ⟨text, htext⟩
    refine ⟨fun rest hrest => ?_, fun name hname => ?_⟩
    · obtain ⟨_, ⟨⟩⟩ := hmem _ hrest
    · obtain ⟨_, hfills⟩ := hmem _ hname
      cases hfills with
      | hole known =>
          by_contra hnone
          rw [last?_eq_none_iff.mpr fun binding hbinding heq => hnone ⟨binding, hbinding, heq⟩]
            at known
          cases known
  · rintro ⟨hclosed, hbound⟩
    have hmem : ∀ piece ∈ pieces, ∃ text, Fills bindings piece text := by
      intro piece hpiece
      refine (fills_or_refuses bindings piece).resolve_right ?_
      rintro ⟨_, unknown | rest⟩
      · obtain ⟨binding, hbinding, heq⟩ := hbound _ hpiece
        exact unknown binding hbinding heq
      · exact hclosed rest hpiece
    clear hclosed hbound
    induction pieces with
    | nil => exact ⟨[], .nil⟩
    | cons piece pieces ih =>
        rw [List.forall_mem_cons] at hmem
        obtain ⟨⟨text, htext⟩, hmem⟩ := hmem
        obtain ⟨texts, htexts⟩ := ih hmem
        exact ⟨text :: texts, .cons htext htexts⟩

theorem assemble_congr {bindings' : List Binding} (h : last? bindings' = last? bindings) :
    assemble bindings' line pieces = assemble bindings line pieces := by
  induction pieces generalizing line with
  | nil => rfl
  | cons piece pieces ih =>
      cases piece with
      | plain text => rw [assemble, ih, assemble]
      | hole name => simp only [assemble, h, ih]
      | unclosed rest => rfl

end Assembling

/-! ## The text that is rendered -/

theorem render_eq_assemble {text : String} {pieces : List Piece} (h : Splits text.toList pieces)
    (bindings : List Binding) :
    (filled text bindings).render = (assemble bindings 1 pieces).map String.ofList := by
  rw [← renderFrom_eq_assemble (lookup_filled text bindings) h, render, filled_eq]

theorem render_eq_ok_iff {text : String} {pieces : List Piece} (h : Splits text.toList pieces)
    {bindings : List Binding} {result : String} :
    (filled text bindings).render = .ok result ↔
      ∃ texts, List.Forall₂ (Fills bindings) pieces texts ∧ result.toList = texts.flatten := by
  rw [render_eq_assemble h, map_eq_ok_iff]
  constructor
  · rintro ⟨_, hresult, rfl⟩
    rw [String.toList_ofList]
    exact assemble_eq_ok_iff.mp hresult
  · intro hfilled
    exact ⟨_, assemble_eq_ok_iff.mpr hfilled, String.ofList_toList⟩

theorem render_eq_error_iff {text : String} {pieces : List Piece} (h : Splits text.toList pieces)
    {bindings : List Binding} {e : Error} :
    (filled text bindings).render = .error e ↔
      ∃ front piece back fault, pieces = front ++ piece :: back ∧
        (∀ other ∈ front, ∃ text, Fills bindings other text) ∧ Refuses bindings piece fault ∧
        e = .assembly (1 + lineEnds front) fault := by
  rw [render_eq_assemble h, ← assemble_eq_error_iff]
  cases assemble bindings 1 pieces <;> simp [Except.map]

/--
A text consists of pieces in one way.  It is rendered exactly if all its placeholders have an end and
a name that is bound, and then into the plain pieces and, in place of the placeholders, the values
that were bound to their names last; otherwise the first placeholder without a value is the reason.
The order in which values were bound to different names does not matter.
-/
theorem render_substitutes_once (text : String) (bindings : List Binding) :
    ∃ pieces, Splits text.toList pieces ∧ (∀ other, Splits text.toList other → other = pieces) ∧
      ((∃ result, (filled text bindings).render = .ok result) ↔
        (∀ rest, .unclosed rest ∉ pieces) ∧
          ∀ name, .hole name ∈ pieces → ∃ binding ∈ bindings, binding.name = String.ofList name) ∧
      (∀ result, (filled text bindings).render = .ok result ↔
        ∃ texts, List.Forall₂ (Fills bindings) pieces texts ∧ result.toList = texts.flatten) ∧
      (∀ e, (filled text bindings).render = .error e ↔
        ∃ front piece back fault, pieces = front ++ piece :: back ∧
          (∀ other ∈ front, ∃ text, Fills bindings other text) ∧ Refuses bindings piece fault ∧
          e = .assembly (1 + lineEnds front) fault) ∧
      ∀ reordered : List Binding,
        (∀ name, reordered.filter (·.name = name) = bindings.filter (·.name = name)) →
        (filled text reordered).render = (filled text bindings).render := by
  obtain ⟨pieces, hsplits⟩ := exists_splits text.toList
  refine ⟨pieces, hsplits, fun other hother => hother.unique hsplits, ?_,
    fun result => render_eq_ok_iff hsplits, fun e => render_eq_error_iff hsplits,
    fun reordered horder => ?_⟩
  · rw [← exists_fills_iff]
    constructor
    · rintro ⟨result, hresult⟩
      obtain ⟨texts, htexts, -⟩ := (render_eq_ok_iff hsplits).mp hresult
      exact ⟨texts, htexts⟩
    · rintro ⟨texts, htexts⟩
      exact ⟨_, (render_eq_ok_iff hsplits).mpr ⟨texts, htexts, String.toList_ofList⟩⟩
  · have hlast : last? reordered = last? bindings := by
      funext name
      rw [last?, horder, last?]
    rw [render_eq_assemble hsplits, render_eq_assemble hsplits, assemble_congr hlast]

/-- A value that looks like a placeholder, a dollar sign in front of a mark, and a name bound twice. -/
theorem render_substitutes_once_nested :
    let text := "a$$\x7bx\x7d\nb$\x7by\x7d\x7d$\x7bx\x7d"
    let bindings : List Binding := [.plain "x" "0", .plain "y" "$\x7bx\x7d\x7d", .register "x" 3]
    let reordered : List Binding := [.plain "x" "0", .register "x" 3, .plain "y" "$\x7bx\x7d\x7d"]
    (∀ name, reordered.filter (·.name = name) = bindings.filter (·.name = name)) ∧
      (filled text bindings).render = .ok "a$v3\nb$\x7bx\x7d\x7d\x7dv3" ∧
      (filled text reordered).render = .ok "a$v3\nb$\x7bx\x7d\x7d\x7dv3" := by
  intro text bindings reordered
  obtain ⟨pieces, -, unique, -, renders, -, order⟩ := render_substitutes_once text bindings
  have splits : Splits text.toList [.plain ['a', '$'], .hole ['x'], .plain ['\n', 'b'], .hole ['y'],
      .plain ['\x7d'], .hole ['x'], .plain []] := by
    have last : Splits [] [.plain []] := .last (by decide)
    have third : Splits _ [.plain ['\x7d'], .hole ['x'], _] := .hole (by decide) (by decide) last
    have second : Splits _ (.plain ['\n', 'b'] :: .hole ['y'] :: _) :=
      .hole (by decide) (by decide) third
    have first : Splits _ (.plain ['a', '$'] :: .hole ['x'] :: _) :=
      .hole (by decide) (by decide) second
    convert first using 1
    decide
  have same : ∀ name, reordered.filter (·.name = name) = bindings.filter (·.name = name) := by
    intro name
    by_cases hx : "x" = name
    · subst hx
      rfl
    · simp [reordered, bindings, List.filter_cons, Binding.name, hx]
  have register : Register.text 3 = "v3" := by
    rw [Register.text, Numeral.decimal, Numeral.digitsOf]
    rfl
  have rendered : (filled text bindings).render = .ok "a$v3\nb$\x7bx\x7d\x7d\x7dv3" := by
    rw [renders, ← unique _ splits]
    refine ⟨[['a', '$'], "v3".toList, ['\n', 'b'], "$\x7bx\x7d\x7d".toList, ['\x7d'], "v3".toList, []],
      ?_, by decide⟩
    have known : last? bindings "x" = some "v3" := by
      rw [← register]
      rfl
    exact .cons (.plain _) (.cons (.hole known) (.cons (.plain _) (.cons (.hole rfl)
      (.cons (.plain _) (.cons (.hole known) (.cons (.plain _) .nil))))))
  exact ⟨same, rendered, (order reordered same).trans rendered⟩

end DexGraft.Template
