import DexGraft.Code.Reference
import DexGraft.Proofs.Outcome
import DexGraft.Proofs.Text.Blank
import DexGraft.Proofs.Text.Cut

/-!
# References read and written

Every reference but a string is written as the text that it was read from, without the blanks around
it.  A string is written with its own quoting, which reads as the string again.
-/

namespace DexGraft

open Text Outcome

/-! ## Descriptors -/

namespace Descriptor

/-- What a character can do, whatever stands behind it: end a descriptor, go on with it, or stand
where it cannot. -/
inductive Reads (begun : List Char) (named : Bool) (c : Char) : Prop
  | ends (h : ∀ cs, typesFrom begun named (c :: cs) =
      (typesFrom [] false cs).map ((c :: begun).reverse :: ·))
  | goes (next : Bool) (h : ∀ cs, typesFrom begun named (c :: cs) = typesFrom (c :: begun) next cs)
  | fails (h : ∀ cs, typesFrom begun named (c :: cs) = none)

theorem reads (begun : List Char) (named : Bool) (c : Char) : Reads begun named c := by
  by_cases hnamed : named
  · by_cases hc : c = ';'
    · exact .ends fun cs => by rw [typesFrom, if_pos hnamed, if_pos hc]
    · exact .goes true fun cs => by rw [typesFrom, if_pos hnamed, if_neg hc]
  · by_cases harray : c = '['
    · exact .goes false fun cs => by rw [typesFrom, if_neg hnamed, if_pos harray]
    · by_cases hclass : c = 'L'
      · exact .goes true fun cs => by
          rw [typesFrom, if_neg hnamed, if_neg harray, if_pos hclass]
      · by_cases hprimitive : c ∈ primitives
        · exact .ends fun cs => by
            rw [typesFrom, if_neg hnamed, if_neg harray, if_neg hclass, if_pos hprimitive]
        · exact .fails fun cs => by
            rw [typesFrom, if_neg hnamed, if_neg harray, if_neg hclass, if_neg hprimitive]

/-- The descriptors that a text consists of make up the text. -/
theorem flatten_of_typesFrom {begun cs : List Char} {named : Bool} {types : List (List Char)}
    (h : typesFrom begun named cs = some types) : types.flatten = begun.reverse ++ cs := by
  induction cs generalizing begun named types with
  | nil =>
      simp only [typesFrom] at h
      split at h <;> simp_all
  | cons c cs ih =>
      cases reads begun named c with
      | ends hends =>
          rw [hends] at h
          obtain ⟨rest, hrest, rfl⟩ := Option.map_eq_some_iff.mp h
          simp [ih hrest]
      | goes next hgoes =>
          rw [hgoes] at h
          simp [ih h]
      | fails hfails =>
          rw [hfails] at h
          cases h

theorem flatten_of_types? {cs : List Char} {types : List (List Char)}
    (h : types? cs = some types) : types.flatten = cs := by
  simpa using flatten_of_typesFrom h

theorem toList_join_of_typeList {cs : List Char} {types : List String}
    (h : typeList cs = .ok types) : (join "" types).toList = cs := by
  rw [typeList] at h
  split at h
  · rename_i parts hparts
    cases h
    rw [toList_join_empty, ← flatten_of_types? hparts]
    simp [Function.comp_def]
  · cases h

/-- Behind a list of descriptors, the next descriptor begins. -/
theorem typesFrom_append {begun cs : List Char} {named : Bool} {types : List (List Char)}
    (h : typesFrom begun named cs = some types) (hbegun : named → begun ≠ []) (more : List Char) :
    typesFrom begun named (cs ++ more) = (typesFrom [] false more).map (types ++ ·) := by
  induction cs generalizing begun named types with
  | nil =>
      simp only [typesFrom] at h
      split at h
      · rename_i hempty
        cases h
        rw [List.isEmpty_iff] at hempty
        have hnamed : named = false := by
          rw [Bool.eq_false_iff]
          exact fun hnamed => hbegun hnamed hempty
        rw [hempty, hnamed]
        simp
      · cases h
  | cons c cs ih =>
      rw [List.cons_append]
      cases reads begun named c with
      | ends hends =>
          rw [hends] at h ⊢
          obtain ⟨rest, hrest, rfl⟩ := Option.map_eq_some_iff.mp h
          have hunnamed : false = true → ([] : List Char) ≠ [] :=
            fun h => absurd h Bool.false_ne_true
          rw [ih hrest hunnamed, Option.map_map]
          rfl
      | goes next hgoes =>
          rw [hgoes] at h ⊢
          exact ih h fun _ => List.cons_ne_nil _ _
      | fails hfails =>
          rw [hfails] at h
          cases h

theorem types?_append {cs : List Char} {types : List (List Char)} (h : types? cs = some types)
    (more : List Char) : types? (cs ++ more) = (types? more).map (types ++ ·) :=
  typesFrom_append h nofun more

/-- Nothing can stand behind a descriptor so that both together are a descriptor. -/
theorem eq_nil_of_isType_append {cs more : List Char} (h : isType cs)
    (hmore : isType (cs ++ more)) : more = [] := by
  rw [isType] at h hmore
  split at h
  swap
  · cases h
  rename_i type htype
  rw [types?_append htype] at hmore
  split at hmore
  · rename_i type' htype'
    obtain ⟨types, htypes, heq⟩ := Option.map_eq_some_iff.mp htype'
    rw [List.singleton_append, List.cons.injEq] at heq
    rw [← flatten_of_types? htypes, heq.2]
    rfl
  · cases hmore

theorem types?_append_paren {cs : List Char} {types : List (List Char)}
    (h : types? cs = some types) (more : List Char) : types? (cs ++ ')' :: more) = none := by
  rw [types?_append h]
  rfl

/-- Lists of descriptors with a parenthesis behind them show where they end. -/
theorem eq_of_append_paren {a b rest rest' : List Char} {types types' : List (List Char)}
    (ha : types? a = some types) (hb : types? b = some types')
    (h : a ++ ')' :: rest = b ++ ')' :: rest') : a = b ∧ rest = rest' := by
  rcases List.append_eq_append_iff.mp h with ⟨c, rfl, hc⟩ | ⟨c, rfl, hc⟩
  · cases c with
    | nil => exact ⟨(List.append_nil a).symm, (List.cons.inj hc).2⟩
    | cons d c =>
        rw [← (List.cons.inj hc).1, types?_append_paren ha] at hb
        cases hb
  · cases c with
    | nil => exact ⟨List.append_nil b, (List.cons.inj hc).2.symm⟩
    | cons d c =>
        rw [← (List.cons.inj hc).1, types?_append_paren hb] at ha
        cases ha

/-- A class name that has begun ends with a semicolon. -/
theorem typesFrom_eq_none {begun cs : List Char} (hbegun : begun ≠ []) (h : ';' ∉ cs) :
    typesFrom begun true cs = none := by
  induction cs generalizing begun with
  | nil => rw [typesFrom, if_neg (by simpa using hbegun)]
  | cons c cs ih =>
      rw [List.mem_cons, not_or] at h
      rw [typesFrom, if_pos rfl, if_neg (Ne.symm h.1)]
      exact ih (List.cons_ne_nil _ _) h.2

/-- A parenthesis stands in a list of descriptors only inside a class name. -/
theorem typesFrom_append_paren {begun a b : List Char} {named : Bool} (h : ';' ∉ b) :
    typesFrom begun named (a ++ '(' :: b) = none := by
  induction a generalizing begun named with
  | nil =>
      cases named with
      | false => rfl
      | true =>
        rw [List.nil_append, typesFrom, if_pos rfl, if_neg (by decide)]
        exact typesFrom_eq_none (List.cons_ne_nil _ _) h
  | cons c a ih =>
      rw [List.cons_append]
      cases reads begun named c with
      | ends hends => rw [hends, ih]; rfl
      | goes next hgoes => rw [hgoes, ih]
      | fails hfails => exact hfails _

end Descriptor

/-! ## Methods and fields -/

namespace MethodRef

/-- What a text consists of that reads as the reference to a method. -/
theorem read_eq_ok_iff {cs : List Char} {method : MethodRef} :
    read cs = .ok method ↔
      ∃ owner rest name rest' parameters returnType types,
        cutOn? ['-', '>'] (trim cs) = some (owner, rest) ∧
        cut? (· == '(') rest = some (name, rest') ∧
        cutLast? (· == ')') rest' = some (parameters, returnType) ∧
        (name.isEmpty || !Descriptor.isType owner || !Descriptor.isType returnType) = false ∧
        Descriptor.typeList parameters = .ok types ∧
        ⟨String.ofList owner, String.ofList name, types, String.ofList returnType⟩ = method := by
  constructor
  · intro h
    simp only [read] at h
    split at h
    · cases h
    rename_i owner rest hcut
    split at h
    · cases h
    rename_i name rest' hname
    split at h
    · cases h
    rename_i parameters returnType hparameters
    split at h
    · cases h
    rename_i hvalid
    obtain ⟨types, htypes, heq⟩ := map_eq_ok_iff.mp h
    exact ⟨owner, rest, name, rest', parameters, returnType, types, hcut, hname, hparameters,
      Bool.eq_false_iff.mpr hvalid, htypes, heq⟩
  · rintro ⟨owner, rest, name, rest', parameters, returnType, types, hcut, hname, hparameters,
      hvalid, htypes, rfl⟩
    simp only [read, hcut, hname, hparameters, hvalid, htypes]
    rfl

/-- Blanks around the reference to a method make no difference. -/
theorem read_trim_eq_ok_iff {cs : List Char} {method : MethodRef} :
    read (trim cs) = .ok method ↔ read cs = .ok method := by
  rw [read_eq_ok_iff, read_eq_ok_iff, trim_trim]

/-- What reads as the reference to a method is its text, with blanks around it at most. -/
theorem toList_text_of_read {cs : List Char} {method : MethodRef} (h : read cs = .ok method) :
    method.text.toList = trim cs := by
  obtain ⟨owner, rest, name, rest', parameters, returnType, types, hcut, hname, hparameters, -,
    htypes, rfl⟩ := read_eq_ok_iff.mp h
  obtain ⟨c, hc, hrest, -⟩ := of_cut? hname
  obtain ⟨d, hd, hrest', -⟩ := of_cutLast? hparameters
  rw [beq_iff_eq] at hc hd
  simp [text, Descriptor.toList_join_of_typeList htypes, eq_append_of_cutOn? hcut, hrest, hrest',
    hc, hd]

theorem types?_of_typeList {cs : List Char} {types : List String}
    (h : Descriptor.typeList cs = .ok types) : ∃ types', Descriptor.types? cs = some types' := by
  rw [Descriptor.typeList] at h
  split at h
  · exact ⟨_, ‹_›⟩
  · cases h

/-- No reference to a method begins with another one. -/
theorem eq_nil_of_read_append {cs more : List Char} {method method' : MethodRef}
    (h : read cs = .ok method) (hmore : read (cs ++ more) = .ok method')
    (htrim : trim cs = cs) (htrim' : trim (cs ++ more) = cs ++ more) : more = [] := by
  obtain ⟨owner, rest, name, rest', parameters, returnType, types, hcut, hname, hparameters, hvalid,
    htypes, -⟩ := read_eq_ok_iff.mp h
  obtain ⟨owner₂, rest₂, name₂, rest₂', parameters₂, returnType₂, types₂, hcut₂, hname₂,
    hparameters₂, hvalid₂, htypes₂, -⟩ := read_eq_ok_iff.mp hmore
  rw [htrim] at hcut
  rw [htrim', cutOn?_append_right hcut more] at hcut₂
  cases hcut₂
  rw [cut?_append_right hname more] at hname₂
  cases hname₂
  obtain ⟨c, hc, rfl, -⟩ := of_cutLast? hparameters
  obtain ⟨d, hd, heq, -⟩ := of_cutLast? hparameters₂
  rw [beq_iff_eq] at hc hd
  rw [hc, hd, List.append_assoc] at heq
  obtain ⟨types', htypes'⟩ := types?_of_typeList htypes
  obtain ⟨types₂', htypes₂'⟩ := types?_of_typeList htypes₂
  obtain ⟨-, hreturn⟩ := Descriptor.eq_of_append_paren htypes' htypes₂' heq
  simp only [Bool.or_eq_false_iff, Bool.not_eq_false'] at hvalid hvalid₂
  rw [← hreturn] at hvalid₂
  exact Descriptor.eq_nil_of_isType_append hvalid.2 hvalid₂.2

/-- Whether a text with a parameter list at its end reads as the reference to a method does not depend
on the name in front of the list. -/
theorem exists_read_named_iff {owner name parameters result : List Char} (hne : name ≠ [])
    (hname : '(' ∉ name) (hparameters : ';' ∉ parameters)
    (hresult : ∀ c ∈ result, isBlank c = false ∧ (c == ')') = false) :
    (∃ method, read (owner ++ (['-', '>'] ++ (name ++ '(' :: (parameters ++ ')' :: result)))) =
        .ok method) ↔
      (∃ a b, cutOn? ['-', '>'] (trimFront owner ++ ['-', '>']) = some (a, b) ∧ '(' ∉ b ∧
        Descriptor.isType a) ∧ Descriptor.isType result ∧
          ∃ types, Descriptor.typeList parameters = .ok types := by
  obtain ⟨a, b, hmark⟩ := exists_cutOn?_append ['-', '>'] (trimFront owner)
  set signature := name ++ '(' :: (parameters ++ ')' :: result) with hsignature
  have htrim : trim (owner ++ (['-', '>'] ++ signature)) =
      trimFront owner ++ ['-', '>'] ++ signature := by
    rw [List.append_assoc]
    refine trim_append owner (List.cons_ne_nil _ _) ?_ ?_
    · rintro c ⟨⟩
      rfl
    · intro c hc
      have hend : ['-', '>'] ++ signature =
          ['-', '>'] ++ name ++ '(' :: parameters ++ ')' :: result := by
        simp [hsignature]
      rw [hend, List.getLast?_append_of_ne_nil _ (List.cons_ne_nil _ _)] at hc
      rcases List.mem_cons.mp (List.mem_of_getLast? hc) with rfl | hmem
      · rfl
      · exact (hresult c hmem).1
  have hcut : cutOn? ['-', '>'] (trim (owner ++ (['-', '>'] ++ signature))) =
      some (a, b ++ signature) := by
    rw [htrim]
    exact cutOn?_append_right hmark signature
  have hlist (front : List Char) : cutLast? (· == ')') (front ++ (parameters ++ ')' :: result)) =
      some (front ++ parameters, result) := by
    rw [← List.append_assoc]
    exact cutLast?_append (beq_self_eq_true ')') fun c hc => (hresult c hc).2
  have hread (hb : '(' ∉ b) : cut? (· == '(') (b ++ signature) =
      some (b ++ name, parameters ++ ')' :: result) := by
    rw [hsignature, ← List.append_assoc]
    refine cut?_append (fun c hc => beq_eq_false_iff_ne.mpr ?_) (beq_self_eq_true '(')
    rintro rfl
    exact (List.mem_append.mp hc).elim hb hname
  constructor
  · rintro ⟨method, h⟩
    obtain ⟨owner', rest, name', rest', parameters', result', types, hcut', hname', hlist', hvalid,
      htypes, -⟩ := read_eq_ok_iff.mp h
    cases hcut.symm.trans hcut'
    have hb : '(' ∉ b := by
      intro hmem
      obtain ⟨b₁, b₂, rfl, hfirst⟩ := List.eq_append_cons_of_mem hmem
      have hfirst' : ∀ c ∈ b₁, (c == '(') = false := fun c hc =>
        beq_eq_false_iff_ne.mpr fun heq => hfirst (heq ▸ hc)
      rw [List.append_assoc, List.cons_append, cut?_append hfirst' (beq_self_eq_true '(')] at hname'
      cases hname'
      have hfront : b₂ ++ signature = (b₂ ++ name ++ ['(']) ++ (parameters ++ ')' :: result) := by
        simp [hsignature]
      rw [hfront, hlist] at hlist'
      cases hlist'
      obtain ⟨types', htypes'⟩ := types?_of_typeList htypes
      rw [List.append_assoc, List.singleton_append, Descriptor.types?,
        Descriptor.typesFrom_append_paren hparameters] at htypes'
      cases htypes'
    rw [hread hb] at hname'
    cases hname'
    cases (hlist []).symm.trans hlist'
    simp only [Bool.or_eq_false_iff, Bool.not_eq_false'] at hvalid
    exact ⟨⟨a, b, hmark, hb, hvalid.1.2⟩, hvalid.2, types, htypes⟩
  · rintro ⟨⟨a', b', hmark', hb, htype⟩, htype', types, htypes⟩
    cases hmark.symm.trans hmark'
    have hempty : (b ++ name).isEmpty = false := by
      simp [hne]
    refine ⟨_, read_eq_ok_iff.mpr ⟨a, b ++ signature, b ++ name, parameters ++ ')' :: result,
      parameters, result, types, hcut, hread hb, hlist [], ?_, htypes, rfl⟩⟩
    rw [hempty, htype, htype']
    rfl

end MethodRef

/-- What a text consists of that reads as the reference to a field. -/
theorem FieldRef.read_eq_ok_iff {cs : List Char} {field : FieldRef} :
    FieldRef.read cs = .ok field ↔
      ∃ owner rest name type, cutOn? ['-', '>'] (trim cs) = some (owner, rest) ∧
        cut? (· == ':') rest = some (name, type) ∧
        (name.isEmpty || !Descriptor.isType owner || !Descriptor.isType type) = false ∧
        ⟨String.ofList owner, String.ofList name, String.ofList type⟩ = field := by
  constructor
  · intro h
    simp only [FieldRef.read] at h
    split at h
    · cases h
    rename_i owner rest hcut
    split at h
    · cases h
    rename_i name type hname
    split at h
    · cases h
    rename_i hvalid
    exact ⟨owner, rest, name, type, hcut, hname, Bool.eq_false_iff.mpr hvalid, Except.ok.inj h⟩
  · rintro ⟨owner, rest, name, type, hcut, hname, hvalid, rfl⟩
    simp only [FieldRef.read, hcut, hname, hvalid]
    rfl

/-- What reads as the reference to a field is its text, with blanks around it at most. -/
theorem FieldRef.toList_text_of_read {cs : List Char} {field : FieldRef}
    (h : FieldRef.read cs = .ok field) : field.text.toList = trim cs := by
  obtain ⟨owner, rest, name, type, hcut, hname, -, rfl⟩ := FieldRef.read_eq_ok_iff.mp h
  obtain ⟨c, hc, hrest, -⟩ := of_cut? hname
  rw [beq_iff_eq] at hc
  simp [FieldRef.text, eq_append_of_cutOn? hcut, hrest, hc]

/-! ## References of any kind -/

namespace Reference

/-- All references but strings are written as they were read. -/
theorem toList_text_of_read {kind : ReferenceKind} {cs : List Char} {reference : Reference}
    (h : read kind cs = .ok reference) (hkind : kind ≠ .string) :
    reference.text.toList = trim cs := by
  have checked : ∀ {b : Bool} {r : Reference} {e : Error},
      (if b = true then Except.ok r else Except.error e) = Except.ok reference → r = reference := by
    intro b r e h
    split at h <;> simp_all
  cases kind with
  | method =>
      obtain ⟨method, hmethod, rfl⟩ := map_eq_ok_iff.mp h
      simpa [text] using MethodRef.toList_text_of_read hmethod
  | field =>
      obtain ⟨field, hfield, rfl⟩ := map_eq_ok_iff.mp h
      simpa [text] using FieldRef.toList_text_of_read hfield
  | string => exact absurd rfl hkind
  | type | methodHandle | methodType | callSite =>
      rw [← checked h]
      simp [text]

theorem exists_of_read_string {cs : List Char} {reference : Reference}
    (h : read .string cs = .ok reference) : ∃ value, reference = .string value := by
  simp only [read] at h
  split at h
  · cases h
    exact ⟨_, rfl⟩
  · cases h

theorem trim_quote (cs : List Char) : trim (Quoted.quote cs) = Quoted.quote cs := by
  have hquote : isBlank '"' = false := rfl
  refine trim_eq_self_iff.mpr ⟨?_, ?_⟩
  · simp [Quoted.quote, hquote]
  · rw [Quoted.quote, List.getLast?_append]
    simp [hquote]

/-- A string that is written reads as itself. -/
theorem read_string_text (value : String) :
    read .string (Reference.string value).text.toList = .ok (.string value) := by
  simp [read, text, trim_quote]

end Reference

end DexGraft
