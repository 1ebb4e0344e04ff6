import DexGraft.Proofs.Code.Reference

/-!
# How references are spelled

Type descriptors as a grammar, and the references to methods and fields as what stands around and
between them.  A class name may hold every mark at which a reference is cut, so each part must be
without the mark that ends it.  The main statement is that nothing else reads as a reference, and that
every reference made of such parts reads as itself.
-/

namespace DexGraft

open Text Outcome

/-! ## Type descriptors -/

namespace Descriptor

/-- The text is a type descriptor. -/
inductive Spelled : List Char → Prop
  | primitive {c : Char} (letter : c ∈ primitives) : Spelled [c]
  | named {name : List Char} (inside : ';' ∉ name) : Spelled ('L' :: (name ++ [';']))
  | array {element : List Char} (spelled : Spelled element) : Spelled ('[' :: element)

variable {cs : List Char} {types : List (List Char)}

theorem typesFrom_primitive {c : Char} (h : c ∈ primitives) (begun more : List Char) :
    typesFrom begun false (c :: more) =
      (typesFrom [] false more).map ((c :: begun).reverse :: ·) := by
  have harray : c ≠ '[' := by
    rintro rfl
    exact absurd h (by decide)
  have hclass : c ≠ 'L' := by
    rintro rfl
    exact absurd h (by decide)
  rw [typesFrom, if_neg Bool.false_ne_true, if_neg harray, if_neg hclass, if_pos h]

/-- A class name is read up to the semicolon behind it. -/
theorem typesFrom_name {name : List Char} (h : ';' ∉ name) (begun more : List Char) :
    typesFrom begun true (name ++ ';' :: more) =
      (typesFrom [] false more).map ((begun.reverse ++ (name ++ [';'])) :: ·) := by
  induction name generalizing begun with
  | nil =>
      rw [List.nil_append, typesFrom, if_pos rfl, if_pos rfl, List.reverse_cons, List.nil_append]
  | cons c name ih =>
      rw [List.mem_cons, not_or] at h
      rw [List.cons_append, typesFrom, if_pos rfl, if_neg (Ne.symm h.1), ih h.2, List.reverse_cons,
        List.append_assoc, List.singleton_append, List.cons_append]

/-- A descriptor is read up to its end, whatever stands behind it. -/
theorem Spelled.typesFrom_append (h : Spelled cs) (begun more : List Char) :
    typesFrom begun false (cs ++ more) =
      (typesFrom [] false more).map ((begun.reverse ++ cs) :: ·) := by
  induction h generalizing begun with
  | primitive letter =>
      rw [List.singleton_append, typesFrom_primitive letter, List.reverse_cons]
  | @named name inside =>
      have hclass : 'L' :: (name ++ [';']) ++ more = 'L' :: (name ++ ';' :: more) := by simp
      rw [hclass, typesFrom, if_neg Bool.false_ne_true, if_neg (by decide), if_pos rfl,
        typesFrom_name inside, List.reverse_cons, List.append_assoc, List.singleton_append]
  | array spelled ih =>
      rw [List.cons_append, typesFrom, if_neg Bool.false_ne_true, if_pos rfl, ih, List.reverse_cons,
        List.append_assoc, List.singleton_append]

/-- Descriptors one behind the other are read one by one. -/
theorem types?_flatten (h : ∀ type ∈ types, Spelled type) : types? types.flatten = some types := by
  induction types with
  | nil => rfl
  | cons type types ih =>
      rw [List.forall_mem_cons] at h
      have hrest : typesFrom [] false types.flatten = some types := ih h.2
      rw [List.flatten_cons, types?, h.1.typesFrom_append, hrest]
      rfl

/-- What has been read of a descriptor is one as soon as the rest has been read: an element type, or
the rest of the class name. -/
def Awaits (begun : List Char) : Bool → Prop
  | false => ∀ element, Spelled element → Spelled (begun.reverse ++ element)
  | true => ∀ name, ';' ∉ name → Spelled (begun.reverse ++ (name ++ [';']))

theorem awaits_nil : Awaits [] false := fun _ spelled => spelled

theorem Awaits.dimension {begun : List Char} (h : Awaits begun false) :
    Awaits ('[' :: begun) false := by
  intro element spelled
  rw [List.reverse_cons, List.append_assoc]
  exact h _ spelled.array

theorem Awaits.className {begun : List Char} (h : Awaits begun false) :
    Awaits ('L' :: begun) true := by
  intro name inside
  rw [List.reverse_cons, List.append_assoc]
  exact h _ (.named inside)

theorem Awaits.letter {begun : List Char} {c : Char} (h : Awaits begun true) (hc : c ≠ ';') :
    Awaits (c :: begun) true := by
  intro name inside
  rw [List.reverse_cons, List.append_assoc]
  refine h (c :: name) fun hmem => ?_
  exact (List.mem_cons.mp hmem).elim (fun heq => hc heq.symm) inside

/-- Only descriptors are read. -/
theorem spelled_of_typesFrom {begun : List Char} {named : Bool} (hbegun : Awaits begun named)
    (h : typesFrom begun named cs = some types) : ∀ type ∈ types, Spelled type := by
  induction cs generalizing begun named types with
  | nil =>
      simp only [typesFrom] at h
      split at h
      · cases h
        exact List.forall_mem_nil _
      · cases h
  | cons c cs ih =>
      -- where a descriptor ends, the next one begins with nothing read
      have ends : Spelled (begun.reverse ++ [c]) →
          (typesFrom [] false cs).map ((c :: begun).reverse :: ·) = some types →
            ∀ type ∈ types, Spelled type := by
        intro spelled h
        obtain ⟨rest, hrest, rfl⟩ := Option.map_eq_some_iff.mp h
        rw [List.reverse_cons, List.forall_mem_cons]
        exact ⟨spelled, ih awaits_nil hrest⟩
      rw [typesFrom] at h
      split at h
      · rename_i hnamed
        subst hnamed
        split at h
        · rename_i hc
          subst hc
          exact ends (hbegun [] List.not_mem_nil) h
        · rename_i hc
          exact ih (hbegun.letter hc) h
      · rename_i hnamed
        rw [Bool.not_eq_true] at hnamed
        subst hnamed
        split at h
        · rename_i hc
          subst hc
          exact ih hbegun.dimension h
        · split at h
          · rename_i hc
            subst hc
            exact ih hbegun.className h
          · split at h
            · rename_i hc
              exact ends (hbegun [c] (.primitive hc)) h
            · cases h

/-- A text consists of descriptors in one way at most, and in this way it is read. -/
theorem types?_eq_some_iff :
    types? cs = some types ↔ (∀ type ∈ types, Spelled type) ∧ types.flatten = cs := by
  constructor
  · intro h
    exact ⟨spelled_of_typesFrom awaits_nil h, flatten_of_types? h⟩
  · rintro ⟨spelled, rfl⟩
    exact types?_flatten spelled

theorem isType_iff : isType cs ↔ Spelled cs := by
  rw [isType]
  constructor
  · intro h
    split at h
    · rename_i type htypes
      obtain ⟨spelled, rfl⟩ := types?_eq_some_iff.mp htypes
      rw [List.flatten_singleton]
      exact spelled type (List.mem_singleton_self type)
    · cases h
  · intro spelled
    have htypes : types? cs = some [cs] :=
      types?_eq_some_iff.mpr ⟨List.forall_mem_singleton.mpr spelled, List.flatten_singleton⟩
    rw [htypes]

theorem typeList_eq_ok_iff {types : List String} :
    typeList cs = .ok types ↔
      (∀ type ∈ types, Spelled type.toList) ∧ (join "" types).toList = cs := by
  rw [toList_join_empty]
  constructor
  · intro h
    rw [typeList] at h
    split at h
    · rename_i parts hparts
      cases h
      have hback : (parts.map String.ofList).map String.toList = parts := by
        simp [Function.comp_def]
      obtain ⟨spelled, hflatten⟩ := types?_eq_some_iff.mp hparts
      rw [hback, List.forall_mem_map]
      exact ⟨fun part hpart => String.toList_ofList.symm ▸ spelled part hpart, hflatten⟩
    · cases h
  · rintro ⟨spelled, hflatten⟩
    have htypes : types? cs = some (types.map String.toList) :=
      types?_eq_some_iff.mpr ⟨List.forall_mem_map.mpr spelled, hflatten⟩
    rw [typeList, htypes]
    simp [Function.comp_def]

/-! ### Ends -/

theorem isBlank_of_mem_primitives {c : Char} (h : c ∈ primitives) : isBlank c = false := by
  have hall : primitives.all fun letter => !isBlank letter := by decide
  simpa using List.all_eq_true.mp hall c h

theorem Spelled.head?_not_blank (h : Spelled cs) : ∀ c ∈ cs.head?, isBlank c = false := by
  cases h with
  | primitive letter =>
      rintro _ ⟨⟩
      exact isBlank_of_mem_primitives letter
  | named | array =>
      rintro _ ⟨⟩
      decide

theorem Spelled.ne_nil (h : Spelled cs) : cs ≠ [] := by
  cases h <;> exact List.cons_ne_nil _ _

theorem Spelled.getLast?_not_blank (h : Spelled cs) : ∀ c ∈ cs.getLast?, isBlank c = false := by
  induction h with
  | primitive letter =>
      rintro _ ⟨⟩
      exact isBlank_of_mem_primitives letter
  | named inside =>
      rw [← List.cons_append, List.getLast?_concat]
      rintro _ ⟨⟩
      decide
  | @array element spelled ih =>
      rw [← List.singleton_append, List.getLast?_append_of_ne_nil _ spelled.ne_nil]
      exact ih

/-- Nothing is trimmed from a text that begins and ends with a descriptor. -/
theorem Spelled.trim_append {front back : List Char} (hfront : Spelled front)
    (hback : Spelled back) (between : List Char) :
    trim (front ++ between ++ back) = front ++ between ++ back := by
  rw [trim_eq_self_iff, List.append_assoc]
  constructor
  · rw [List.head?_append_of_ne_nil _ hfront.ne_nil]
    exact hfront.head?_not_blank
  · rw [← List.append_assoc, List.getLast?_append_of_ne_nil _ hback.ne_nil]
    exact hback.getLast?_not_blank

end Descriptor

/-! ## Methods -/

namespace MethodRef

/-- The parts of the reference are descriptors and a name, each without the mark behind it. -/
structure WellFormed (method : MethodRef) : Prop where
  owner : Descriptor.Spelled method.owner.toList
  arrow : ¬ ['-', '>'] <:+: method.owner.toList
  name : method.name ≠ ""
  openParen : '(' ∉ method.name.toList
  parameters : ∀ type ∈ method.parameters, Descriptor.Spelled type.toList
  returnType : Descriptor.Spelled method.returnType.toList
  closeParen : ')' ∉ method.returnType.toList

variable {method : MethodRef}

theorem toList_text (method : MethodRef) :
    method.text.toList = method.owner.toList ++
      (['-', '>'] ++ (method.name.toList ++ '(' ::
        ((join "" method.parameters).toList ++ [')']))) ++ method.returnType.toList := by
  simp [text]

theorem WellFormed.trim_text (h : method.WellFormed) :
    trim method.text.toList = method.text.toList := by
  rw [toList_text]
  exact h.owner.trim_append h.returnType _

/-- The parts of a reference that has been read. -/
theorem wellFormed_of_read {cs : List Char} (h : read cs = .ok method) : method.WellFormed := by
  obtain ⟨owner, rest, name, rest', parameters, returnType, types, hcut, hname, hparameters, hvalid,
    htypes, rfl⟩ := read_eq_ok_iff.mp h
  obtain ⟨-, -, -, hopen⟩ := of_cut? hname
  obtain ⟨-, -, -, hclose⟩ := of_cutLast? hparameters
  simp only [Bool.or_eq_false_iff, Bool.not_eq_false', List.isEmpty_eq_false_iff] at hvalid
  obtain ⟨⟨hne, howner⟩, hreturn⟩ := hvalid
  constructor
  case owner =>
    rw [String.toList_ofList]
    exact Descriptor.isType_iff.mp howner
  case arrow =>
    rw [String.toList_ofList]
    exact not_infix_of_cutOn? (List.cons_ne_nil _ _) hcut
  case name => exact fun hempty => hne (String.ofList_eq_empty_iff.mp hempty)
  case openParen =>
    rw [String.toList_ofList]
    exact fun hmem => absurd (hopen _ hmem) (by decide)
  case parameters => exact (Descriptor.typeList_eq_ok_iff.mp htypes).1
  case returnType =>
    rw [String.toList_ofList]
    exact Descriptor.isType_iff.mp hreturn
  case closeParen =>
    rw [String.toList_ofList]
    exact fun hmem => absurd (hclose _ hmem) (by decide)

/-- A text is cut into the parts that it was made of. -/
theorem WellFormed.read_eq_ok (h : method.WellFormed) {cs : List Char}
    (htext : trim cs = method.text.toList) : read cs = .ok method := by
  have hcut : cutOn? ['-', '>'] (trim cs) = some (method.owner.toList,
      method.name.toList ++ '(' ::
        ((join "" method.parameters).toList ++ ')' :: method.returnType.toList)) := by
    rw [htext, toList_text]
    have hmarks := cutOn?_append_of_not_infix (by decide) h.arrow (method.name.toList ++ '(' ::
      ((join "" method.parameters).toList ++ ')' :: method.returnType.toList))
    simpa using hmarks
  have hname := cut?_append (p := (· == '('))
    (b := (join "" method.parameters).toList ++ ')' :: method.returnType.toList)
    (fun c hc => beq_eq_false_iff_ne.mpr fun heq => h.openParen (heq ▸ hc)) (beq_self_eq_true '(')
  have hparameters := cutLast?_append (p := (· == ')')) (a := (join "" method.parameters).toList)
    (beq_self_eq_true ')')
    (fun c hc => beq_eq_false_iff_ne.mpr fun heq => h.closeParen (heq ▸ hc))
  have htypes : Descriptor.typeList (join "" method.parameters).toList = .ok method.parameters :=
    Descriptor.typeList_eq_ok_iff.mpr ⟨h.parameters, rfl⟩
  refine read_eq_ok_iff.mpr ⟨_, _, _, _, _, _, _, hcut, hname, hparameters, ?_, htypes, ?_⟩
  · rw [Descriptor.isType_iff.mpr h.owner, Descriptor.isType_iff.mpr h.returnType]
    simpa using h.name
  · simp

/-- A text reads as a reference exactly if it is the text of the reference, with blanks around it at
most, and the reference is made of the right parts. -/
theorem parse_eq_ok_iff {s : String} :
    parse s = .ok method ↔ method.WellFormed ∧ trim s.toList = method.text.toList :=
  ⟨fun h => ⟨wellFormed_of_read h, (toList_text_of_read h).symm⟩, fun h => h.1.read_eq_ok h.2⟩

theorem parse_text_iff : parse method.text = .ok method ↔ method.WellFormed :=
  parse_eq_ok_iff.trans (and_iff_left_of_imp WellFormed.trim_text)

/-- What reads as a reference has a text that does. -/
theorem parse_text_of_read {cs : List Char} (h : read cs = .ok method) :
    parse method.text = .ok method :=
  parse_text_iff.mpr (wellFormed_of_read h)

end MethodRef

/-! ## Fields -/

namespace FieldRef

/-- The parts of the reference are descriptors and a name, each without the mark behind it. -/
structure WellFormed (field : FieldRef) : Prop where
  owner : Descriptor.Spelled field.owner.toList
  arrow : ¬ ['-', '>'] <:+: field.owner.toList
  name : field.name ≠ ""
  colon : ':' ∉ field.name.toList
  type : Descriptor.Spelled field.type.toList

variable {field : FieldRef}

theorem toList_text (field : FieldRef) :
    field.text.toList = field.owner.toList ++
      (['-', '>'] ++ (field.name.toList ++ [':'])) ++ field.type.toList := by
  simp [text]

theorem WellFormed.trim_text (h : field.WellFormed) :
    trim field.text.toList = field.text.toList := by
  rw [toList_text]
  exact h.owner.trim_append h.type _

/-- The parts of a reference that has been read. -/
theorem wellFormed_of_read {cs : List Char} (h : read cs = .ok field) : field.WellFormed := by
  obtain ⟨owner, rest, name, type, hcut, hname, hvalid, rfl⟩ := read_eq_ok_iff.mp h
  obtain ⟨-, -, -, hcolon⟩ := of_cut? hname
  simp only [Bool.or_eq_false_iff, Bool.not_eq_false', List.isEmpty_eq_false_iff] at hvalid
  obtain ⟨⟨hne, howner⟩, htype⟩ := hvalid
  constructor
  case owner =>
    rw [String.toList_ofList]
    exact Descriptor.isType_iff.mp howner
  case arrow =>
    rw [String.toList_ofList]
    exact not_infix_of_cutOn? (List.cons_ne_nil _ _) hcut
  case name => exact fun hempty => hne (String.ofList_eq_empty_iff.mp hempty)
  case colon =>
    rw [String.toList_ofList]
    exact fun hmem => absurd (hcolon _ hmem) (by decide)
  case type =>
    rw [String.toList_ofList]
    exact Descriptor.isType_iff.mp htype

/-- A text is cut into the parts that it was made of. -/
theorem WellFormed.read_eq_ok (h : field.WellFormed) {cs : List Char}
    (htext : trim cs = field.text.toList) : read cs = .ok field := by
  have hcut : cutOn? ['-', '>'] (trim cs) =
      some (field.owner.toList, field.name.toList ++ ':' :: field.type.toList) := by
    rw [htext, toList_text]
    have hmarks := cutOn?_append_of_not_infix (by decide) h.arrow
      (field.name.toList ++ ':' :: field.type.toList)
    simpa using hmarks
  have hname := cut?_append (p := (· == ':')) (b := field.type.toList)
    (fun c hc => beq_eq_false_iff_ne.mpr fun heq => h.colon (heq ▸ hc)) (beq_self_eq_true ':')
  refine read_eq_ok_iff.mpr ⟨_, _, _, _, hcut, hname, ?_, ?_⟩
  · rw [Descriptor.isType_iff.mpr h.owner, Descriptor.isType_iff.mpr h.type]
    simpa using h.name
  · simp

theorem parse_eq_ok_iff {s : String} :
    parse s = .ok field ↔ field.WellFormed ∧ trim s.toList = field.text.toList :=
  ⟨fun h => ⟨wellFormed_of_read h, (toList_text_of_read h).symm⟩, fun h => h.1.read_eq_ok h.2⟩

theorem parse_text_iff : parse field.text = .ok field ↔ field.WellFormed :=
  parse_eq_ok_iff.trans (and_iff_left_of_imp WellFormed.trim_text)

/-- What reads as a reference has a text that does. -/
theorem parse_text_of_read {cs : List Char} (h : read cs = .ok field) :
    parse field.text = .ok field :=
  parse_text_iff.mpr (wellFormed_of_read h)

end FieldRef

/-! ## All references with parts, and strings -/

/-- A text reads as the reference to a method or a field exactly if it is made of well-formed parts,
blanks around it apart.  The reference is written as the text was, and a reference made of such parts
reads as itself, as does every string. -/
theorem references_read_as_spelled :
    (∀ s method, MethodRef.parse s = .ok method ↔
      method.WellFormed ∧ String.ofList (trim s.toList) =
        method.owner ++ "->" ++ method.name ++ "(" ++ join "" method.parameters ++ ")" ++
          method.returnType) ∧
    (∀ s field, FieldRef.parse s = .ok field ↔
      field.WellFormed ∧ String.ofList (trim s.toList) =
        field.owner ++ "->" ++ field.name ++ ":" ++ field.type) ∧
    (∀ s method, MethodRef.parse s = .ok method → method.text = String.ofList (trim s.toList)) ∧
    (∀ s field, FieldRef.parse s = .ok field → field.text = String.ofList (trim s.toList)) ∧
    (∀ method, MethodRef.parse method.text = .ok method ↔ method.WellFormed) ∧
    (∀ field, FieldRef.parse field.text = .ok field ↔ field.WellFormed) ∧
    ∀ value, Reference.parse .string (Reference.string value).text = .ok (.string value) := by
  have written (cs : List Char) (text : String) : cs = text.toList ↔ String.ofList cs = text := by
    rw [← String.toList_inj, String.toList_ofList]
  refine ⟨fun s method => ?_, fun s field => ?_, fun s method h => ?_, fun s field h => ?_,
    fun method => MethodRef.parse_text_iff, fun field => FieldRef.parse_text_iff,
    Reference.read_string_text⟩
  · rw [MethodRef.parse_eq_ok_iff, written, MethodRef.text]
  · rw [FieldRef.parse_eq_ok_iff, written, FieldRef.text]
  · exact ((written _ _).mp (MethodRef.parse_eq_ok_iff.mp h).2).symm
  · exact ((written _ _).mp (FieldRef.parse_eq_ok_iff.mp h).2).symm

/-- Every mark stands in one of the parts as well. -/
theorem references_read_as_spelled_marks :
    let method : MethodRef := ⟨"[L(:)-;", "x)->:y", ["L);", "[[J"], "L(->;"⟩
    let field : FieldRef := ⟨"L:;", "(->x)", "[L->:;"⟩
    let value := "\"\\,\n"
    method.WellFormed ∧ MethodRef.parse " [L(:)-;->x)->:y(L);[[J)L(->;\n" = .ok method ∧
      MethodRef.parse method.text = .ok method ∧ field.WellFormed ∧
      FieldRef.parse "\tL:;->(->x):[L->:; " = .ok field ∧ FieldRef.parse field.text = .ok field ∧
      Reference.parse .string (Reference.string value).text = .ok (.string value) := by
  intro method field value
  obtain ⟨hmethod, hfield, -, -, hmethod', hfield', hstring⟩ := references_read_as_spelled
  have hparsed : MethodRef.parse " [L(:)-;->x)->:y(L);[[J)L(->;\n" = .ok method := by
    decide +kernel
  have hparsed' : FieldRef.parse "\tL:;->(->x):[L->:; " = .ok field := by decide +kernel
  have formed : method.WellFormed := ((hmethod _ _).mp hparsed).1
  have formed' : field.WellFormed := ((hfield _ _).mp hparsed').1
  exact ⟨formed, hparsed, (hmethod' method).mpr formed, formed', hparsed', (hfield' field).mpr formed',
    hstring value⟩

end DexGraft
