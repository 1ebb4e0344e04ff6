import DexGraft.Json.Reader
import DexGraft.Proofs.Json.Lexing

/-!
# Written values read back

The text of a value reads as the value, if there is no number with a fraction in it and no half of a
surrogate pair.
-/

namespace DexGraft.Json

/-- All that the value consists of is kept by its text. -/
inductive Exact : Json → Prop
  | null : Exact .null
  | bool (value : Bool) : Exact (.bool value)
  | int (value : Int) : Exact (.int value)
  | str (value : String) : Exact (.str value)
  | arr {items : List Json} (exact : ∀ item ∈ items, Exact item) : Exact (.arr items)
  | obj {members : List (String × Json)} (exact : ∀ member ∈ members, Exact member.2) :
      Exact (.obj members)

namespace ReadState

/-- The tokens of the value close it, whatever is open around it. -/
def Closes (json : Json) : Prop :=
  ∀ stack, json.tokens.foldlM next? ⟨.value, stack⟩ = some (close json stack)

/-- A value may begin where an item may. -/
theorem next?_firstItem {token : Token} (h : token ≠ .closeArray) (stack : List Frame) :
    next? ⟨.firstItem, stack⟩ token = next? ⟨.value, stack⟩ token := by
  rcases stack with - | ⟨- | -, stack⟩ <;> cases token <;> first | rfl | exact absurd rfl h

theorem exists_tokens_eq_cons (json : Json) :
    ∃ first rest, json.tokens = first :: rest ∧ first ≠ .closeArray := by
  cases json with
  | null | real | torn | bool | int | str =>
      rw [tokens]
      exact ⟨_, _, rfl, nofun⟩
  | arr items =>
      cases items with
      | nil | cons =>
          rw [tokens]
          exact ⟨_, _, rfl, nofun⟩
  | obj members =>
      cases members with
      | nil | cons =>
          rw [tokens]
          exact ⟨_, _, rfl, nofun⟩

theorem foldlM_firstItem (json : Json) (stack : List Frame) :
    json.tokens.foldlM next? ⟨.firstItem, stack⟩ = json.tokens.foldlM next? ⟨.value, stack⟩ := by
  obtain ⟨first, rest, htokens, hfirst⟩ := exists_tokens_eq_cons json
  rw [htokens, List.foldlM_cons, List.foldlM_cons, next?_firstItem hfirst]

/-- Items behind commas are added to the open array. -/
theorem foldlM_itemTokens {items : List Json} (closes : ∀ item ∈ items, Closes item)
    (done : List Json) (stack : List Frame) :
    (itemTokens items).foldlM next? ⟨.rest, .items done :: stack⟩ =
      some ⟨.rest, .items (items.reverse ++ done) :: stack⟩ := by
  induction items generalizing done with
  | nil => rfl
  | cons item items ih =>
      rw [List.forall_mem_cons] at closes
      have hcomma : next? ⟨.rest, .items done :: stack⟩ .comma =
        some ⟨.value, .items done :: stack⟩ := rfl
      rw [itemTokens, List.foldlM_cons, hcomma, Option.bind_eq_bind, Option.bind_some,
        List.foldlM_append, closes.1, Option.bind_eq_bind, Option.bind_some]
      refine (ih closes.2 (item :: done)).trans ?_
      rw [List.reverse_cons, List.append_assoc]
      rfl

/-- Members behind commas are added to the open object. -/
theorem foldlM_memberTokens {members : List (String × Json)}
    (closes : ∀ member ∈ members, Closes member.2) (done : List (String × Json)) (key : String)
    (stack : List Frame) :
    ∃ last, (memberTokens members).foldlM next? ⟨.rest, .members done false key :: stack⟩ =
      some ⟨.rest, .members (members.reverse ++ done) false last :: stack⟩ := by
  induction members generalizing done key with
  | nil => exact ⟨key, rfl⟩
  | cons member members ih =>
      obtain ⟨name, value⟩ := member
      rw [List.forall_mem_cons] at closes
      obtain ⟨last, hlast⟩ := ih closes.2 ((name, value) :: done) name
      refine ⟨last, ?_⟩
      have hopen : ([.comma, .str name, .colon] : List Token).foldlM next?
          ⟨.rest, .members done false key :: stack⟩ =
            some ⟨.value, .members done false name :: stack⟩ := rfl
      have htokens : memberTokens ((name, value) :: members) =
          [.comma, .str name, .colon] ++ (value.tokens ++ memberTokens members) := by
        rw [memberTokens]
        rfl
      rw [htokens, List.foldlM_append, hopen, Option.bind_eq_bind, Option.bind_some,
        List.foldlM_append, closes.1, Option.bind_eq_bind, Option.bind_some]
      refine hlast.trans ?_
      rw [List.reverse_cons, List.append_assoc]
      rfl

theorem closes_of_exact {json : Json} (h : Exact json) : Closes json := by
  -- what a value holds is closed on a higher stack, which `Closes` leaves open
  induction h with
  | null | bool | int | str =>
      intro stack
      rw [tokens]
      rfl
  | @arr items _ ih =>
      intro stack
      cases items with
      | nil =>
          rw [tokens]
          rfl
      | cons item rest =>
          rw [List.forall_mem_cons] at ih
          have hopen : next? ⟨.value, stack⟩ .openArray = some ⟨.firstItem, .items [] :: stack⟩ := rfl
          rw [tokens, List.foldlM_cons, hopen, Option.bind_eq_bind, Option.bind_some,
            List.foldlM_append, foldlM_firstItem, ih.1, Option.bind_eq_bind, Option.bind_some, close,
            List.foldlM_append, foldlM_itemTokens ih.2, Option.bind_eq_bind, Option.bind_some]
          show some (close (.arr (rest.reverse ++ [item]).reverse) stack) = _
          rw [List.reverse_append, List.reverse_reverse]
          rfl
  | @obj members _ ih =>
      intro stack
      cases members with
      | nil =>
          rw [tokens]
          rfl
      | cons member rest =>
          obtain ⟨key, value⟩ := member
          rw [List.forall_mem_cons] at ih
          obtain ⟨last, hlast⟩ := foldlM_memberTokens ih.2 [(key, value)] key stack
          have hopen : ([.openObject, .str key, .colon] : List Token).foldlM next?
              ⟨.value, stack⟩ = some ⟨.value, .members [] false key :: stack⟩ := rfl
          have htokens : tokens (.obj ((key, value) :: rest)) =
              [.openObject, .str key, .colon] ++
                (value.tokens ++ (memberTokens rest ++ [.closeObject])) := by
            rw [tokens]
            rfl
          rw [htokens, List.foldlM_append, hopen, Option.bind_eq_bind, Option.bind_some,
            List.foldlM_append, ih.1, Option.bind_eq_bind, Option.bind_some, close,
            List.foldlM_append, hlast, Option.bind_eq_bind, Option.bind_some]
          show some (close (.obj (rest.reverse ++ [(key, value)]).reverse) stack) = _
          rw [List.reverse_append, List.reverse_reverse]
          rfl

end ReadState

/-- The text of a value that it keeps reads as the value. -/
theorem parse?_text {json : Json} (h : Exact json) : parse? json.text = some json := by
  rw [parse?, tokens?_text, Option.bind_some, ofTokens?,
    ReadState.closes_of_exact h []]
  rfl

end DexGraft.Json
