import DexGraft.Json.Token
import DexGraft.Json.Value
import DexGraft.Proofs.Text.Numeral
import Mathlib.Data.List.Basic
import Mathlib.Data.List.TakeWhile

/-!
# Tokens of written values

The text of a value falls into the tokens of the value, whatever the indentation.  Numbers and
literals end where a character comes that cannot belong to them, so the statements are about texts
with such a character, or nothing, behind them.
-/

namespace DexGraft.Json

open Text

/-! ## The machine, from any state on -/

/-- The tokens that a text completes from a state on. -/
def tokensFrom? : LexState → List Char → Option (List Token)
  | state, [] => state.finish?
  | state, c :: cs => (state.next? c).bind fun (tokens, next) =>
      (tokensFrom? next cs).map (tokens ++ ·)

theorem tokensFrom?_cons {state next : LexState} {c : Char} {tokens : List Token}
    (h : state.next? c = some (tokens, next)) (cs : List Char) :
    tokensFrom? state (c :: cs) = (tokensFrom? next cs).map (tokens ++ ·) := by
  rw [tokensFrom?, h]
  rfl

/-- A character that completes nothing only moves the machine. -/
theorem tokensFrom?_cons_of_nil {state : LexState} (next : LexState) {c : Char}
    (h : state.next? c = some ([], next)) (cs : List Char) :
    tokensFrom? state (c :: cs) = tokensFrom? next cs := by
  rw [tokensFrom?_cons h]
  exact Option.map_id'

theorem foldlM_next? (cs : List Char) (done : List Token) (state : LexState) :
    ((cs.foldlM Lexer.next? ⟨done, state⟩).bind fun lexer =>
      lexer.state.finish?.bind fun last => some (lexer.done.reverse ++ last)) =
        (tokensFrom? state cs).map (done.reverse ++ ·) := by
  induction cs generalizing done state with
  | nil => exact Option.map_eq_bind.symm
  | cons c cs ih =>
      rw [List.foldlM_cons, Lexer.next?, tokensFrom?]
      cases state.next? c with
      | none => rfl
      | some step =>
          obtain ⟨tokens, next⟩ := step
          refine (ih (tokens.reverse ++ done) next).trans ?_
          rw [Option.bind_some, Option.map_map]
          congr 1
          funext more
          simp

theorem tokens?_eq (cs : List Char) : tokens? cs = tokensFrom? .between cs := by
  refine (foldlM_next? cs [] .between).trans ?_
  exact Option.map_id'

/-- Neither a number nor a literal goes on with the character. -/
def Breaks (c : Char) : Prop := ∀ chars, (LexState.start c).2 ≠ .word chars

theorem breaks_of_start {c : Char} (h : (LexState.start c).2 = .between) : Breaks c := by
  intro chars hword
  rw [h] at hword
  cases hword

/-- Behind a text that begins like this, a number or a literal is complete. -/
def Boundary (rest : List Char) : Prop := ∀ c ∈ rest.head?, Breaks c

theorem boundary_nil : Boundary [] := nofun

theorem boundary_cons {c : Char} (h : Breaks c) (cs : List Char) : Boundary (c :: cs) := by
  rintro _ ⟨⟩
  exact h

/-- The text falls into the tokens, whatever stands behind it at a boundary. -/
def Spells (cs : List Char) (tokens : List Token) : Prop :=
  ∀ rest, Boundary rest →
    tokensFrom? .between (cs ++ rest) = (tokensFrom? .between rest).map (tokens ++ ·)

/-- There is a boundary in front of the text, if there is one in front of what stands behind it. -/
def Bounds (cs : List Char) : Prop := ∀ rest, Boundary rest → Boundary (cs ++ rest)

theorem bounds_nil : Bounds [] := fun _ h => h

theorem bounds_cons {c : Char} (h : (LexState.start c).2 = .between) (cs : List Char) :
    Bounds (c :: cs) :=
  fun rest _ => boundary_cons (breaks_of_start h) (cs ++ rest)

theorem Bounds.append {a b : List Char} (ha : Bounds a) (hb : Bounds b) : Bounds (a ++ b) := by
  intro rest hrest
  rw [List.append_assoc]
  exact ha (b ++ rest) (hb rest hrest)

variable {a b : List Char} {ts us : List Token}

theorem Spells.tokens?_eq (h : Spells a ts) : tokens? a = some ts := by
  have hread := h [] boundary_nil
  rw [List.append_nil] at hread
  rw [Json.tokens?_eq, hread]
  exact congrArg some (List.append_nil ts)

theorem spells_nil : Spells [] [] := fun _ _ => Option.map_id'.symm

theorem Spells.append (ha : Spells a ts) (hb : Spells b us) (bounds : Bounds b) :
    Spells (a ++ b) (ts ++ us) := by
  intro rest hrest
  rw [List.append_assoc, ha (b ++ rest) (bounds rest hrest), hb rest hrest, Option.map_map]
  congr 1
  funext more
  exact (List.append_assoc ts us more).symm

/-- A character that is a token is complete, whatever follows. -/
theorem Spells.cons (hb : Spells b us) {c : Char} {token : Token}
    (hc : LexState.start c = ([token], .between)) : Spells (c :: b) (token :: us) := by
  intro rest hrest
  have hnext : LexState.between.next? c = some ([token], .between) := congrArg some hc
  rw [List.cons_append, tokensFrom?_cons hnext, hb rest hrest, Option.map_map]
  rfl

/-- A blank between tokens makes no difference. -/
theorem Spells.blank (hb : Spells b us) {c : Char} (hc : LexState.start c = ([], .between)) :
    Spells (c :: b) us := by
  intro rest hrest
  have hnext : LexState.between.next? c = some ([], .between) := congrArg some hc
  rw [List.cons_append, tokensFrom?_cons_of_nil _ hnext]
  exact hb rest hrest

theorem Spells.newLine (hb : Spells b us) (depth : Nat) :
    Spells ((newLine depth).toList ++ b) us := by
  have hblanks : ∀ n, Spells (List.replicate n ' ' ++ b) us := by
    intro n
    induction n with
    | zero => exact hb
    | succ n ih => exact ih.blank rfl
  have hline : (Json.newLine depth).toList = '\n' :: List.replicate (2 * depth) ' ' := by
    rw [Json.newLine, String.toList_append, String.toList_ofList (l := List.replicate _ _)]
    rfl
  rw [hline, List.cons_append]
  exact (hblanks (2 * depth)).blank rfl

theorem bounds_newLine (depth : Nat) (cs : List Char) : Bounds ((newLine depth).toList ++ cs) := by
  rw [Json.newLine, String.toList_append, List.append_assoc]
  exact bounds_cons (c := '\n') rfl _

/-! ## Numbers and literals -/

/-- At a boundary the characters of a number or a literal become one token. -/
theorem tokensFrom?_word {chars rest : List Char} (h : Boundary rest) :
    tokensFrom? (.word chars) rest =
      (wordToken? chars.reverse).bind fun token =>
        (tokensFrom? .between rest).map (token :: ·) := by
  cases rest with
  | nil =>
      rw [tokensFrom?, LexState.finish?, tokensFrom?, LexState.finish?]
      exact Option.map_eq_bind
  | cons c cs =>
      have hbreaks := h c rfl
      rw [Breaks] at hbreaks
      rw [tokensFrom?, tokensFrom?, LexState.next?, LexState.next?]
      generalize LexState.start c = step at hbreaks
      obtain ⟨tokens, state⟩ := step
      cases state with
      | word chars => exact absurd rfl (hbreaks chars)
      | between | string _ | escape _ | unit _ _ _ =>
          cases wordToken? chars.reverse with
          | none => rfl
          | some token =>
              simp only [Option.map_some, Option.bind_some, Option.map_map]
              rfl

theorem tokensFrom?_word_append {chars cs : List Char} (rest : List Char)
    (h : ∀ c ∈ cs, LexState.start c = ([], .word [c])) :
    tokensFrom? (.word chars) (cs ++ rest) = tokensFrom? (.word (cs.reverse ++ chars)) rest := by
  induction cs generalizing chars with
  | nil => rfl
  | cons c cs ih =>
      rw [List.forall_mem_cons] at h
      have hnext : (LexState.word chars).next? c = some ([], .word (c :: chars)) := by
        rw [LexState.next?, h.1]
      rw [List.cons_append, tokensFrom?_cons_of_nil _ hnext, ih h.2, List.reverse_cons,
        List.append_assoc]
      rfl

theorem spells_word {cs : List Char} {token : Token} (hne : cs ≠ [])
    (h : ∀ c ∈ cs, LexState.start c = ([], .word [c])) (htoken : wordToken? cs = some token) :
    Spells cs [token] := by
  intro rest hrest
  cases cs with
  | nil => exact absurd rfl hne
  | cons c cs =>
      rw [List.forall_mem_cons] at h
      have hnext : LexState.between.next? c = some ([], .word [c]) := congrArg some h.1
      rw [List.cons_append, tokensFrom?_cons_of_nil _ hnext, tokensFrom?_word_append rest h.2,
        tokensFrom?_word hrest, List.reverse_append, List.reverse_reverse, List.reverse_singleton,
        List.singleton_append, htoken]
      rfl

theorem start_of_isAlphanum {c : Char} (h : c.isAlphanum) :
    LexState.start c = ([], .word [c]) := by
  rw [LexState.start] <;> (rintro rfl; cases h)

/-- Letters that stand for a token spell it. -/
theorem spells_literal {cs : List Char} {token : Token} (hne : cs ≠ [])
    (h : cs.all Char.isAlphanum) (htoken : wordToken? cs = some token) : Spells cs [token] :=
  spells_word hne (fun c hc => start_of_isAlphanum (List.all_eq_true.mp h c hc)) htoken

theorem isDigit_of_mem_digitsOf {n : Nat} {c : Char} (h : c ∈ Numeral.digitsOf 8 n) :
    c.isDigit := by
  obtain ⟨d, hd, rfl⟩ := Numeral.exists_of_mem_digitsOf h
  interval_cases d <;> rfl

/-- A number that is not zero is written without zeros in front. -/
theorem head?_digitsOf {n : Nat} (h : n ≠ 0) : (Numeral.digitsOf 8 n).head? ≠ some '0' := by
  generalize hbase : 8 = base
  fun_induction Numeral.digitsOf base n with
  | case1 n hn =>
      subst hbase
      interval_cases n <;> first | exact absurd rfl h | decide
  | case2 n hn ih =>
      have hquotient : n / (base + 2) ≠ 0 := Nat.div_ne_zero_iff.mpr ⟨by omega, by omega⟩
      rw [List.head?_append_of_ne_nil _ (Numeral.digitsOf_ne_nil base (n / (base + 2)))]
      exact ih hquotient

theorem unsignedToken?_digitsOf (negative : Bool) (n : Nat) :
    unsignedToken? negative (Numeral.digitsOf 8 n) =
      some (if !negative then .int n else if n = 0 then .real else .int (-(n : Int))) := by
  have hdigits : ∀ c ∈ Numeral.digitsOf 8 n, c.isDigit := fun c => isDigit_of_mem_digitsOf
  have hzeros : ((Numeral.digitsOf 8 n).length != 1 && (Numeral.digitsOf 8 n).head? == some '0') =
      false := by
    by_cases h : n = 0
    · subst h
      rw [Numeral.digitsOf]
      rfl
    · rw [beq_eq_false_iff_ne.mpr (head?_digitsOf h), Bool.and_false]
  have htake : (Numeral.digitsOf 8 n).takeWhile Char.isDigit = Numeral.digitsOf 8 n :=
    List.takeWhile_eq_self_iff.mpr hdigits
  have hdrop : (Numeral.digitsOf 8 n).dropWhile Char.isDigit = [] :=
    List.dropWhile_eq_nil_iff.mpr hdigits
  have hread : Numeral.digits? 10 (Numeral.digitsOf 8 n) = some n :=
    Numeral.digits?_digitsOf (by decide) n
  rw [unsignedToken?, htake, hdrop]
  simp [Numeral.digitsOf_ne_nil, hzeros, isFraction, isExponent, hread]

theorem wordToken?_of_isDigit {c : Char} (h : c.isDigit) (cs : List Char) :
    wordToken? (c :: cs) = unsignedToken? false (c :: cs) := by
  rw [wordToken?]
  · rintro ⟨⟩
    cases h
  · rintro ⟨⟩
    cases h
  · rintro ⟨⟩
    cases h
  · rintro _ ⟨⟩
    cases h

theorem spells_int (n : Int) : Spells (Numeral.signedDecimal n).toList [.int n] := by
  have hword : ∀ c ∈ Numeral.digitsOf 8 n.natAbs, LexState.start c = ([], .word [c]) :=
    fun c hc => start_of_isAlphanum (Bool.or_eq_true_iff.mpr (.inr (isDigit_of_mem_digitsOf hc)))
  rw [Numeral.signedDecimal]
  split
  · rename_i hneg
    have hne : n.natAbs ≠ 0 := by omega
    have hvalue : -((n.natAbs : Nat) : Int) = n := by omega
    rw [String.toList_append, Numeral.toList_decimal]
    refine spells_word (List.cons_ne_nil _ _) (List.forall_mem_cons.mpr ⟨rfl, hword⟩) ?_
    refine (unsignedToken?_digitsOf true n.natAbs).trans ?_
    rw [if_neg hne, hvalue]
    rfl
  · have hvalue : ((n.natAbs : Nat) : Int) = n := by omega
    rw [Numeral.toList_decimal]
    refine spells_word (Numeral.digitsOf_ne_nil 8 _) hword ?_
    have hdigits := fun c => isDigit_of_mem_digitsOf (n := n.natAbs) (c := c)
    have htoken := unsignedToken?_digitsOf false n.natAbs
    cases hcs : Numeral.digitsOf 8 n.natAbs with
    | nil => exact absurd hcs (Numeral.digitsOf_ne_nil 8 _)
    | cons c cs =>
        rw [hcs] at hdigits htoken
        rw [wordToken?_of_isDigit (hdigits c List.mem_cons_self), htoken]
        exact congrArg (some ∘ Token.int) hvalue

/-! ## Strings -/

theorem tokensFrom?_escaped (chars : List Char) {letter c : Char} (hletter : letter ≠ 'u')
    (h : escaped? letter = some c) (rest : List Char) :
    tokensFrom? (.string ⟨chars, none, false⟩) ('\\' :: letter :: rest) =
      tokensFrom? (.string ⟨c :: chars, none, false⟩) rest := by
  have hnext : (LexState.escape ⟨chars, none, false⟩).next? letter =
      some ([], .string ⟨c :: chars, none, false⟩) := by
    rw [LexState.next?, if_neg hletter, h]
    rfl
  rw [tokensFrom?_cons_of_nil (.escape ⟨chars, none, false⟩) rfl,
    tokensFrom?_cons_of_nil _ hnext]

theorem tokensFrom?_control (chars : List Char) {c : Char} (h : c.toNat < 0x20)
    (rest : List Char) :
    tokensFrom? (.string ⟨chars, none, false⟩)
        ('\\' :: 'u' :: '0' :: '0' :: Numeral.digitChar (c.toNat / 16) ::
          Numeral.digitChar (c.toNat % 16) :: rest) =
      tokensFrom? (.string ⟨c :: chars, none, false⟩) rest := by
  have hhigh : (LexState.unit ⟨chars, none, false⟩ 1 0).next? (Numeral.digitChar (c.toNat / 16)) =
      some ([], .unit ⟨chars, none, false⟩ 0 (c.toNat / 16)) := by
    rw [LexState.next?, Numeral.digitValue?_digitChar (by omega) le_rfl, Option.map_some,
      Nat.zero_mul, Nat.zero_add]
  have hlow : (LexState.unit ⟨chars, none, false⟩ 0 (c.toNat / 16)).next?
      (Numeral.digitChar (c.toNat % 16)) = some ([], .string ⟨c :: chars, none, false⟩) := by
    have hvalue : c.toNat / 16 * 16 + c.toNat % 16 = c.toNat := Nat.div_add_mod' _ _
    -- a control character is no half of a surrogate pair
    have hpush : Draft.pushUnit ⟨chars, none, false⟩ c.toNat = ⟨c :: chars, none, false⟩ := by
      rw [Draft.pushUnit, if_neg (by omega), if_neg (by omega), Char.ofNat_toNat]
      rfl
    rw [LexState.next?, Numeral.digitValue?_digitChar (by omega) le_rfl, Option.map_some, hvalue]
    exact congrArg (fun draft => some ([], LexState.string draft)) hpush
  rw [tokensFrom?_cons_of_nil (.escape ⟨chars, none, false⟩) rfl,
    tokensFrom?_cons_of_nil (.unit ⟨chars, none, false⟩ 3 0) rfl,
    tokensFrom?_cons_of_nil (.unit ⟨chars, none, false⟩ 2 0) rfl,
    tokensFrom?_cons_of_nil (.unit ⟨chars, none, false⟩ 1 0) rfl,
    tokensFrom?_cons_of_nil _ hhigh, tokensFrom?_cons_of_nil _ hlow]

/-- A character that is written in a string is read as itself. -/
theorem tokensFrom?_escapeChar (chars : List Char) (c : Char) (rest : List Char) :
    tokensFrom? (.string ⟨chars, none, false⟩) (escapeChar c ++ rest) =
      tokensFrom? (.string ⟨c :: chars, none, false⟩) rest := by
  unfold escapeChar
  split
  · exact tokensFrom?_escaped chars (by decide) rfl rest
  · exact tokensFrom?_escaped chars (by decide) rfl rest
  · exact tokensFrom?_escaped chars (by decide) rfl rest
  · exact tokensFrom?_escaped chars (by decide) rfl rest
  · exact tokensFrom?_escaped chars (by decide) rfl rest
  · exact tokensFrom?_escaped chars (by decide) rfl rest
  · exact tokensFrom?_escaped chars (by decide) rfl rest
  · rename_i hquote hbackslash _ _ _ _ _
    split
    · exact tokensFrom?_control chars ‹_› rest
    · have hnext : (LexState.string ⟨chars, none, false⟩).next? c =
          some ([], .string ⟨c :: chars, none, false⟩) := by
        rw [LexState.next?, if_neg hquote, if_neg hbackslash, if_neg ‹_›]
        rfl
      exact tokensFrom?_cons_of_nil _ hnext rest

theorem tokensFrom?_string (chars cs rest : List Char) :
    tokensFrom? (.string ⟨chars, none, false⟩) (cs.flatMap escapeChar ++ '"' :: rest) =
      (tokensFrom? .between rest).map (.str (String.ofList (chars.reverse ++ cs)) :: ·) := by
  induction cs generalizing chars with
  | nil =>
      rw [List.append_nil]
      rfl
  | cons c cs ih =>
      rw [List.flatMap_cons, List.append_assoc, tokensFrom?_escapeChar, ih, List.reverse_cons,
        List.append_assoc]
      rfl

theorem spells_quote (s : String) : Spells (quote s).toList [.str s] := by
  intro rest _
  have hs : s = String.ofList s.toList := String.ofList_toList.symm
  rw [quote, String.toList_ofList, List.cons_append, List.cons_append, List.append_assoc]
  refine (tokensFrom?_cons_of_nil (.string {}) rfl _).trans ?_
  refine (tokensFrom?_string [] s.toList rest).trans ?_
  rw [List.reverse_nil, List.nil_append, ← hs]
  rfl

/-! ## Values -/

mutual

/-- The tokens that the text of a value consists of. -/
def tokens : Json → List Token
  | null | real | torn => [.null]
  | bool value => [.bool value]
  | int value => [.int value]
  | str value => [.str value]
  | arr [] => [.openArray, .closeArray]
  | arr (item :: rest) => .openArray :: (tokens item ++ (itemTokens rest ++ [.closeArray]))
  | obj [] => [.openObject, .closeObject]
  | obj ((key, value) :: rest) =>
    .openObject :: .str key :: .colon :: (tokens value ++ (memberTokens rest ++ [.closeObject]))

/-- The tokens of the items behind the first one. -/
def itemTokens : List Json → List Token
  | [] => []
  | item :: rest => .comma :: (tokens item ++ itemTokens rest)

/-- The tokens of the members behind the first one. -/
def memberTokens : List (String × Json) → List Token
  | [] => []
  | (key, value) :: rest => .comma :: .str key :: .colon :: (tokens value ++ memberTokens rest)

end

theorem bounds_prettyItems (depth : Nat) (items : List Json) :
    Bounds (prettyItems depth items).toList := by
  cases items with
  | nil => exact bounds_nil
  | cons item rest =>
      rw [prettyItems, String.append_assoc, String.append_assoc, String.toList_append]
      exact bounds_cons (c := ',') rfl _

theorem bounds_prettyMembers (depth : Nat) (members : List (String × Json)) :
    Bounds (prettyMembers depth members).toList := by
  cases members with
  | nil => exact bounds_nil
  | cons member rest =>
      rw [prettyMembers]
      simp only [String.append_assoc, String.toList_append]
      exact bounds_cons (c := ',') rfl _

/-- A member is its key, a colon and its value. -/
theorem spells_member {key : String} (h : Spells b us) :
    Spells ((quote key).toList ++ (':' :: ' ' :: b)) (.str key :: .colon :: us) :=
  (spells_quote key).append ((h.blank rfl).cons rfl)
    (bounds_cons rfl _)

/-- What closes an array or an object stands on a line of its own. -/
theorem spells_close (depth : Nat) {c : Char} {token : Token}
    (hc : LexState.start c = ([token], .between)) :
    Spells ((newLine depth).toList ++ [c]) [token] :=
  (spells_nil.cons hc).newLine depth

section

variable {depth : Nat} {key : String} {value : Json}

theorem spells_arr_cons {items : List Json}
    (hvalue : Spells (pretty (depth + 1) value).toList value.tokens)
    (hitems : Spells (prettyItems (depth + 1) items).toList (itemTokens items)) :
    Spells (pretty depth (arr (value :: items))).toList (tokens (arr (value :: items))) := by
  have htext : (pretty depth (arr (value :: items))).toList =
      '[' :: ((newLine (depth + 1)).toList ++ ((pretty (depth + 1) value).toList ++
        ((prettyItems (depth + 1) items).toList ++ ((newLine depth).toList ++ [']'])))) := by
    simp [pretty]
  have hbehind := hitems.append (spells_close depth (c := ']') rfl) (bounds_newLine depth _)
  have hinside := hvalue.append hbehind
    ((bounds_prettyItems (depth + 1) items).append (bounds_newLine depth _))
  rw [htext, tokens]
  exact (hinside.newLine (depth + 1)).cons rfl

theorem spells_obj_cons {members : List (String × Json)}
    (hvalue : Spells (pretty (depth + 1) value).toList value.tokens)
    (hmembers : Spells (prettyMembers (depth + 1) members).toList (memberTokens members)) :
    Spells (pretty depth (obj ((key, value) :: members))).toList
      (tokens (obj ((key, value) :: members))) := by
  have htext : (pretty depth (obj ((key, value) :: members))).toList =
      '\x7b' :: ((newLine (depth + 1)).toList ++ ((quote key).toList ++ (':' :: ' ' ::
        ((pretty (depth + 1) value).toList ++ ((prettyMembers (depth + 1) members).toList ++
          ((newLine depth).toList ++ ['\x7d'])))))) := by
    simp [pretty]
  have hbehind := hmembers.append (spells_close depth (c := '\x7d') rfl) (bounds_newLine depth _)
  have hinside := hvalue.append hbehind
    ((bounds_prettyMembers (depth + 1) members).append (bounds_newLine depth _))
  rw [htext, tokens]
  exact ((spells_member hinside).newLine (depth + 1)).cons rfl

theorem spells_prettyItems_cons {items : List Json}
    (hvalue : Spells (pretty depth value).toList value.tokens)
    (hitems : Spells (prettyItems depth items).toList (itemTokens items)) :
    Spells (prettyItems depth (value :: items)).toList (itemTokens (value :: items)) := by
  have htext : (prettyItems depth (value :: items)).toList =
      ',' :: ((newLine depth).toList ++ ((pretty depth value).toList ++
        (prettyItems depth items).toList)) := by
    simp [prettyItems]
  have hinside := hvalue.append hitems (bounds_prettyItems depth items)
  rw [htext, itemTokens]
  exact (hinside.newLine depth).cons rfl

theorem spells_prettyMembers_cons {members : List (String × Json)}
    (hvalue : Spells (pretty depth value).toList value.tokens)
    (hmembers : Spells (prettyMembers depth members).toList (memberTokens members)) :
    Spells (prettyMembers depth ((key, value) :: members)).toList
      (memberTokens ((key, value) :: members)) := by
  have htext : (prettyMembers depth ((key, value) :: members)).toList =
      ',' :: ((newLine depth).toList ++ ((quote key).toList ++ (':' :: ' ' ::
        ((pretty depth value).toList ++ (prettyMembers depth members).toList)))) := by
    simp [prettyMembers]
  have hinside := hvalue.append hmembers (bounds_prettyMembers depth members)
  rw [htext, memberTokens]
  exact ((spells_member hinside).newLine depth).cons rfl

end

mutual

/-- The text of a value spells its tokens, whatever the indentation. -/
theorem spells_pretty (depth : Nat) (json : Json) :
    Spells (pretty depth json).toList json.tokens := by
  match json with
  | null | real | torn | bool true | bool false =>
      rw [pretty, tokens]
      exact spells_literal (by decide) (by decide) rfl
  | int value =>
      rw [pretty, tokens]
      exact spells_int value
  | str value =>
      rw [pretty, tokens]
      exact spells_quote value
  | arr [] =>
      have htext : (pretty depth (arr [])).toList = ['[', ']'] := by
        simp [pretty]
      rw [htext, tokens]
      exact (spells_nil.cons rfl).cons rfl
  | arr (value :: items) =>
      exact spells_arr_cons (spells_pretty (depth + 1) value) (spells_prettyItems (depth + 1) items)
  | obj [] =>
      have htext : (pretty depth (obj [])).toList = ['\x7b', '\x7d'] := by
        simp [pretty]
      rw [htext, tokens]
      exact (spells_nil.cons rfl).cons rfl
  | obj ((key, value) :: members) =>
      exact spells_obj_cons (spells_pretty (depth + 1) value)
        (spells_prettyMembers (depth + 1) members)

theorem spells_prettyItems (depth : Nat) (items : List Json) :
    Spells (prettyItems depth items).toList (itemTokens items) := by
  match items with
  | [] => exact spells_nil
  | value :: items =>
      exact spells_prettyItems_cons (spells_pretty depth value) (spells_prettyItems depth items)

theorem spells_prettyMembers (depth : Nat) (members : List (String × Json)) :
    Spells (prettyMembers depth members).toList (memberTokens members) := by
  match members with
  | [] => exact spells_nil
  | (key, value) :: members =>
      exact spells_prettyMembers_cons (spells_pretty depth value)
        (spells_prettyMembers depth members)

end

/-- The stored text of a value consists of its tokens. -/
theorem tokens?_text (json : Json) : tokens? json.text.toList = some json.tokens :=
  (spells_pretty 0 json).tokens?_eq

end DexGraft.Json
