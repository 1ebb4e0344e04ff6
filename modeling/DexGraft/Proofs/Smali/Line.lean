import DexGraft.Proofs.Smali.Lexing

/-!
# Lines

A line with a mnemonic and operands reads as these, wherever blanks stand in front of it, and the
operands that any line reads as can be written on a line again.
-/

namespace DexGraft.Smali

open Text Outcome

/-- The character may be part of a mnemonic. -/
def IsLetter (c : Char) : Prop := IsPlain c ∧ isBlank c = false ∧ c ≠ ':'

instance : DecidablePred IsLetter := fun c => inferInstanceAs (Decidable (IsPlain c ∧ _ ∧ _))

theorem exists_mnemonic (opcode : Opcode) :
    ∃ c cs, opcode.mnemonic = String.ofList (c :: cs) ∧ ∀ d ∈ c :: cs, IsLetter d := by
  have letters : ∃ c cs, opcode.mnemonic = String.ofList (c :: cs) ∧
      (c :: cs).all fun d => decide (IsLetter d) := by
    cases opcode <;> exact ⟨_, _, rfl, by decide⟩
  obtain ⟨c, cs, hmnemonic, hall⟩ := letters
  exact ⟨c, cs, hmnemonic, fun d hd => of_decide_eq_true (List.all_eq_true.mp hall d hd)⟩

theorem mnemonic_of_ofMnemonic? {mnemonic : String} {opcode : Opcode}
    (h : Opcode.ofMnemonic? mnemonic = some opcode) : opcode.mnemonic = mnemonic := by
  simpa using List.find?_some h

namespace Line

/-- What a line without a label says, given where its mnemonic ends. -/
theorem ofContent_cons {c : Char} {cs mnemonic rest : List Char} (hc : c ≠ ':')
    (h : (cut? isBlank (c :: cs)).getD (c :: cs, []) = (mnemonic, rest)) :
    ofContent (c :: cs) =
      match Opcode.ofMnemonic? (String.ofList mnemonic) with
      | some opcode => (operands (trim rest)).map (instruction opcode)
      | none => .error (.unknownOpcode (String.ofList mnemonic)) := by
  have notLabel : ∀ name, c :: cs = ':' :: name → False := by
    intro name heq
    cases heq
    exact hc rfl
  rw [ofContent]
  · cases hop : Opcode.ofMnemonic? (String.ofList mnemonic) <;> simp only [h, hop]
  · nofun
  · exact notLabel

/-- Blanks in front of a line say nothing. -/
theorem read_blanks_append {front : List Char} (cs : List Char) (hfront : Blanks front) :
    read (front ++ cs) = read cs := by
  have hpass : Nesting.pass? {} front = some {} :=
    Nesting.pass?_of_forall_isPlain rfl fun c hc => isPlain_of_isBlank (hfront c hc)
  rw [read, stripComment_append hpass, trim_blanks_append _ hfront, read]

theorem read_append {front content : List Char} (hfront : Blanks front)
    (htrim : trim content = content) (hcomment : stripComment .outside content = content) :
    read (front ++ content) = ofContent content := by
  rw [read_blanks_append _ hfront, read, hcomment, htrim]

/-- Blanks behind a line say nothing, be they part of its comment or not. -/
theorem read_append_blanks (cs : List Char) {back : List Char} (hback : Blanks back) :
    read (cs ++ back) = read cs := by
  rcases stripComment_append_or .outside cs back with h | ⟨hcs, h⟩
  · rw [read, h, read]
  · rw [read, h, stripComment_of_blanks _ hback, trim_append_blanks cs hback, read, hcs]

/-- A carriage return at the end of a line says nothing. -/
theorem read_append_return (cs : List Char) : read (cs ++ ['\r']) = read cs :=
  read_append_blanks cs (blanks_of_all rfl)

/-- What a mnemonic and the operands behind a blank read as. -/
theorem ofContent_mnemonic_append {opcode : Opcode} {rest : List Char}
    (hop : Opcode.ofMnemonic? opcode.mnemonic = some opcode) (hrest : trim rest = rest) :
    ofContent (opcode.mnemonic.toList ++ ' ' :: rest) =
      (operands rest).map (instruction opcode) := by
  obtain ⟨c, cs, hmnemonic, hletters⟩ := exists_mnemonic opcode
  have hcut : cut? isBlank (c :: cs ++ ' ' :: rest) = some (c :: cs, rest) :=
    cut?_append (fun d hd => (hletters d hd).2.1) rfl
  rw [hmnemonic] at hop ⊢
  rw [List.cons_append] at hcut
  rw [String.toList_ofList, List.cons_append,
    ofContent_cons (hletters c List.mem_cons_self).2.2 (by rw [hcut, Option.getD_some]), hop, hrest]

/-- An opcode without operands reads as itself, with blanks in front. -/
theorem read_mnemonic {front : List Char} {opcode : Opcode}
    (hop : Opcode.ofMnemonic? opcode.mnemonic = some opcode) (hfront : Blanks front) :
    read (front ++ opcode.mnemonic.toList) = .ok (.instruction opcode []) := by
  obtain ⟨c, cs, hmnemonic, hletters⟩ := exists_mnemonic opcode
  have hpass : Nesting.pass? {} (c :: cs) = some {} :=
    Nesting.pass?_of_forall_isPlain rfl fun d hd => (hletters d hd).1
  have hcut : cut? isBlank (c :: cs) = none := by
    cases hcut : cut? isBlank (c :: cs) with
    | none => rfl
    | some ab =>
        obtain ⟨d, hd, heq, -⟩ := of_cut? hcut
        have := (hletters d (by simp [heq])).2.1
        rw [hd] at this
        cases this
  rw [hmnemonic] at hop ⊢
  have htrim : trim (c :: cs) = c :: cs := trim_eq_self_of_forall fun d hd => (hletters d hd).2.1
  rw [String.toList_ofList, read_append hfront htrim (stripComment_eq_self hpass),
    ofContent_cons (hletters c List.mem_cons_self).2.2 (by rw [hcut, Option.getD_none]), hop]
  rfl

theorem trim_mnemonic_append (opcode : Opcode) {rest : List Char} (hrest : trim rest = rest)
    (hne : rest ≠ []) :
    trim (opcode.mnemonic.toList ++ ' ' :: rest) = opcode.mnemonic.toList ++ ' ' :: rest := by
  obtain ⟨c, cs, hmnemonic, hletters⟩ := exists_mnemonic opcode
  rw [hmnemonic, String.toList_ofList]
  refine trim_eq_self_iff.mpr ⟨?_, ?_⟩
  · intro d hd
    cases hd
    exact (hletters c List.mem_cons_self).2.1
  · rw [List.getLast?_append_of_ne_nil _ (List.cons_ne_nil _ _),
      ← List.singleton_append, List.getLast?_append_of_ne_nil _ hne]
    exact (trim_eq_self_iff.mp hrest).2

theorem pass?_mnemonic (opcode : Opcode) :
    Nesting.pass? {} (opcode.mnemonic.toList ++ [' ']) = some {} := by
  obtain ⟨c, cs, hmnemonic, hletters⟩ := exists_mnemonic opcode
  refine Nesting.pass?_of_forall_isPlain rfl fun d hd => ?_
  rw [hmnemonic, String.toList_ofList, List.mem_append, List.mem_singleton] at hd
  rcases hd with hd | rfl
  · exact (hletters d hd).1
  · decide

/-- An opcode and operands behind it read as themselves, with blanks in front. -/
theorem read_instruction {front : List Char} {opcode : Opcode} {texts : List (List Char)}
    (hop : Opcode.ofMnemonic? opcode.mnemonic = some opcode) (hfront : Blanks front)
    (h : AreOperands texts) (hne : texts ≠ []) (hlast : texts.getLast? ≠ some []) :
    read (front ++ (opcode.mnemonic.toList ++ ' ' :: [',', ' '].intercalate texts)) =
      .ok (.instruction opcode texts) := by
  have htexts : ∀ text ∈ texts, trim text = text := fun text hmem =>
    (h.forall_mem text hmem).elim fun _ h => h.2.trimmed
  have hrest := trim_intercalate htexts hlast
  have hnil : Blanks [] := nofun
  have hsplit := operandsFrom_intercalate h hne hnil
  have hnonempty := intercalate_ne_nil hne hlast
  rw [List.nil_append] at hsplit
  set rest := [',', ' '].intercalate texts
  have hoperands : operands rest = .ok texts := by
    rw [operands, if_neg (by simpa using hnonempty), hsplit]
  have hcomment := stripComment_append (pass?_mnemonic opcode) rest
  rw [stripComment_intercalate h, List.append_assoc, List.singleton_append] at hcomment
  rw [read_append hfront (trim_mnemonic_append opcode hrest hnonempty) hcomment,
    ofContent_mnemonic_append hop hrest, hoperands]
  rfl

/-- What a line reads as whose first operand is followed by a comma. -/
theorem read_operand_append {opcode : Opcode} {text : List Char}
    (hop : Opcode.ofMnemonic? opcode.mnemonic = some opcode) (h : Operand {} text)
    (hne : text ≠ []) (rest : List Char) :
    read (opcode.mnemonic.toList ++ ' ' :: (text ++ ',' :: rest)) =
      (operandsFrom {} [] (trimBack (stripComment .outside rest))).map fun others =>
        .instruction opcode (text :: others) := by
  obtain ⟨d, text', htext⟩ := List.exists_cons_of_ne_nil hne
  have hd : isBlank d = false := (trim_eq_self_iff.mp h.trimmed).1 d (by rw [htext]; rfl)
  set uncommented := stripComment .outside rest with huncommented
  have hpass : Nesting.pass? {} (opcode.mnemonic.toList ++ [' '] ++ text) = some {} := by
    rw [Nesting.pass?_append, pass?_mnemonic, Option.bind_some, h.passes]
  have hcomment : stripComment .outside (opcode.mnemonic.toList ++ ' ' :: (text ++ ',' :: rest)) =
      opcode.mnemonic.toList ++ ' ' :: (text ++ ',' :: uncommented) := by
    have := stripComment_append hpass (',' :: rest)
    simp only [List.append_assoc, List.cons_append, List.nil_append] at this
    rw [this, huncommented]
    rfl
  have htrimRest : trim (text ++ ',' :: trimBack uncommented) =
      text ++ ',' :: trimBack uncommented := by
    rw [htext, List.cons_append, trim_cons_append text' _ hd rfl, trimBack_trimBack]
  have htrim : trim (opcode.mnemonic.toList ++ ' ' :: (text ++ ',' :: uncommented)) =
      opcode.mnemonic.toList ++ ' ' :: (text ++ ',' :: trimBack uncommented) := by
    obtain ⟨c, cs, hmnemonic, hletters⟩ := exists_mnemonic opcode
    have := trim_cons_append (cs ++ ' ' :: text) uncommented (hletters c List.mem_cons_self).2.1
      (show isBlank ',' = false from rfl)
    simp only [List.append_assoc, List.cons_append] at this
    rw [hmnemonic, String.toList_ofList, List.cons_append, List.cons_append, this]
  have hsplit := operandsFrom_append h.passes [] (',' :: trimBack uncommented)
  rw [List.append_nil, operandsFrom, if_pos ⟨rfl, rfl⟩, List.reverse_reverse, h.trimmed] at hsplit
  rw [read, hcomment, htrim, ofContent_mnemonic_append hop htrimRest, operands,
    if_neg (by simp), hsplit]
  cases operandsFrom {} [] (trimBack uncommented) <;> rfl

/-- What stands behind the mnemonic in a line without a comment has no comment either. -/
theorem uncommented_of_split {content mnemonic rest : List Char}
    (hcomment : stripComment .outside content = content) (hline : '\n' ∉ content)
    (hsplit : (cut? isBlank content).getD (content, []) = (mnemonic, rest))
    (hplain : ∀ c ∈ mnemonic, IsPlain c) :
    stripComment .outside rest = rest ∧ '\n' ∉ rest := by
  cases hcut : cut? isBlank content with
  | none =>
      rw [hcut] at hsplit
      cases hsplit
      exact ⟨rfl, List.not_mem_nil⟩
  | some ab =>
      rw [hcut] at hsplit
      cases hsplit
      obtain ⟨c, hc, rfl, -⟩ := of_cut? hcut
      refine ⟨?_, fun hmem => hline (by simp [hmem])⟩
      rw [← List.singleton_append, ← List.append_assoc] at hcomment
      have := stripComment_of_append hcomment
      rwa [foldl_next_of_forall_isPlain] at this
      intro d hd
      rw [List.mem_append, List.mem_singleton] at hd
      rcases hd with hd | rfl
      · exact hplain d hd
      · exact isPlain_of_isBlank hc

/-- What a line with an instruction is made up of. -/
theorem exists_of_read {cs : List Char} {opcode : Opcode} {texts : List (List Char)}
    (h : read cs = .ok (.instruction opcode texts)) :
    Opcode.ofMnemonic? opcode.mnemonic = some opcode ∧ ∃ mnemonic rest,
      (cut? isBlank (trim (stripComment .outside cs))).getD (trim (stripComment .outside cs), []) =
        (mnemonic, rest) ∧
      (∀ c ∈ mnemonic, IsPlain c) ∧ operands (trim rest) = .ok texts := by
  rw [read] at h
  generalize trim (stripComment .outside cs) = content at h ⊢
  cases content with
  | nil => cases h
  | cons c content =>
      by_cases hc : c = ':'
      · subst hc
        rw [ofContent] at h
        split at h <;> cases h
      obtain ⟨mnemonic, rest, hsplit⟩ :
          ∃ mnemonic rest,
            (cut? isBlank (c :: content)).getD (c :: content, []) = (mnemonic, rest) :=
        ⟨_, _, rfl⟩
      rw [ofContent_cons hc hsplit] at h
      split at h
      swap
      · cases h
      rename_i opcode' hop
      obtain ⟨texts', htexts, heq⟩ := map_eq_ok_iff.mp h
      cases heq
      have hmnemonic := mnemonic_of_ofMnemonic? hop
      refine ⟨by rw [hmnemonic, hop], mnemonic, rest, hsplit, ?_, htexts⟩
      obtain ⟨d, ds, hletters, hall⟩ := exists_mnemonic opcode
      rw [hmnemonic, String.ofList_inj] at hletters
      rw [hletters]
      exact fun e he => (hall e he).1

/-- The operands of a line can stand one behind the other again. -/
theorem of_read {cs : List Char} {opcode : Opcode} {texts : List (List Char)}
    (h : read cs = .ok (.instruction opcode texts)) (hline : '\n' ∉ cs) :
    Opcode.ofMnemonic? opcode.mnemonic = some opcode ∧ AreOperands texts := by
  have hcomment := stripComment_trim (stripComment_idem .outside cs)
  have hcontent : '\n' ∉ trim (stripComment .outside cs) := fun hmem =>
    hline (mem_of_mem_stripComment (mem_of_mem_trim hmem))
  obtain ⟨hop, mnemonic, rest, hsplit, hplain, htexts⟩ := exists_of_read h
  refine ⟨hop, ?_⟩
  obtain ⟨hrest, hrestLine⟩ := uncommented_of_split hcomment hcontent hsplit hplain
  rw [operands] at htexts
  split at htexts
  · cases htexts
    trivial
  · refine areOperands_of_operandsFrom htexts rfl (stripComment_trim hrest) ?_
    exact fun hmem => hrestLine (mem_of_mem_trim (by simpa using hmem))

theorem foldl_next_of_operands {cs : List Char} {texts : List (List Char)}
    (h : operands (trim cs) = .ok texts) : cs.foldl Quoting.next .outside = .outside := by
  refine foldl_next_of_trim ?_
  rw [operands] at h
  split at h
  · rename_i hempty
    rw [List.isEmpty_iff.mp hempty]
    rfl
  · exact foldl_next_of_operandsFrom h

/-- A line with an instruction and without a comment ends outside of strings: what the operands say
about strings is what comments go by. -/
theorem foldl_next_of_read {cs : List Char} {opcode : Opcode} {texts : List (List Char)}
    (h : read cs = .ok (.instruction opcode texts)) (hcomment : stripComment .outside cs = cs) :
    cs.foldl Quoting.next .outside = .outside := by
  obtain ⟨-, mnemonic, rest, hsplit, hplain, htexts⟩ := exists_of_read h
  rw [hcomment] at hsplit
  refine foldl_next_of_trim ?_
  cases hcut : cut? isBlank (trim cs) with
  | none =>
      rw [hcut] at hsplit
      cases hsplit
      exact foldl_next_of_forall_isPlain hplain
  | some ab =>
      rw [hcut] at hsplit
      cases hsplit
      obtain ⟨c, hc, heq, -⟩ := of_cut? hcut
      have hblank : [c].foldl Quoting.next .outside = .outside :=
        foldl_next_of_forall_isPlain (List.forall_mem_singleton.mpr (isPlain_of_isBlank hc))
      rw [heq, ← List.singleton_append, List.foldl_append, List.foldl_append,
        foldl_next_of_forall_isPlain hplain, hblank]
      exact foldl_next_of_operands htexts

/-- A comment behind an instruction says nothing, whatever its strings contain. -/
theorem read_append_comment {cs : List Char} {opcode : Opcode} {texts : List (List Char)}
    (h : read cs = .ok (.instruction opcode texts)) (comment : List Char) :
    read (cs ++ '#' :: comment) = read cs := by
  rcases stripComment_append_or .outside cs ('#' :: comment) with hstrip | ⟨hcs, hstrip⟩
  · rw [read, hstrip, read]
  · rw [foldl_next_of_read h hcs, stripComment, if_pos ⟨rfl, rfl⟩, List.append_nil] at hstrip
    rw [read, hstrip, read, hcs]

/-- Blanks and a comment say nothing. -/
theorem read_blanks_comment {blanks : List Char} (h : Blanks blanks) (comment : List Char) :
    read (blanks ++ '#' :: comment) = .ok .blank := by
  rw [read_blanks_append _ h]
  rfl

theorem read_blanks {blanks : List Char} (h : Blanks blanks) : read blanks = .ok .blank := by
  rw [← List.append_nil blanks, read_blanks_append _ h]
  rfl

end Line

end DexGraft.Smali
