import DexGraft.Patch.Standard.WideSearchBar
import DexGraft.Proofs.Code.Widening
import DexGraft.Proofs.Fingerprint.Window
import DexGraft.Proofs.Patch.Call
import DexGraft.Proofs.Patch.Running

/-!
# Branches around the toggles of the search bar

The patch for the search bar puts toggles in front of instructions.  A branch to such an instruction
still leads to it afterwards, and so goes around the toggle.  The main statement is that there is a way
around a toggle exactly if the body had a branch to the instruction behind it.
-/

namespace DexGraft

open Editing Outcome Smali

/-- Taking the result of a call into a register. -/
def Instruction.takeResult (register : Register) : Instruction :=
  { opcode := .moveResult, registers := [register] }

namespace Method

variable {old middle new : Method} {place place' : Nat → Nat}

theorem mem_targets_iff (method : Method) (target : Nat) :
    target ∈ method.targets ↔ ∃ item ∈ method.body, item.target = some target :=
  List.mem_filterMap

/-- Instructions have been put in, but none behind the last one, and none that branches to what was
there. -/
structure Grown (place : Nat → Nat) (old new : Method) : Prop extends Moved place old new where
  targets : ∀ index, place index ∈ new.targets ↔ index ∈ old.targets
  ending : ∀ last, old.body.length = last + 1 → new.body.length = place last + 1

theorem Grown.refl (method : Method) : Grown id method method where
  toMoved := .refl method
  targets _ := Iff.rfl
  ending _ h := h

theorem Grown.trans (h : Grown place old middle) (h' : Grown place' middle new) :
    Grown (place' ∘ place) old new where
  toMoved := h.toMoved.trans h'.toMoved
  targets index := (h'.targets _).trans (h.targets index)
  ending last hlast := h'.ending _ (h.ending last hlast)

/-- The targets of a body into which others have been put in. -/
theorem mem_targets_insert {index : Nat} {items : List Instruction}
    (h : old.insert index items = .ok new) (target : Nat) :
    target ∈ new.targets ↔
      (∃ before ∈ old.targets, Target.afterInsert index items.length before = target) ∨
        ∃ item ∈ items, item.target = some target := by
  have happly : (Splice.insert index items).apply old = .ok new := h
  obtain ⟨-, rfl⟩ := Splice.apply_eq_ok_iff.mp happly
  set moved : List Instruction := old.body.map (.retarget (Splice.insert index items).move)
  have hold : (∃ item ∈ moved, item.target = some target) ↔
      ∃ before ∈ old.targets, Target.afterInsert index items.length before = target := by
    constructor
    · rintro ⟨item, hitem, htarget⟩
      obtain ⟨item, hmem, rfl⟩ := List.mem_map.mp hitem
      obtain ⟨before, hbefore, heq⟩ := Option.map_eq_some_iff.mp htarget
      exact ⟨before, (mem_targets_iff old before).mpr ⟨item, hmem, hbefore⟩, heq⟩
    · rintro ⟨before, hbefore, rfl⟩
      obtain ⟨item, hmem, htarget⟩ := (mem_targets_iff old before).mp hbefore
      refine ⟨_, List.mem_map_of_mem hmem, ?_⟩
      simp [Instruction.retarget, htarget, Splice.move]
  have hsplit : ∀ item, item ∈ moved ↔ item ∈ moved.take index ∨ item ∈ moved.drop index := by
    intro item
    rw [← List.mem_append, List.take_append_drop]
  rw [mem_targets_iff, ← hold]
  simp only [Splice.edit, List.map_id, List.mem_append, hsplit]
  grind

/-- What is put in in front of an instruction and branches only to what is put in leaves the branches
to what was there as they were. -/
theorem grown_of_insert {index : Nat} {items : List Instruction}
    (h : old.insert index items = .ok new) (hindex : index < old.body.length)
    (inner : ∀ item ∈ items, ∀ target, item.target = some target →
      index ≤ target ∧ target < index + items.length) :
    Grown (Target.afterInsert index items.length) old new where
  toMoved := moved_of_insert h
  targets position := by
    rw [mem_targets_insert h]
    constructor
    · rintro (⟨before, hbefore, heq⟩ | ⟨item, hitem, htarget⟩)
      · rwa [← (Target.afterInsert_strictMono index items.length).injective heq]
      · have := inner item hitem _ htarget
        rw [Target.afterInsert] at this
        split at this <;> omega
    · exact fun hmem => .inl ⟨position, hmem, rfl⟩
  ending last hlast := by
    have happly : (Splice.insert index items).apply old = .ok new := h
    rw [Splice.length_of_apply happly, Splice.size, Target.afterInsert, if_pos (by omega)]
    omega

end Method

/-! ## Toggles -/

/-- The line that takes a result reads as such, whatever its register is called. -/
theorem Smali.read_takeResult {operand : List Char} (h : Operand {} operand) (hne : operand ≠ []) :
    Line.read (Opcode.moveResult.mnemonic.toList ++ ' ' :: operand) =
      .ok (.instruction .moveResult [operand]) := by
  have hop : Opcode.ofMnemonic? Opcode.moveResult.mnemonic = some .moveResult := by
    decide +kernel
  have hoperands : AreOperands [operand] := ⟨{}, rfl, h⟩
  have hblanks : Text.Blanks [] := nofun
  have hlast : [operand].getLast? ≠ some [] := by simpa using hne
  have hread := Line.read_instruction hop hblanks hoperands (List.cons_ne_nil _ _) hlast
  rwa [List.intercalate_singleton, List.nil_append] at hread

theorem Smali.eq_takeResult_of_instruction {scope : Scope} {operand : List Char}
    {item : Instruction} (h : instruction scope .moveResult [operand] = .ok item) :
    ∃ register, readRegister scope.method operand = .ok register ∧
      item = .takeResult register := by
  obtain ⟨-, hopcode, rest, hregisters, hreads⟩ := of_instruction h
  obtain ⟨registers, hmap, heq⟩ := bind_eq_ok_iff.mp hregisters
  obtain ⟨register, hregister, hmap⟩ := bind_eq_ok_iff.mp hmap
  cases hmap
  rcases item with ⟨opcode, registers, literal, reference, target, prototype⟩
  cases heq
  cases hopcode
  cases hreads
  exact ⟨register, hregister, rfl⟩

/-- Instructions to be put in at the index that begin with a call of the first registers, end with
taking its result into the other one, and branch only to one another. -/
structure IsToggle (registers : List Register) (register : Register) (index : Nat)
    (items : List Instruction) : Prop where
  begins : ∃ call others, items = call :: others ∧ call.registers = registers
  ends : ∃ others, items = others ++ [.takeResult register]
  inner : ∀ item ∈ items, ∀ target, item.target = some target →
    index ≤ target ∧ target < index + items.length

/-- A text whose first line is a call and whose last line takes the result is a toggle. -/
theorem isToggle_of_assembleAt {text : String} {registers : List Register} {cs operand : List Char}
    {method : Method} {base : Nat} {items : List Instruction}
    (htext : text.toList = (HookPoint.atEntry ⟨0, 0⟩ registers).front ++ cs ++
      '\n' :: (Opcode.moveResult.mnemonic.toList ++ ' ' :: operand))
    (hoperand : Operand {} operand) (hne : operand ≠ [])
    (h : assembleAt text method base [] = .ok items) :
    ∃ register, readRegister method operand = .ok register ∧
      IsToggle registers register base items := by
  have hfront := htext
  rw [List.append_assoc] at hfront
  obtain ⟨-, -, reference, others, -, -, -, hbegins, -⟩ :=
    HookPoint.exists_of_assembleAt_front _ hfront h
  have hline : '\n' ∉ Opcode.moveResult.mnemonic.toList ++ ' ' :: operand := by
    have hmnemonic : '\n' ∉ Opcode.moveResult.mnemonic.toList := by decide
    have hblank : '\n' ≠ ' ' := by decide
    simp only [List.mem_append, List.mem_cons, not_or]
    exact ⟨hmnemonic, hblank, hoperand.oneLine⟩
  have hempty : Opcode.moveResult.mnemonic.toList ++ ' ' :: operand ≠ [] :=
    List.append_ne_nil_of_right_ne_nil _ (List.cons_ne_nil _ _)
  obtain ⟨others', item, labels, hends, hitem, inner⟩ := exists_of_assembleAt_lineFeed htext hempty
    hline (read_takeResult hoperand hne) h
  obtain ⟨register, hregister, rfl⟩ := eq_takeResult_of_instruction hitem
  exact ⟨register, hregister, ⟨_, others, hbegins, rfl⟩, ⟨others', hends⟩, inner⟩

namespace Patch.Standard.WideSearchBar

/-- The toggle goes in front of the last instruction, and takes the result into the first parameter
register. -/
theorem exists_of_insertToggle {general : String} {method changed : Method}
    (h : (insertToggle general).result method = .ok changed) :
    ∃ last this items, method.body.length = last + 1 ∧ method.parameterRegister? 0 = some this ∧
      IsToggle [] this last items ∧ method.insert last items = .ok changed := by
  rw [result_eq_ok_iff, insertToggle, run_get_bind] at h
  split at h
  · cases h
  rename_i last hlast
  obtain ⟨items, hitems, hinsert, -⟩ :=
    Method.exists_of_insertLabelled (result_eq_ok_iff.mpr h)
  have htext : (toggleText general).toList = (HookPoint.atEntry ⟨0, 0⟩ []).front ++
      (" " ++ general ++ "->enableWideSearchBar()Z").toList ++
        '\n' :: (Opcode.moveResult.mnemonic.toList ++ ' ' :: ['p', '0']) := by
    have hwritten : toggleText general = "invoke-static \x7b\x7d, " ++ general ++
        "->enableWideSearchBar()Z\nmove-result p0" := rfl
    have hregisters : Register.listText (HookPoint.atEntry ⟨0, 0⟩ []).registers = "" := rfl
    have hmnemonic : Opcode.moveResult.mnemonic = "move-result" := rfl
    rw [hwritten, HookPoint.front_eq, hregisters, hmnemonic]
    simp
  have hoperand : Operand {} ['p', '0'] :=
    operand_of_forall_isWord (isWord_of_all (by decide))
  obtain ⟨this, hthis, toggle⟩ :=
    isToggle_of_assembleAt htext hoperand (List.cons_ne_nil _ _) hitems
  refine ⟨last, this, items, hlast, ?_, toggle, hinsert⟩
  have hnumber : readRegisterNumber ['p', '0'] ['0'] = .ok 0 := rfl
  have hp : Text.trim ['p', '0'] = ['p', '0'] := rfl
  simp only [readRegister, hp, hnumber, ok_bind] at hthis
  split at hthis
  · cases hthis
    assumption
  · cases hthis

/-- The other toggle goes in front of the instruction that tests the flag, and puts the result in the
place of the flag. -/
theorem exists_of_insertTabToggle {general : String} {index : Nat} {method changed : Method}
    (h : (insertTabToggle general index).result method = .ok changed) :
    ∃ test flag items, method.body[index]? = some test ∧ test.registers.head? = some flag ∧
      IsToggle [flag] flag index items ∧ method.insert index items = .ok changed := by
  obtain ⟨flag, middle, hlook, h⟩ := run_bind_eq_ok_iff.mp (result_eq_ok_iff.mp h)
  obtain ⟨hflag, rfl⟩ := run_look_eq_ok_iff.mp hlook
  obtain ⟨test, hindex, hhead⟩ := Method.of_registerAt hflag
  obtain ⟨items, hitems, hinsert, -⟩ :=
    Method.exists_of_insertLabelled (result_eq_ok_iff.mpr h)
  have htext : (tabToggleText general flag).toList = (HookPoint.atEntry ⟨0, 0⟩ [flag]).front ++
      (" " ++ general ++ "->enableWideSearchBarInYouTab(Z)Z").toList ++
        '\n' :: (Opcode.moveResult.mnemonic.toList ++ ' ' :: flag.text.toList) := by
    have hwritten : tabToggleText general flag = "invoke-static \x7b" ++ flag.text ++ "\x7d, " ++
        general ++ "->enableWideSearchBarInYouTab(Z)Z\nmove-result " ++ flag.text := rfl
    have hregisters : Register.listText (HookPoint.atEntry ⟨0, 0⟩ [flag]).registers = flag.text :=
      rfl
    have hmnemonic : Opcode.moveResult.mnemonic = "move-result" := rfl
    rw [hwritten, HookPoint.front_eq, hregisters, hmnemonic]
    simp
  obtain ⟨register, hregister, toggle⟩ :=
    isToggle_of_assembleAt htext flag.operand_text flag.text_ne_nil hitems
  rw [readRegister_text] at hregister
  cases hregister
  exact ⟨test, flag, items, hindex, hhead, toggle, hinsert⟩

/-! ## Toggles in place -/

variable {old method changed : Method} {place : Nat → Nat} {index source last : Nat}
  {registers : List Register} {register this : Register} {items : List Instruction}

/-- The instruction that had the index stands right behind the end of a toggle. -/
def Guarded (register : Register) (index : Nat) (place : Nat → Nat) (new : Method) : Prop :=
  ∃ before, place index = before + 1 ∧ new.body[before]? = some (.takeResult register)

/-- A toggle that is put in in front of an instruction guards it. -/
theorem grown_of_toggle (h : method.insert index items = .ok changed)
    (hindex : index < method.body.length) (toggle : IsToggle registers register index items)
    (grown : Method.Grown place old method) (hsource : place source = index) :
    Method.Grown (Target.afterInsert index items.length ∘ place) old changed ∧
      Guarded register source (Target.afterInsert index items.length ∘ place) changed := by
  refine ⟨grown.trans (Method.grown_of_insert h hindex toggle.inner), ?_⟩
  obtain ⟨others, rfl⟩ := toggle.ends
  have hlength : (others ++ [Instruction.takeResult register]).length = others.length + 1 :=
    List.length_append
  refine ⟨index + others.length, ?_, ?_⟩
  · rw [Function.comp_apply, hsource, Target.afterInsert, if_pos le_rfl, hlength]
    omega
  · rw [Splice.getElem?_add_of_insert h (by omega)]
    simp

/-- What is put in farther in front leaves the instruction guarded. -/
theorem Guarded.insert (guarded : Guarded register index place method) {front : Nat}
    (h : method.insert front items = .ok changed) (hfront : front < place index) :
    Guarded register index (Target.afterInsert front items.length ∘ place) changed := by
  obtain ⟨before, hplace, hbefore⟩ := guarded
  have hmoved := Splice.getElem?_afterInsert_of_insert h before
  rw [Target.afterInsert, if_pos (by omega), hbefore, Option.map_some] at hmoved
  refine ⟨before + items.length, ?_, hmoved⟩
  rw [Function.comp_apply, Target.afterInsert, if_pos (by omega), hplace]
  omega

/-- Toggles stand in front of the last instruction, and nothing else has been put in.  Where the first
of them begins there is no register to be read. -/
structure Toggled (last : Nat) (this : Register) (place : Nat → Nat) (old new : Method) : Prop
    extends Method.Grown place old new where
  length : old.body.length = last + 1
  first : old.parameterRegister? 0 = some this
  guarded : Guarded this last place new
  front : ∀ index < last, place index = index
  begins : last < place last ∧ ∃ call, new.body[last]? = some call ∧ call.registers = []

theorem parameterRegister?_of_moved (h : Method.Moved place old method) (n : Nat) :
    method.parameterRegister? n = old.parameterRegister? n :=
  calc method.parameterRegister? n = { method with body := old.body }.parameterRegister? n := rfl
    _ = old.parameterRegister? n := by rw [h.frame]

theorem toggled_of_insertToggle {general : String} (h : (insertToggle general).result old = .ok changed) :
    ∃ last this place, Toggled last this place old changed := by
  obtain ⟨last, this, items, hlength, hthis, toggle, hinsert⟩ := exists_of_insertToggle h
  have hlast : last < old.body.length := by omega
  obtain ⟨grown, guarded⟩ := grown_of_toggle hinsert hlast toggle (Method.Grown.refl old) rfl
  refine ⟨last, this, _, grown, hlength, hthis, guarded, fun index hindex => ?_, ?_⟩
  · exact if_neg (Nat.not_le.mpr hindex)
  · obtain ⟨call, others, rfl, hcall⟩ := toggle.begins
    refine ⟨?_, call, ?_, hcall⟩
    · rw [Function.comp_apply, id, Target.afterInsert, if_pos le_rfl, List.length_cons]
      omega
    · exact Splice.getElem?_add_of_insert hinsert (Nat.zero_lt_succ _)

/-- A further toggle stands behind the ones that are there. -/
theorem Toggled.insertToggle {general : String} (h : Toggled last this place old method)
    (h' : (insertToggle general).result method = .ok changed) :
    ∃ place', Toggled last this place' old changed := by
  obtain ⟨last', this', items, hlength, hthis, toggle, hinsert⟩ := exists_of_insertToggle h'
  rw [parameterRegister?_of_moved h.toMoved, h.first] at hthis
  cases hthis
  have hlast := h.ending last h.length
  obtain rfl : place last = last' := by omega
  obtain ⟨grown, guarded⟩ := grown_of_toggle hinsert (by omega) toggle h.toGrown rfl
  obtain ⟨hbehind, call, hcall, hregisters⟩ := h.begins
  refine ⟨_, grown, h.length, h.first, guarded, fun index hindex => ?_, ?_⟩
  · rw [Function.comp_apply, h.front index hindex, Target.afterInsert, if_neg (by omega)]
  · have hkept := Splice.getElem?_afterInsert_of_insert hinsert last
    rw [Target.afterInsert, if_neg (by omega), hcall, Option.map_some] at hkept
    refine ⟨?_, _, hkept, hregisters⟩
    rw [Function.comp_apply, Target.afterInsert, if_pos le_rfl]
    omega

/-- The other toggle, in a method in which nothing has been put in as far as the instruction that tests
the flag. -/
theorem grown_of_insertTabToggle {general : String}
    (h : (insertTabToggle general index).result method = .ok changed)
    (grown : Method.Grown place old method) (hplace : place index = index) :
    ∃ test flag items, old.body[index]? = some test ∧ test.registers.head? = some flag ∧
      method.insert index items = .ok changed ∧
      Method.Grown (Target.afterInsert index items.length ∘ place) old changed ∧
      Guarded flag index (Target.afterInsert index items.length ∘ place) changed := by
  obtain ⟨moved, flag, items, hmoved, hflag, toggle, hinsert⟩ := exists_of_insertTabToggle h
  have hindex : index < method.body.length := (List.getElem?_eq_some_iff.mp hmoved).1
  obtain ⟨grown', guarded⟩ := grown_of_toggle hinsert hindex toggle grown hplace
  have hkept := grown.kept index
  rw [hplace, hmoved, eq_comm, Option.map_eq_some_iff] at hkept
  obtain ⟨test, htest, rfl⟩ := hkept
  exact ⟨test, flag, items, htest, hflag, hinsert, grown', guarded⟩

/-- The other toggle does not go in front of the last instruction, where the call has no register. -/
theorem Toggled.lt_of_insertTabToggle {general : String} (h : Toggled last this place old method)
    (h' : (insertTabToggle general index).result method = .ok changed) (hindex : index ≤ last) :
    index < last := by
  refine Nat.lt_of_le_of_ne hindex ?_
  rintro rfl
  obtain ⟨-, call, hcall, hregisters⟩ := h.begins
  obtain ⟨test, flag, -, htest, hflag, -⟩ := exists_of_insertTabToggle h'
  cases hcall.symm.trans htest
  rw [hregisters] at hflag
  cases hflag

/-! ## The whole patch -/

/-- A toggle of the register stands in front of what was the instruction at the index, and there is a
way around it exactly if there was a branch to this instruction. -/
structure Toggle (register : Register) (index : Nat) (place : Nat → Nat) (old new : Method) :
    Prop where
  moved : Method.Moved place old new
  guarded : Guarded register index place new
  around : place index ∈ new.targets ↔ index ∈ old.targets

theorem toggle_of_grown (grown : Method.Grown place old method)
    (guarded : Guarded register index place method) : Toggle register index place old method :=
  ⟨grown.toMoved, guarded, grown.targets index⟩

variable {general : String} {context final : PatchContext} {check switch : MethodId}
  {pool middle pool' : ClassPool}

/-- The first two edits toggle both methods, be they one method or two. -/
theorem exists_toggled (hfirst : pool.Edited check (insertToggle general).result middle)
    (hsecond : middle.Edited switch (insertToggle general).result pool') {id : MethodId}
    (hid : id ∈ [check, switch]) :
    ∃ old new last this place, pool.method? id = some old ∧ pool'.method? id = some new ∧
      Toggled last this place old new := by
  by_cases hcheck : id = check
  · subst hcheck
    obtain ⟨old, once, hold, hchange, rfl⟩ := hfirst
    obtain ⟨last, this, place, toggled⟩ := toggled_of_insertToggle hchange
    have honce := ClassPool.method?_setMethod hold once
    by_cases hswitch : id = switch
    · subst hswitch
      obtain ⟨twice, hagain, htwice⟩ := hsecond.method?_self honce
      obtain ⟨place', toggled'⟩ := toggled.insertToggle hagain
      exact ⟨old, twice, last, this, place', hold, htwice, toggled'⟩
    · rw [← hsecond.method?_of_ne hswitch] at honce
      exact ⟨old, once, last, this, place, hold, honce, toggled⟩
  · obtain rfl : id = switch := by
      simpa [hcheck] using hid
    obtain ⟨old, once, hold, hchange, rfl⟩ := hsecond
    obtain ⟨last, this, place, toggled⟩ := toggled_of_insertToggle hchange
    have honce := ClassPool.method?_setMethod hold once
    rw [hfirst.method?_of_ne hcheck] at hold
    exact ⟨old, once, last, this, place, hold, honce, toggled⟩

/-- The third edit puts a toggle in front of the instruction at the index.  If the method has been
toggled before, that one stays in place. -/
theorem exists_toggled_tab {tab : MethodId} {old : Method}
    (hfirst : pool.Edited check (insertToggle general).result middle)
    (hsecond : middle.Edited switch (insertToggle general).result pool')
    (hthird : pool'.Edited tab (insertTabToggle general index).result final.pool)
    (hold : pool.method? tab = some old) (hindex : index < old.body.length) :
    ∃ new test flag place, final.pool.method? tab = some new ∧ old.body[index]? = some test ∧
      test.registers.head? = some flag ∧ Method.Grown place old new ∧
      Guarded flag index place new ∧ (tab ∈ [check, switch] →
        ∃ last this, old.body.length = last + 1 ∧ old.parameterRegister? 0 = some this ∧
          Guarded this last place new) := by
  by_cases htab : tab ∈ [check, switch]
  · obtain ⟨old', method, last, this, place, hold', hmethod, toggled⟩ :=
      exists_toggled hfirst hsecond htab
    cases hold.symm.trans hold'
    obtain ⟨new, hchange, hnew⟩ := hthird.method?_self hmethod
    have hlength := toggled.length
    have hlt := toggled.lt_of_insertTabToggle hchange (by omega)
    obtain ⟨test, flag, items, htest, hflag, hinsert, grown, guarded⟩ :=
      grown_of_insertTabToggle hchange toggled.toGrown (toggled.front index hlt)
    have hfront : index < place last := hlt.trans toggled.begins.1
    exact ⟨new, test, flag, _, hnew, htest, hflag, grown, guarded, fun _ =>
      ⟨last, this, hlength, toggled.first, toggled.guarded.insert hinsert hfront⟩⟩
  · obtain ⟨hcheck, hswitch⟩ : tab ≠ check ∧ tab ≠ switch := by
      simpa using htab
    rw [← hfirst.method?_of_ne hcheck, ← hsecond.method?_of_ne hswitch] at hold
    obtain ⟨new, hchange, hnew⟩ := hthird.method?_self hold
    obtain ⟨test, flag, items, htest, hflag, -, grown, guarded⟩ :=
      grown_of_insertTabToggle hchange (Method.Grown.refl old) rfl
    exact ⟨new, test, flag, _, hnew, htest, hflag, grown, guarded, fun h => absurd h htab⟩

theorem eq_of_run_tabletCheck (h : tabletCheck.run.run context = (.ok check, final)) :
    final = context := by
  obtain ⟨header, middle, hheader, hwalk⟩ := run_bind_eq_ok_iff.mp h
  obtain ⟨-, rfl⟩ := Patching.run_resolution_eq_ok_iff.mp hheader
  exact (run_look_eq_ok_iff.mp hwalk).2.symm

/-- What the patch has done: three edits, one after the other. -/
theorem exists_of_execute (h : execute.run.run context = (.ok (), final)) :
    ∃ check switch tab window middle middle',
      tabletCheck.run.run context = (.ok check, context) ∧
      context.resolutions.get? Landmark.layoutSwitch.name = some switch ∧
      context.resolutions.get? Landmark.youActionBar.name = some tab ∧ tab.window = .ok window ∧
      context.pool.Edited check (insertToggle context.config.generalClass).result middle ∧
      middle.Edited switch.method (insertToggle context.config.generalClass).result middle' ∧
      middle'.Edited tab.method (insertTabToggle context.config.generalClass window.last).result
        final.pool := by
  obtain ⟨here, context', hget, h⟩ := run_bind_eq_ok_iff.mp h
  cases hget
  obtain ⟨check, context', hcheck, h⟩ := run_bind_eq_ok_iff.mp h
  obtain rfl := eq_of_run_tabletCheck hcheck
  obtain ⟨switch, context', hstep, h⟩ := run_bind_eq_ok_iff.mp h
  obtain ⟨hswitch, rfl⟩ := Patching.run_resolution_eq_ok_iff.mp hstep
  obtain ⟨⟨⟩, context', hstep, h⟩ := run_bind_eq_ok_iff.mp h
  obtain ⟨middle, hfirst, rfl⟩ := Patching.run_edit_eq_ok_iff.mp hstep
  obtain ⟨⟨⟩, context', hstep, h⟩ := run_bind_eq_ok_iff.mp h
  obtain ⟨middle', hsecond, rfl⟩ := Patching.run_edit_eq_ok_iff.mp hstep
  obtain ⟨tab, context', hstep, h⟩ := run_bind_eq_ok_iff.mp h
  obtain ⟨htab, rfl⟩ := Patching.run_resolution_eq_ok_iff.mp hstep
  obtain ⟨window, context', hstep, h⟩ := run_bind_eq_ok_iff.mp h
  obtain ⟨hwindow, rfl⟩ := run_look_eq_ok_iff.mp hstep
  obtain ⟨⟨⟩, context', hstep, h⟩ := run_bind_eq_ok_iff.mp h
  obtain ⟨last, hthird, rfl⟩ := Patching.run_edit_eq_ok_iff.mp hstep
  -- what follows only lists settings
  obtain ⟨⟨⟩, context', hstep, h⟩ := run_bind_eq_ok_iff.mp h
  cases hstep
  cases h
  exact ⟨check, switch, tab, window, middle, middle', hcheck, hswitch, htab, hwindow, hfirst,
    hsecond, hthird⟩

/-- The check for a tablet and the choice of a layout end behind a toggle of the first parameter
register, and the test of the flag stands behind a toggle of the flag, wherever the fingerprint of the
latter is up to date.  A branch that led to what a toggle guards goes around the toggle, and there are
no other ways around it. -/
theorem toggles_of_execute (h : execute.run.run context = (.ok (), final)) :
    ∃ check switch tab window,
      tabletCheck.run.run context = (.ok check, context) ∧
      context.resolutions.get? Landmark.layoutSwitch.name = some switch ∧
      context.resolutions.get? Landmark.youActionBar.name = some tab ∧ tab.window = .ok window ∧
      (∀ id ∈ [check, switch.method],
        (id = tab.method → Landmark.youActionBar.resolveAt? context.pool tab.method = some tab) →
          ∃ old new last this place,
            context.pool.method? id = some old ∧ final.pool.method? id = some new ∧
            old.body.length = last + 1 ∧ new.body.length = place last + 1 ∧
            old.parameterRegister? 0 = some this ∧ Toggle this last place old new) ∧
      (Landmark.youActionBar.resolveAt? context.pool tab.method = some tab →
        ∃ old new test flag place,
          context.pool.method? tab.method = some old ∧ final.pool.method? tab.method = some new ∧
          old.body[window.last]? = some test ∧ test.opcode = .ifEqz ∧
          test.registers.head? = some flag ∧ Toggle flag window.last place old new) := by
  obtain ⟨check, switch, tab, window, middle, middle', hcheck, hswitch, htab, hwindow, hfirst,
    hsecond, hthird⟩ := exists_of_execute h
  have hcurrent (h : Landmark.youActionBar.resolveAt? context.pool tab.method = some tab) :
      ∃ old test, context.pool.method? tab.method = some old ∧
        old.body[window.last]? = some test ∧ test.opcode = .ifEqz := by
    obtain ⟨old, hold, hlast, hopcodes⟩ := Fingerprint.of_resolveAt? rfl h hwindow
    obtain ⟨test, htest, hopcode⟩ := hopcodes 2 .ifEqz rfl
    have hplace : window.first + 2 = window.last := by
      simp only [List.length_cons, List.length_nil] at hlast
      omega
    rw [hplace] at htest
    exact ⟨old, test, hold, htest, hopcode⟩
  refine ⟨check, switch, tab, window, hcheck, hswitch, htab, hwindow, fun id hid h => ?_,
    fun h => ?_⟩
  · obtain ⟨old, once, last, this, place, hold, honce, toggled⟩ :=
      exists_toggled hfirst hsecond hid
    by_cases heq : id = tab.method
    · subst heq
      obtain ⟨old', test, hold', htest, -⟩ := hcurrent (h rfl)
      cases hold.symm.trans hold'
      obtain ⟨new, test, flag, place, hnew, -, -, grown, -, htoggled⟩ :=
        exists_toggled_tab hfirst hsecond hthird hold (List.getElem?_eq_some_iff.mp htest).1
      obtain ⟨last, this, hlength, hthis, guarded⟩ := htoggled hid
      exact ⟨old, new, last, this, place, hold, hnew, hlength, grown.ending last hlength, hthis,
        toggle_of_grown grown guarded⟩
    · rw [← hthird.method?_of_ne heq] at honce
      exact ⟨old, once, last, this, place, hold, honce, toggled.length,
        toggled.ending last toggled.length, toggled.first,
        toggle_of_grown toggled.toGrown toggled.guarded⟩
  · obtain ⟨old, test, hold, htest, hopcode⟩ := hcurrent h
    obtain ⟨new, test', flag, place, hnew, htest', hflag, grown, guarded, -⟩ :=
      exists_toggled_tab hfirst hsecond hthird hold (List.getElem?_eq_some_iff.mp htest).1
    cases htest.symm.trans htest'
    exact ⟨old, new, test, flag, place, hold, hnew, htest, hopcode, hflag,
      toggle_of_grown grown guarded⟩

/-- A check for a tablet and a method with a flag to be tested, each with a branch to the instruction
in front of which a toggle goes. -/
def branching : PatchContext where
  pool := ⟨[{ ClassDef.ofDescriptor "La;" with
    methods :=
      [⟨"La;", "setHeader", ["Landroid/widget/ImageView;"], "V", .publicFlag, 3,
        [⟨.igetObject, [0, 1], none, some (.field ⟨"La;", "context", "La;"⟩), none, none⟩,
          ⟨.invokeStatic, [0], none, some (.method ⟨"La;", "isTablet", ["La;"], "Z"⟩), none, none⟩,
          { opcode := .moveResult, registers := [0] },
          ⟨.ifNez, [0], none, none, some 4, none⟩,
          { opcode := .returnVoid }]⟩,
      ⟨"La;", "isTablet", ["La;"], "Z", .staticFlag, 1,
        [⟨.ifEqz, [0], none, none, some 2, none⟩,
          { opcode := .const4, registers := [0], literal := some 1 },
          { opcode := .returnValue, registers := [0] }]⟩,
      ⟨"La;", "layout", ["La;"], "I", .staticFlag, 1,
        [{ opcode := .returnValue, registers := [0] }]⟩,
      ⟨"La;", "setTab", ["Landroid/view/View;"], "V", .publicFlag, 3,
        [⟨.ifNez, [0], none, none, some 3, none⟩,
          ⟨.invokeVirtual, [1], none, some (.method ⟨"La;", "isSelected", [], "Z"⟩), none, none⟩,
          { opcode := .moveResult, registers := [0] },
          ⟨.ifEqz, [0], none, none, some 4, none⟩,
          { opcode := .returnVoid }]⟩] }]⟩
  resources := .ofTable ⟨[]⟩
  config := { generalClass := "Lg;" }
  resolutions := ⟨⟨[(Landmark.layoutSwitch.name, ⟨Landmark.layoutSwitch.name, ⟨0, 2⟩, {}⟩),
    (Landmark.setWordMarkHeader.name,
      ⟨Landmark.setWordMarkHeader.name, ⟨0, 0⟩, { window := some ⟨0, 3⟩ }⟩),
    (Landmark.youActionBar.name,
      ⟨Landmark.youActionBar.name, ⟨0, 3⟩, { window := some ⟨1, 3⟩ }⟩)]⟩⟩

/-- The result of the check is toggled, and so is the flag. -/
theorem toggles_of_execute_branching :
    let final := (execute.run.run branching).2
    execute.run.run branching = (.ok (), final) ∧
      (∃ old new place, branching.pool.method? ⟨0, 1⟩ = some old ∧
        final.pool.method? ⟨0, 1⟩ = some new ∧ Toggle 0 2 place old new) ∧
      ∃ old new place, branching.pool.method? ⟨0, 3⟩ = some old ∧
        final.pool.method? ⟨0, 3⟩ = some new ∧ Toggle 0 3 place old new := by
  intro final
  have hok : (execute.run.run branching).1 = .ok () := by
    decide +kernel
  have hrun : execute.run.run branching = (.ok (), final) := by
    rw [← hok]
    exact Prod.mk.eta.symm
  have hchecked : (tabletCheck.run.run branching).1 = .ok ⟨0, 1⟩ := by
    decide +kernel
  have hcurrent : Landmark.youActionBar.resolveAt? branching.pool ⟨0, 3⟩ =
      branching.resolutions.get? Landmark.youActionBar.name := by
    decide +kernel
  obtain ⟨check, switch, tab, window, hcheck, -, htab, hwindow, hends, htest⟩ :=
    toggles_of_execute hrun
  rw [hcheck] at hchecked
  cases hchecked
  cases htab
  cases hwindow
  obtain ⟨old, new, last, this, place, hold, hnew, hlast, -, hthis, toggle⟩ :=
    hends ⟨0, 1⟩ (List.mem_cons_self ..) nofun
  obtain ⟨old', new', test, flag, place', hold', hnew', htested, -, hflag, toggle'⟩ :=
    htest hcurrent
  cases hold
  cases hlast
  cases hthis
  cases hold'
  cases htested
  cases hflag
  exact ⟨hrun, ⟨_, new, place, rfl, hnew, toggle⟩, _, new', place', rfl, hnew', toggle'⟩

/-- A branch to the end of the check goes around the toggle in front of it, and so does a branch to
the test of the flag. -/
theorem around_toggles_branching :
    let final := (execute.run.run branching).2
    (execute.run.run branching).1 = .ok () ∧
      (tabletCheck.run.run branching).1 = .ok ⟨0, 1⟩ ∧
      (∃ check ∈ final.pool.method? ⟨0, 1⟩, check.body.length - 1 ∈ check.targets) ∧
      ∃ tab ∈ final.pool.method? ⟨0, 3⟩, 5 ∈ tab.targets ∧
        (tab.body[5]?.map (·.opcode)) = some .ifEqz := by
  decide +kernel

end Patch.Standard.WideSearchBar

end DexGraft
