import DexGraft.Patch.Standard.VideoInformation
import DexGraft.Proofs.Code.Parameters
import DexGraft.Proofs.Code.Widening
import DexGraft.Proofs.Fingerprint.Window
import DexGraft.Proofs.Patch.Inject
import DexGraft.Proofs.Patch.Running

/-!
# Calls about videos

The patch about videos puts in four calls, one after the other.  For two of its places it goes by
windows that were found before the first call, so that a call in front of a window makes it take the
instructions in front of the ones that were found.  The main statement says which these are in the end,
and that they are the ones that were found exactly if no earlier call stands in front of them.
-/

namespace DexGraft

open Editing Outcome Text Smali

theorem HookPoint.of_after {id : MethodId} {method : Method} {index : Nat} {registers : List Register}
    {point : HookPoint} (h : HookPoint.after id method index registers = .ok point) :
    ∃ instruction, method.body[index]? = some instruction ∧
      point = ⟨id, .after instruction index, registers, 0⟩ := by
  obtain ⟨instruction, hinstruction, h⟩ := bind_eq_ok_iff.mp h
  cases h
  exact ⟨instruction, Method.getElem?_of_instruction hinstruction, rfl⟩

/-- A point behind an instruction of its method has its anchor where it says. -/
theorem HookPoint.anchored_after {pool : ClassPool} {id : MethodId} {method : Method} {index : Nat}
    {instruction : Instruction} (registers : List Register) (hmethod : pool.method? id = some method)
    (hindex : method.body[index]? = some instruction) :
    ∀ found, pool.method? id = some found →
      Anchored ⟨id, .after instruction index, registers, 0⟩ found.body := by
  intro found hfound
  cases hmethod.symm.trans hfound
  rintro _ _ ⟨⟩
  exact hindex

namespace Patch.Standard.VideoInformation

variable {context middle last : PatchContext}

/-! ## Points -/

theorem of_isConstructorCall {this : Register} {instruction : Instruction}
    (h : isConstructorCall this instruction) :
    instruction.opcode = .invokeDirect ∨ instruction.opcode = .invokeDirectRange := by
  rw [isConstructorCall, Bool.and_eq_true, Bool.and_eq_true, Bool.or_eq_true] at h
  exact h.1.1.imp beq_iff_eq.mp beq_iff_eq.mp

/-- The point for new players is behind a constructor call. -/
theorem of_playerInitPoint {pool : ClassPool} {inClass : Nat} {point : HookPoint}
    (h : playerInitPoint pool inClass = .ok point) :
    ∃ id method call index this, pool.method? id = some method ∧ method.body[index]? = some call ∧
      (call.opcode = .invokeDirect ∨ call.opcode = .invokeDirectRange) ∧
      point = ⟨id, .after call index, [this], 0⟩ := by
  obtain ⟨cls, -, h⟩ := bind_eq_ok_iff.mp h
  split at h
  · cases h
  obtain ⟨method, hmethod, h⟩ := bind_eq_ok_iff.mp h
  split at h
  · cases h
  split at h
  · cases h
  rename_i index hindex
  obtain ⟨call, hcall, rfl⟩ := HookPoint.of_after h
  obtain ⟨hlt, haccepted, -⟩ := List.findIdx?_eq_some_iff_getElem.mp hindex
  rw [List.getElem?_eq_getElem hlt] at hcall
  cases hcall
  exact ⟨_, method, _, index, _, ClassPool.method?_of_method hmethod,
    List.getElem?_eq_getElem hlt, of_isConstructorCall haccepted, rfl⟩

/-- The point for the time is at the beginning of a method. -/
theorem of_videoTimePoint {id : MethodId} {method : Method} {point : HookPoint}
    (h : videoTimePoint id method = .ok point) : ∃ registers, point = .atEntry id registers := by
  rw [videoTimePoint] at h
  split at h
  · obtain ⟨high, -, h⟩ := bind_eq_ok_iff.mp h
    cases h
    exact ⟨_, rfl⟩
  · cases h

/-- A first parameter that is a time has the register behind its first one too, so that the point
for the time is refused to methods without such a parameter only. -/
theorem eq_noTimeParameter_of_videoTimePoint {id : MethodId} {method : Method} {error : Error}
    (h : videoTimePoint id method = .error error) :
    error = .invalidMethod (.noTimeParameter method.descriptor) := by
  have hstart : method.parameterStart 0 = if method.isStatic then 0 else 1 := by
    rw [Method.parameterStart, List.take_zero, Descriptor.totalWidth, Nat.add_zero]
  rw [videoTimePoint, ← hstart] at h
  split at h
  · rename_i register hfirst hregister
    rw [List.head?_eq_getElem?] at hfirst
    obtain ⟨hsucc, -⟩ := Method.succ_lt_registers_of_wide hfirst rfl hregister
    have hfits : register.toNat + 1 < UInt16.size := hsucc ▸ (register + 1).toNat_lt_size
    rw [registerBehind, if_pos hfits] at h
    cases h
  · cases h
    rfl

/-- The point for the id is behind taking an object. -/
theorem of_videoIdPoint {id : MethodId} {method : Method} {point : HookPoint}
    (h : videoIdPoint id method = .ok point) :
    ∃ taken index register, method.body[index]? = some taken ∧ taken.opcode = .moveResultObject ∧
      point = ⟨id, .after taken index, [register], 0⟩ := by
  rw [videoIdPoint] at h
  split at h
  · cases h
  obtain ⟨taken, htaken, h⟩ := bind_eq_ok_iff.mp h
  have hindex := Method.getElem?_of_instruction htaken
  split at h
  · rename_i hopcode
    obtain ⟨register, -, h⟩ := bind_eq_ok_iff.mp h
    obtain ⟨taken', hindex', rfl⟩ := HookPoint.of_after h
    cases hindex.symm.trans hindex'
    exact ⟨taken, _, register, hindex, hopcode, rfl⟩
  · cases h

/-! ## Reporting the length -/

/-- The call that reports the length from a register and the one behind it. -/
def lengthReport (target : MethodRef) (low : Register) : Instruction :=
  { opcode := .invokeStatic, registers := [low, low + 1], reference := some (.method target) }

/-- Of the integrations' methods for the time and the length, both can be called or none. -/
theorem exists_parse_setVideoLength {video : String} {time : MethodRef}
    (h : MethodRef.parse s!"{video}->setVideoTime(J)V" = .ok time) :
    ∃ target, MethodRef.parse s!"{video}->setVideoLength(J)V" = .ok target := by
  have htime : (s!"{video}->setVideoTime(J)V").toList = video.toList ++ (['-', '>'] ++
      ("setVideoTime".toList ++ '(' :: (['J'] ++ ')' :: ['V']))) :=
    String.toList_append
  have hlength : (s!"{video}->setVideoLength(J)V").toList = video.toList ++ (['-', '>'] ++
      ("setVideoLength".toList ++ '(' :: (['J'] ++ ')' :: ['V']))) :=
    String.toList_append
  rw [MethodRef.parse, htime] at h
  rw [MethodRef.parse, hlength]
  have hresult : ∀ c ∈ ['V'], isBlank c = false ∧ (c == ')') = false :=
    List.forall_mem_singleton.mpr (by decide)
  have hread := (MethodRef.exists_read_named_iff (by decide) (by decide) (by decide)
    hresult).mp ⟨time, h⟩
  exact (MethodRef.exists_read_named_iff (by decide) (by decide) (by decide) hresult).mpr hread

/-- The length is reported by a single call, from the first register of the instruction that takes it
and the one behind this register. -/
theorem exists_of_insertLengthReport {video : String} {index : Nat} {method changed : Method}
    {time : MethodRef} (htime : MethodRef.parse s!"{video}->setVideoTime(J)V" = .ok time)
    (h : (insertLengthReport video index).result method = .ok changed) :
    ∃ target taken low, MethodRef.parse s!"{video}->setVideoLength(J)V" = .ok target ∧
      method.body[index]? = some taken ∧ taken.registers.head? = some low ∧
      method.insert (index + 1) [lengthReport target low] = .ok changed := by
  obtain ⟨target, htarget⟩ := exists_parse_setVideoLength htime
  obtain ⟨low, middle, hlook, h⟩ := run_bind_eq_ok_iff.mp (result_eq_ok_iff.mp h)
  obtain ⟨hlow, rfl⟩ := run_look_eq_ok_iff.mp hlook
  obtain ⟨taken, htaken, hhead⟩ := Method.of_registerAt hlow
  obtain ⟨high, middle, hlook, h⟩ := run_bind_eq_ok_iff.mp h
  obtain ⟨hhigh, rfl⟩ := run_look_eq_ok_iff.mp hlook
  rw [registerBehind] at hhigh
  split at hhigh
  swap
  · cases hhigh
  cases hhigh
  obtain ⟨items, hitems, hinsert, -⟩ :=
    Method.exists_of_insertLabelled (result_eq_ok_iff.mpr h)
  have hdescriptor : s!"{video}->setVideoLength(J)V" = video ++ "->setVideoLength(J)V" := rfl
  have htext : (lengthText video low (low + 1)).toList =
      (HookPoint.atEntry ⟨0, 0⟩ [low, low + 1]).front ++
        (" " ++ s!"{video}->setVideoLength(J)V").toList := by
    have hwritten : lengthText video low (low + 1) = "invoke-static \x7b" ++ low.text ++ ", " ++
        (low + 1).text ++ "\x7d, " ++ video ++ "->setVideoLength(J)V" := rfl
    have hregisters : Register.listText (HookPoint.atEntry ⟨0, 0⟩ [low, low + 1]).registers =
        low.text ++ ", " ++ (low + 1).text := rfl
    rw [hwritten, HookPoint.front_eq, hregisters, hdescriptor]
    simp
  have hlast : ∀ c ∈ (" " ++ s!"{video}->setVideoLength(J)V").toList.getLast?,
      isBlank c = false := by
    rw [hdescriptor, ← String.append_assoc, String.toList_append,
      List.getLast?_append_of_ne_nil _ (by decide)]
    rintro c ⟨⟩
    decide
  rw [HookPoint.eq_singleton_of_assembleAt htext (HookPoint.parse_blank_append_iff.mpr htarget)
    hlast hitems] at hinsert
  exact ⟨target, taken, low, htarget, htaken, hhead, hinsert⟩

/-! ## Steps -/

/-- A call is put in behind an instruction with one of the opcodes. -/
structure PutBehind (id : MethodId) (index : Nat) (opcodes : List Opcode) (old new : ClassPool) :
    Prop where
  put : old.HasPut [⟨id, index + 1⟩] new
  behind : ∃ method instruction, old.method? id = some method ∧
    method.body[index]? = some instruction ∧ instruction.opcode ∈ opcodes

/-- What stands behind an instruction stays behind it if the call goes in behind one with another
opcode. -/
theorem PutBehind.move_succ {id id' : MethodId} {index index' : Nat} {opcodes : List Opcode}
    {puts : List Put} {first old new : ClassPool} {method : Method} {instruction : Instruction}
    (h : PutBehind id' index' opcodes old new) (before : first.HasPut puts old)
    (hmethod : first.method? id = some method) (hindex : method.body[index]? = some instruction)
    (hopcode : instruction.opcode ∉ opcodes) :
    Put.move ⟨id', index' + 1⟩ id (Put.moveAll puts id index + 1) =
      Put.move ⟨id', index' + 1⟩ id (Put.moveAll puts id index) + 1 := by
  refine Put.move_succ ?_
  rintro rfl
  obtain ⟨method', instruction', hmethod', hindex', hopcode'⟩ := h.behind
  have hne : index' ≠ Put.moveAll puts id' index :=
    before.ne_moveAll hmethod hindex hmethod' hindex' fun heq => hopcode (heq ▸ hopcode')
  exact fun heq => hne (Nat.succ.inj heq)

/-- What is known of the fingerprints and the integrations has not changed. -/
structure Keeps (context last : PatchContext) : Prop where
  resolutions : last.resolutions = context.resolutions
  config : last.config = context.config

theorem Keeps.trans (h : Keeps context middle) (h' : Keeps middle last) : Keeps context last :=
  ⟨h'.resolutions.trans h.resolutions, h'.config.trans h.config⟩

/-- A call at a point that has been registered, with its anchor where it says, is put in there. -/
theorem of_run_call {name descriptor : String} {point : HookPoint}
    (hpool : middle.pool = context.pool)
    (hsets : HookRegistry.Sets name point context.hooks middle.hooks)
    (hanchored : ∀ method, context.pool.method? point.method = some method →
      point.Anchored method.body)
    (h : (Patching.inject name descriptor >>= fun _ => pure ()).run.run middle = (.ok (), last)) :
    ∃ target, MethodRef.parse descriptor = .ok target ∧
      context.pool.HasPut [⟨point.method, point.nextIndex⟩] last.pool ∧
      HookRegistry.Sets name { point with injected := point.injected + 1 } context.hooks
        last.hooks ∧
      Keeps middle last := by
  obtain ⟨index, context', hinject, hstep⟩ := run_bind_eq_ok_iff.mp h
  cases hstep
  have hpoint := hsets name
  rw [if_pos rfl] at hpoint
  have hinjects := middle.hooks.injects_inject middle.pool name descriptor
  rw [Patching.run_inject] at hinject
  generalize middle.hooks.inject middle.pool name descriptor = outcome at hinjects hinject
  cases hinjects with
  | refused e => cases hinject
  | kept e found same => cases hinject
  | added found parsed body locates inserted =>
      cases hpoint.symm.trans found
      rw [hpool] at body
      rw [HookPoint.locate_of_anchored (hanchored _ body)] at locates
      cases locates
      cases hinject
      refine ⟨_, parsed, ?_, hsets.trans (middle.hooks.sets_register _ _), rfl, rfl⟩
      rw [hpool]
      exact ClassPool.hasPut_of_insert body inserted

theorem of_run_hookPlayerController
    (h : hookPlayerController.run.run context = (.ok (), last)) :
    ∃ controller point, playerInitPoint context.pool controller = .ok point ∧
      last.pool = context.pool ∧
      HookRegistry.Sets playerInitHook point context.hooks last.hooks ∧ Keeps context last := by
  obtain ⟨controller, middle, hstep, h⟩ := run_bind_eq_ok_iff.mp h
  obtain ⟨-, rfl⟩ := Patching.run_resolution_eq_ok_iff.mp hstep
  obtain ⟨point, middle, hstep, h⟩ := run_bind_eq_ok_iff.mp h
  obtain ⟨hpoint, rfl⟩ := run_look_eq_ok_iff.mp hstep
  cases h
  exact ⟨_, point, hpoint, rfl, context.hooks.sets_register _ _, rfl, rfl⟩

/-- The call for new players is put in behind a constructor call. -/
theorem of_run_onCreate {owner name : String}
    (h : hookPlayerController.run.run context = (.ok (), middle))
    (h' : (onCreate owner name).run.run middle = (.ok (), last)) :
    ∃ init index call this,
      PutBehind init index [.invokeDirect, .invokeDirectRange] context.pool last.pool ∧
      HookRegistry.Sets playerInitHook ⟨init, .after call index, [this], 1⟩ context.hooks
        last.hooks ∧
      Keeps context last := by
  obtain ⟨controller, point, hpoint, hpool, hsets, hkeeps⟩ := of_run_hookPlayerController h
  obtain ⟨init, method, call, index, this, hmethod, hcall, hopcode, rfl⟩ :=
    of_playerInitPoint hpoint
  obtain ⟨-, -, hput, hsets', hkeeps'⟩ :=
    of_run_call hpool hsets (HookPoint.anchored_after _ hmethod hcall) h'
  refine ⟨init, index, call, this, ⟨hput, method, call, hmethod, hcall, ?_⟩, hsets',
    hkeeps.trans hkeeps'⟩
  simpa using hopcode

theorem of_run_addSeekHelper (h : addSeekHelper.run.run context = (.ok (), last)) :
    context.pool.HasPut [] last.pool ∧ last.hooks = context.hooks ∧ Keeps context last := by
  obtain ⟨videoEnd, middle, hstep, h⟩ := run_bind_eq_ok_iff.mp h
  obtain ⟨-, rfl⟩ := Patching.run_resolution_eq_ok_iff.mp hstep
  obtain ⟨controller, middle, hstep, h⟩ := run_bind_eq_ok_iff.mp h
  obtain ⟨-, rfl⟩ := run_look_eq_ok_iff.mp hstep
  obtain ⟨seek, middle, hstep, h⟩ := run_bind_eq_ok_iff.mp h
  obtain ⟨-, rfl⟩ := run_look_eq_ok_iff.mp hstep
  obtain ⟨helper, middle, hstep, h⟩ := run_bind_eq_ok_iff.mp h
  obtain ⟨-, rfl⟩ := run_look_eq_ok_iff.mp hstep
  obtain ⟨id, middle, hstep, h⟩ := run_bind_eq_ok_iff.mp h
  cases h
  obtain ⟨pool, hadd, rfl⟩ := Patching.run_onPool_eq_ok_iff.mp hstep
  exact ⟨ClassPool.hasPut_of_addMethod (granted_eq_ok_iff.mpr hadd), rfl, rfl, rfl⟩

theorem of_run_hookVideoLength {video : String}
    (h : (hookVideoLength video).run.run context = (.ok (), last)) :
    ∃ length window, context.resolutions.get? Landmark.videoLength.name = some length ∧
      length.window = .ok window ∧
      context.pool.Edited length.method (insertLengthReport video (window.first + 1)).result last.pool ∧
      last.hooks = context.hooks ∧ Keeps context last := by
  obtain ⟨length, middle, hstep, h⟩ := run_bind_eq_ok_iff.mp h
  obtain ⟨hlength, rfl⟩ := Patching.run_resolution_eq_ok_iff.mp hstep
  obtain ⟨window, middle, hstep, h⟩ := run_bind_eq_ok_iff.mp h
  obtain ⟨hwindow, rfl⟩ := run_look_eq_ok_iff.mp hstep
  obtain ⟨pool, hedit, rfl⟩ := Patching.run_edit_eq_ok_iff.mp h
  exact ⟨length, window, hlength, hwindow, hedit, rfl, rfl, rfl⟩

theorem of_run_hookVideoTime (h : hookVideoTime.run.run context = (.ok (), last)) :
    ∃ time registers, last.pool = context.pool ∧
      HookRegistry.Sets videoTimeHook (.atEntry time registers) context.hooks last.hooks ∧
      Keeps context last := by
  obtain ⟨reference, middle, hstep, h⟩ := run_bind_eq_ok_iff.mp h
  obtain ⟨-, rfl⟩ := Patching.run_resolution_eq_ok_iff.mp hstep
  obtain ⟨point, middle, hstep, h⟩ := run_bind_eq_ok_iff.mp h
  obtain ⟨hpoint, rfl⟩ := run_look_eq_ok_iff.mp hstep
  obtain ⟨window, -, hpoint⟩ := bind_eq_ok_iff.mp hpoint
  obtain ⟨walker, -, hpoint⟩ := bind_eq_ok_iff.mp hpoint
  obtain ⟨method, -, hpoint⟩ := bind_eq_ok_iff.mp hpoint
  obtain ⟨registers, rfl⟩ := of_videoTimePoint hpoint
  cases h
  exact ⟨_, registers, rfl, context.hooks.sets_register _ _, rfl, rfl⟩

/-- The call for the time is put in at the beginning of a method. -/
theorem of_run_onVideoTime {owner name : String}
    (h : hookVideoTime.run.run context = (.ok (), middle))
    (h' : (onVideoTime owner name).run.run middle = (.ok (), last)) :
    ∃ time registers target, MethodRef.parse s!"{owner}->{name}(J)V" = .ok target ∧
      context.pool.HasPut [⟨time, 0⟩] last.pool ∧
      HookRegistry.Sets videoTimeHook ⟨time, .entry, registers, 1⟩ context.hooks last.hooks ∧
      Keeps context last := by
  obtain ⟨time, registers, hpool, hsets, hkeeps⟩ := of_run_hookVideoTime h
  obtain ⟨target, htarget, hput, hsets', hkeeps'⟩ :=
    of_run_call hpool hsets (by rintro _ _ _ _ ⟨⟩) h'
  exact ⟨time, registers, target, htarget, hput, hsets', hkeeps.trans hkeeps'⟩

theorem of_run_hookBackgroundPlayback
    (h : hookBackgroundPlayback.run.run context = (.ok (), last)) :
    ∃ background window method anchor register,
      context.resolutions.get? Landmark.backgroundPlaybackVideoId.name = some background ∧
      background.window = .ok window ∧ context.pool.method? background.method = some method ∧
      method.body[window.last]? = some anchor ∧ anchor.registers.head? = some register ∧
      last.pool = context.pool ∧
      HookRegistry.Sets backgroundVideoIdHook
        ⟨background.method, .after anchor window.last, [register], 0⟩ context.hooks last.hooks := by
  obtain ⟨background, middle, hstep, h⟩ := run_bind_eq_ok_iff.mp h
  obtain ⟨hbackground, rfl⟩ := Patching.run_resolution_eq_ok_iff.mp hstep
  obtain ⟨point, middle, hstep, h⟩ := run_bind_eq_ok_iff.mp h
  obtain ⟨hpoint, rfl⟩ := run_look_eq_ok_iff.mp hstep
  obtain ⟨window, hwindow, hpoint⟩ := bind_eq_ok_iff.mp hpoint
  obtain ⟨method, hmethod, hpoint⟩ := bind_eq_ok_iff.mp hpoint
  obtain ⟨register, hregister, hpoint⟩ := bind_eq_ok_iff.mp hpoint
  obtain ⟨anchor, hanchor, rfl⟩ := HookPoint.of_after hpoint
  obtain ⟨anchor', hanchor', hhead⟩ := Method.of_registerAt hregister
  cases hanchor.symm.trans hanchor'
  cases h
  exact ⟨background, window, method, anchor, register, hbackground, hwindow,
    ClassPool.method?_of_method hmethod, hanchor, hhead, rfl, context.hooks.sets_register _ _⟩

theorem of_run_hookVideoId (h : hookVideoId.run.run context = (.ok (), last)) :
    ∃ handler method point, context.pool.method? handler = some method ∧
      videoIdPoint handler method = .ok point ∧ last.pool = context.pool ∧
      HookRegistry.Sets videoIdHook point context.hooks last.hooks := by
  obtain ⟨parent, middle, hstep, h⟩ := run_bind_eq_ok_iff.mp h
  obtain ⟨-, rfl⟩ := Patching.run_resolution_eq_ok_iff.mp hstep
  obtain ⟨point, middle, hstep, h⟩ := run_bind_eq_ok_iff.mp h
  obtain ⟨hpoint, rfl⟩ := run_look_eq_ok_iff.mp hstep
  obtain ⟨window, -, hpoint⟩ := bind_eq_ok_iff.mp hpoint
  obtain ⟨holder, -, hpoint⟩ := bind_eq_ok_iff.mp hpoint
  obtain ⟨stageClass, -, hpoint⟩ := bind_eq_ok_iff.mp hpoint
  obtain ⟨inClass, -, hpoint⟩ := bind_eq_ok_iff.mp hpoint
  split at hpoint
  · cases hpoint
  obtain ⟨method, hmethod, hpoint⟩ := bind_eq_ok_iff.mp hpoint
  cases h
  exact ⟨_, method, point, ClassPool.method?_of_method hmethod, hpoint, rfl,
    context.hooks.sets_register _ _⟩

/-- The call for the id is put in behind taking an object. -/
theorem of_run_onVideoId {descriptor : String}
    (h : hookVideoId.run.run context = (.ok (), middle))
    (h' : (onVideoId descriptor).run.run middle = (.ok (), last)) :
    ∃ handler index taken register,
      PutBehind handler index [.moveResultObject] context.pool last.pool ∧
      HookRegistry.Sets videoIdHook ⟨handler, .after taken index, [register], 1⟩ context.hooks
        last.hooks := by
  obtain ⟨handler, method, point, hmethod, hpoint, hpool, hsets⟩ := of_run_hookVideoId h
  obtain ⟨taken, index, register, htaken, hopcode, rfl⟩ := of_videoIdPoint hpoint
  obtain ⟨-, -, hput, hsets', -⟩ :=
    of_run_call hpool hsets (HookPoint.anchored_after _ hmethod htaken) h'
  refine ⟨handler, index, taken, register, ⟨hput, method, taken, hmethod, htaken, ?_⟩, hsets'⟩
  simpa using hopcode

/-! ## The whole patch -/

/-- Where the calls at the hook points go: behind an instruction, or to the beginning of a method. -/
structure Sites where
  init : MethodId
  superCall : Nat
  time : MethodId
  handler : MethodId
  taken : Nat
deriving DecidableEq, Repr

namespace Sites

/-- What is put in, in order; the length is taken by an instruction of a method. -/
def puts (sites : Sites) (length : MethodId) (taking : Nat) : List Put :=
  [⟨sites.init, sites.superCall + 1⟩, ⟨length, taking + 1⟩, ⟨sites.time, 0⟩,
    ⟨sites.handler, sites.taken + 1⟩]

/-- The hook points are at the sites. -/
structure Recorded (sites : Sites) (hooks : HookRegistry) : Prop where
  init : ∃ call this, hooks.get? playerInitHook =
    some ⟨sites.init, .after call sites.superCall, [this], 1⟩
  time : ∃ registers, hooks.get? videoTimeHook = some ⟨sites.time, .entry, registers, 1⟩
  handler : ∃ result register, hooks.get? videoIdHook =
    some ⟨sites.handler, .after result sites.taken, [register], 1⟩

end Sites

variable {final : PatchContext}

/-- What the patch has done, step by step. -/
structure Course (context final : PatchContext) where
  sites : Sites
  length : Resolution
  background : Resolution
  lengthWindow : Window
  backgroundWindow : Window
  /-- The pools behind the first, the second and the third call. -/
  started : ClassPool
  reported : ClassPool
  timed : ClassPool
  target : MethodRef
  /-- The call is put in behind the instruction that it goes by. -/
  method : Method
  changed : Method
  read : Instruction
  low : Register
  /-- The point for background playback is made in between. -/
  holder : Method
  anchor : Instruction
  register : Register
  findsLength : context.resolutions.get? Landmark.videoLength.name = some length
  hasLengthWindow : length.window = .ok lengthWindow
  findsBackground :
    context.resolutions.get? Landmark.backgroundPlaybackVideoId.name = some background
  hasBackgroundWindow : background.window = .ok backgroundWindow
  starts : PutBehind sites.init sites.superCall [.invokeDirect, .invokeDirectRange] context.pool
    started
  parses : MethodRef.parse s!"{context.config.videoClass}->setVideoLength(J)V" = .ok target
  body : started.method? length.method = some method
  reads : method.body[lengthWindow.first + 1]? = some read
  head : read.registers.head? = some low
  inserts : method.insert (lengthWindow.first + 2) [lengthReport target low] = .ok changed
  reports : reported = started.setMethod length.method changed
  times : reported.HasPut [⟨sites.time, 0⟩] timed
  holds : timed.method? background.method = some holder
  anchors : holder.body[backgroundWindow.last]? = some anchor
  anchorHead : anchor.registers.head? = some register
  handles : PutBehind sites.handler sites.taken [.moveResultObject] timed final.pool
  recorded : sites.Recorded final.hooks
  registers : final.hooks.get? backgroundVideoIdHook =
    some ⟨background.method, .after anchor backgroundWindow.last, [register], 0⟩

theorem exists_course (h : execute.run.run context = (.ok (), final)) :
    Nonempty (Course context final) := by
  obtain ⟨here, context', hget, h⟩ := run_bind_eq_ok_iff.mp h
  cases hget
  obtain ⟨⟨⟩, context', hhook, h⟩ := run_bind_eq_ok_iff.mp h
  obtain ⟨⟨⟩, created, hcall, h⟩ := run_bind_eq_ok_iff.mp h
  obtain ⟨init, superCall, call, this, hcreates, hcreated, hkeeps⟩ := of_run_onCreate hhook hcall
  obtain ⟨⟨⟩, started, hstep, h⟩ := run_bind_eq_ok_iff.mp h
  obtain ⟨hadded, hhooks, hkeeps'⟩ := of_run_addSeekHelper hstep
  replace hkeeps := hkeeps.trans hkeeps'
  obtain ⟨⟨⟩, reported, hstep, h⟩ := run_bind_eq_ok_iff.mp h
  obtain ⟨length, lengthWindow, hlength, hlengthWindow, hreports, hhooks', hkeeps'⟩ :=
    of_run_hookVideoLength hstep
  rw [hkeeps.resolutions] at hlength
  replace hkeeps := hkeeps.trans hkeeps'
  obtain ⟨⟨⟩, context', hhook, h⟩ := run_bind_eq_ok_iff.mp h
  obtain ⟨⟨⟩, timed, hcall, h⟩ := run_bind_eq_ok_iff.mp h
  obtain ⟨time, registers, timeTarget, hparses, htimes, hclocked, hkeeps'⟩ :=
    of_run_onVideoTime hhook hcall
  replace hkeeps := hkeeps.trans hkeeps'
  have hparsed : MethodRef.parse s!"{context.config.videoClass}->setVideoTime(J)V" =
      .ok timeTarget := by
    have hinterpolated (name : String) : s!"{context.config.videoClass}->{name}(J)V" =
        context.config.videoClass ++ "->" ++ name ++ "(J)V" := rfl
    rw [hinterpolated, String.append_assoc, String.append_assoc] at hparses
    exact hparses
  obtain ⟨method, changed, hmethod, hchanged, hreported⟩ := hreports
  obtain ⟨target, read, low, htarget, hread, hlow, hinsert⟩ :=
    exists_of_insertLengthReport hparsed hchanged
  obtain ⟨⟨⟩, held, hstep, h⟩ := run_bind_eq_ok_iff.mp h
  obtain ⟨background, backgroundWindow, holder, anchor, register, hbackground, hbackgroundWindow,
    hholder, hanchor, hregister, hpool, hheld⟩ := of_run_hookBackgroundPlayback hstep
  rw [hkeeps.resolutions] at hbackground
  obtain ⟨⟨⟩, context', hhook, hcall⟩ := run_bind_eq_ok_iff.mp h
  obtain ⟨handler, index, taken, register', hhandles, hhandled⟩ := of_run_onVideoId hhook hcall
  rw [hpool] at hhandles
  have hrecorded : Sites.Recorded ⟨init, superCall, time, handler, index⟩ final.hooks := by
    refine ⟨⟨call, this, ?_⟩, ⟨registers, ?_⟩, ⟨taken, register', ?_⟩⟩
    · rw [hhandled, if_neg (by decide), hheld, if_neg (by decide), hclocked, if_neg (by decide),
        hhooks', hhooks, hcreated, if_pos rfl]
    · rw [hhandled, if_neg (by decide), hheld, if_neg (by decide), hclocked, if_pos rfl]
    · rw [hhandled, if_pos rfl]
  exact ⟨{
    sites := ⟨init, superCall, time, handler, index⟩
    started := started.pool
    reported := reported.pool
    timed := timed.pool
    length, background, lengthWindow, backgroundWindow, target, method, changed, read, low, holder,
    anchor, register
    findsLength := hlength
    hasLengthWindow := hlengthWindow
    findsBackground := hbackground
    hasBackgroundWindow := hbackgroundWindow
    starts := ⟨hcreates.put.trans hadded, hcreates.behind⟩
    parses := htarget
    body := hmethod
    reads := hread
    head := hlow
    inserts := hinsert
    reports := hreported
    times := htimes
    holds := hholder
    anchors := hanchor
    anchorHead := hregister
    handles := hhandles
    recorded := hrecorded
    registers := by rw [hhandled, if_neg (by decide), hheld, if_pos rfl] }⟩

/-- The length is reported right behind a place, from the first register of the instruction. -/
def Reported (target : MethodRef) (instruction : Instruction) (place : Nat) (new : Method) : Prop :=
  ∃ low, instruction.registers.head? = some low ∧
    new.body[place + 1]? = some (lengthReport target low)

namespace Course

variable (course : Course context final)

/-- The calls in the order in which they are put in. -/
def puts : List Put :=
  course.sites.puts course.length.method (course.lengthWindow.first + 1)

theorem puts_started :
    context.pool.HasPut [⟨course.sites.init, course.sites.superCall + 1⟩] course.started :=
  course.starts.put

theorem puts_reported : PutBehind course.length.method (course.lengthWindow.first + 1)
    [course.read.opcode] course.started course.reported where
  put := by
    rw [course.reports]
    exact ClassPool.hasPut_of_insert course.body course.inserts
  behind := ⟨course.method, course.read, course.body, course.reads, List.mem_singleton_self _⟩

theorem puts_timed : context.pool.HasPut (course.puts.take 3) course.timed :=
  (course.puts_started.trans course.puts_reported.put).trans course.times

theorem puts_final : context.pool.HasPut course.puts final.pool :=
  course.puts_timed.trans course.handles.put

variable {id : MethodId} {old method new : Method} {index : Nat} {instruction : Instruction}

/-- What stands at an index is moved by the first two calls, and then by the others. -/
theorem moveAll_puts (id : MethodId) (index : Nat) :
    Put.moveAll course.puts id index =
      Put.moveAll (course.puts.drop 2) id
        (Put.move ⟨course.length.method, course.lengthWindow.first + 2⟩ id
          (Put.move ⟨course.sites.init, course.sites.superCall + 1⟩ id index)) :=
  rfl

/-- The last two calls do not separate what stands behind an instruction from it unless this takes an
object. -/
theorem moveAll_drop_succ (hmethod : course.reported.method? id = some method)
    (hindex : method.body[index]? = some instruction)
    (hopcode : instruction.opcode ≠ .moveResultObject) :
    Put.moveAll (course.puts.drop 2) id (index + 1) =
      Put.moveAll (course.puts.drop 2) id index + 1 := by
  have htime : Put.move ⟨course.sites.time, 0⟩ id (index + 1) =
      Put.move ⟨course.sites.time, 0⟩ id index + 1 :=
    Put.move_succ fun _ => nofun
  calc Put.moveAll (course.puts.drop 2) id (index + 1)
    _ = Put.move ⟨course.sites.handler, course.sites.taken + 1⟩ id
          (Put.move ⟨course.sites.time, 0⟩ id (index + 1)) := rfl
    _ = Put.move ⟨course.sites.handler, course.sites.taken + 1⟩ id
          (Put.move ⟨course.sites.time, 0⟩ id index) + 1 := by
        rw [htime]
        exact course.handles.move_succ course.times hmethod hindex (by simpa using hopcode)

/-- The calls do not separate what stands behind an instruction from it unless one of them is put in
behind an instruction with its opcode. -/
theorem moveAll_puts_succ (hold : context.pool.method? id = some old)
    (hindex : old.body[index]? = some instruction)
    (hstart : instruction.opcode ∉ [Opcode.invokeDirect, Opcode.invokeDirectRange])
    (hread : instruction.opcode ≠ course.read.opcode)
    (htaken : instruction.opcode ≠ .moveResultObject) :
    Put.moveAll course.puts id (index + 1) = Put.moveAll course.puts id index + 1 := by
  have hfirst := course.starts.move_succ (.refl _) hold hindex hstart
  have hsecond := course.puts_reported.move_succ course.puts_started hold hindex (by
    simpa using hread)
  obtain ⟨method, hmethod, moved⟩ := course.puts_started.trans course.puts_reported.put id old hold
  have hkept := moved.kept index
  rw [hindex, Option.map_some] at hkept
  rw [Put.moveAll_nil] at hfirst
  rw [course.moveAll_puts, hfirst, course.moveAll_puts]
  exact (congrArg _ hsecond).trans (course.moveAll_drop_succ hmethod hkept htaken)

/-- The window for the length leads to what has moved to where the window says. -/
theorem of_move_init (hold : context.pool.method? course.length.method = some old)
    (hindex : old.body[index]? = some instruction)
    (hmove : Put.move ⟨course.sites.init, course.sites.superCall + 1⟩ course.length.method index =
      course.lengthWindow.first + 1) :
    instruction.opcode = course.read.opcode ∧
      instruction.registers.head? = some course.low := by
  obtain ⟨method, hmethod, moved⟩ := course.puts_started _ old hold
  cases hmethod.symm.trans course.body
  have hkept := moved.kept index
  rw [Put.moveAll_cons, hmove, hindex] at hkept
  have hread := course.reads.symm.trans hkept
  rw [Option.map_some, Option.some.injEq] at hread
  have hhead := course.head
  rw [hread] at hhead ⊢
  exact ⟨rfl, hhead⟩

theorem reported_changed : course.reported.method? course.length.method = some course.changed := by
  rw [course.reports]
  exact ClassPool.method?_setMethod course.body course.changed

/-- What the window leads to stays behind what is in front of it when the length is reported. -/
theorem moveAll_of_move_init
    (hmove : Put.move ⟨course.sites.init, course.sites.superCall + 1⟩ course.length.method index =
      course.lengthWindow.first + 1) :
    Put.moveAll course.puts course.length.method index =
      Put.moveAll (course.puts.drop 2) course.length.method (course.lengthWindow.first + 1) := by
  rw [course.moveAll_puts, hmove, Put.move_eq_self fun _ => Nat.lt_succ_self _]

/-- The last two calls do not go between the report and the instruction in front of it. -/
theorem moveAll_drop_report (hopcode : course.read.opcode ≠ .moveResultObject) :
    Put.moveAll (course.puts.drop 2) course.length.method (course.lengthWindow.first + 2) =
      Put.moveAll (course.puts.drop 2) course.length.method (course.lengthWindow.first + 1) + 1 := by
  have hkept := Splice.getElem?_afterInsert_of_insert course.inserts (course.lengthWindow.first + 1)
  rw [Target.afterInsert, if_neg (by omega), course.reads, Option.map_some] at hkept
  exact course.moveAll_drop_succ course.reported_changed hkept hopcode

/-- The length is reported right behind the instruction that the window leads to. -/
theorem getElem?_report
    (hmove : Put.move ⟨course.sites.init, course.sites.superCall + 1⟩ course.length.method index =
      course.lengthWindow.first + 1)
    (hopcode : course.read.opcode ≠ .moveResultObject)
    (hnew : final.pool.method? course.length.method = some new) :
    new.body[Put.moveAll course.puts course.length.method index + 1]? =
      some (lengthReport course.target course.low) := by
  obtain ⟨new', hnew', moved⟩ :=
    course.times.trans course.handles.put _ _ course.reported_changed
  cases hnew.symm.trans hnew'
  have hreport := moved.kept (course.lengthWindow.first + 2)
  rw [Splice.getElem?_of_insert course.inserts] at hreport
  rw [course.moveAll_of_move_init hmove, ← course.moveAll_drop_report hopcode]
  exact hreport

/-- Where the window for the length begins once the first call has been put in. -/
theorem move_init_first :
    Put.move ⟨course.sites.init, course.sites.superCall + 1⟩ course.length.method
        course.lengthWindow.first =
      if course.sites.init = course.length.method ∧
          course.sites.superCall < course.lengthWindow.first then
        course.lengthWindow.first + 1
      else course.lengthWindow.first := by
  split
  case isTrue hahead => exact Put.move_eq_succ hahead.1 hahead.2
  case isFalse hahead =>
    exact Put.move_eq_self fun hinit => Nat.lt_succ_of_le (Nat.not_lt.mp (not_and.mp hahead hinit))

/-- The instructions that were found for the length; the first call does not separate them. -/
theorem window_length
    (hcurrent : Landmark.videoLength.resolveAt? context.pool course.length.method =
      some course.length) :
    ∃ old call taken, context.pool.method? course.length.method = some old ∧
      old.body[course.lengthWindow.first]? = some call ∧ call.opcode = .invokeVirtual ∧
      old.body[course.lengthWindow.first + 1]? = some taken ∧ taken.opcode = .moveResultWide ∧
      Put.move ⟨course.sites.init, course.sites.superCall + 1⟩ course.length.method
          (course.lengthWindow.first + 1) =
        Put.move ⟨course.sites.init, course.sites.superCall + 1⟩ course.length.method
          course.lengthWindow.first + 1 := by
  obtain ⟨old, hold, -, hopcodes⟩ :=
    Fingerprint.of_resolveAt? rfl hcurrent course.hasLengthWindow
  obtain ⟨call, hcall, hinvoke⟩ := hopcodes 0 .invokeVirtual rfl
  obtain ⟨taken, htaken, htakes⟩ := hopcodes 1 .moveResultWide rfl
  have hsucc := course.starts.move_succ (.refl _) hold hcall (by rw [hinvoke]; decide)
  exact ⟨old, call, taken, hold, hcall, hinvoke, htaken, htakes, hsucc⟩

theorem opcode_read
    (hcurrent : Landmark.videoLength.resolveAt? context.pool course.length.method =
      some course.length) :
    course.read.opcode = .invokeVirtual ∨ course.read.opcode = .moveResultWide := by
  obtain ⟨old, call, taken, hold, hcall, hinvoke, htaken, htakes, hsucc⟩ :=
    course.window_length hcurrent
  have hfirst := course.move_init_first
  split at hfirst
  · rw [← (course.of_move_init hold hcall hfirst).1]
    exact .inl hinvoke
  · rw [hfirst] at hsucc
    rw [← (course.of_move_init hold htaken hsucc).1]
    exact .inr htakes

/-- The length is reported right behind the instruction that takes it, unless the first call goes in
in front of the window: then it is reported in between this instruction and the call in front of it. -/
theorem reports_length
    (hcurrent : Landmark.videoLength.resolveAt? context.pool course.length.method =
      some course.length) :
    ∃ old new call taken,
      context.pool.method? course.length.method = some old ∧
      final.pool.method? course.length.method = some new ∧
      old.body[course.lengthWindow.first]? = some call ∧ call.opcode = .invokeVirtual ∧
      old.body[course.lengthWindow.first + 1]? = some taken ∧ taken.opcode = .moveResultWide ∧
      let place := Put.moveAll course.puts course.length.method
      if course.sites.init = course.length.method ∧
          course.sites.superCall < course.lengthWindow.first then
        place (course.lengthWindow.first + 1) = place course.lengthWindow.first + 2 ∧
          Reported course.target call (place course.lengthWindow.first) new
      else
        place (course.lengthWindow.first + 1) = place course.lengthWindow.first + 1 ∧
          Reported course.target taken (place (course.lengthWindow.first + 1)) new := by
  obtain ⟨old, call, taken, hold, hcall, hinvoke, htaken, htakes, hsucc⟩ :=
    course.window_length hcurrent
  obtain ⟨new, hnew, -⟩ := course.puts_final _ old hold
  have hopcode : course.read.opcode ≠ .moveResultObject := by
    rcases course.opcode_read hcurrent with hread | hread <;> rw [hread] <;> decide
  have hfirst := course.move_init_first
  refine ⟨old, new, call, taken, hold, hnew, hcall, hinvoke, htaken, htakes, ?_⟩
  dsimp only
  split
  case isTrue hahead =>
    rw [if_pos hahead] at hfirst
    rw [hfirst] at hsucc
    refine ⟨?_, course.low, (course.of_move_init hold hcall hfirst).2,
      course.getElem?_report hfirst hopcode hnew⟩
    -- the report stands in between
    have hbehind : Put.moveAll (course.puts.drop 2) course.length.method
        (course.lengthWindow.first + 3) = Put.moveAll (course.puts.drop 2) course.length.method
          (course.lengthWindow.first + 2) + 1 :=
      course.moveAll_drop_succ course.reported_changed (Splice.getElem?_of_insert course.inserts)
        nofun
    rw [course.moveAll_puts, hsucc, Put.move_eq_succ rfl le_rfl, hbehind,
      course.moveAll_drop_report hopcode, course.moveAll_of_move_init hfirst]
  case isFalse hahead =>
    rw [if_neg hahead] at hfirst
    rw [hfirst] at hsucc
    obtain ⟨hread, hlow⟩ := course.of_move_init hold htaken hsucc
    refine ⟨?_, course.low, hlow, course.getElem?_report hsucc hopcode hnew⟩
    refine course.moveAll_puts_succ hold hcall ?_ ?_ ?_
    · rw [hinvoke]; decide
    · rw [← hread, hinvoke, htakes]; decide
    · rw [hinvoke]; decide

/-- The point for background playback is behind the instruction that takes the id exactly if none of
the calls in front goes in in front of this instruction. -/
theorem anchors_background
    (hlength : Landmark.videoLength.resolveAt? context.pool course.length.method =
      some course.length)
    (hcurrent : Landmark.backgroundPlaybackVideoId.resolveAt? context.pool
      course.background.method = some course.background) :
    ∃ old taken,
      context.pool.method? course.background.method = some old ∧
      old.body[course.backgroundWindow.last]? = some taken ∧ taken.opcode = .moveResultObject ∧
      Put.moveAll course.puts course.background.method course.backgroundWindow.last =
        Put.moveAll course.puts course.background.method
          (course.backgroundWindow.last - 1) + 1 ∧
      let place := Put.moveAll (course.puts.take 3) course.background.method
      (place course.backgroundWindow.last = course.backgroundWindow.last ↔
        (course.sites.init = course.background.method →
          course.backgroundWindow.last ≤ course.sites.superCall) ∧
        (course.length.method = course.background.method →
          course.backgroundWindow.last ≤ course.lengthWindow.first + 1) ∧
        course.sites.time ≠ course.background.method) ∧
      (place course.backgroundWindow.last = course.backgroundWindow.last →
        course.anchor = taken.retarget place ∧
          taken.registers.head? = some course.register) := by
  obtain ⟨old, hold, hlast, hopcodes⟩ :=
    Fingerprint.of_resolveAt? rfl hcurrent course.hasBackgroundWindow
  have hthird : course.backgroundWindow.last = course.backgroundWindow.first + 2 := by
    simp only [List.length_cons, List.length_nil] at hlast
    omega
  obtain ⟨call, hcall, hinvoke⟩ := hopcodes 1 .invokeInterface rfl
  obtain ⟨taken, htaken, htakes⟩ := hopcodes 2 .moveResultObject rfl
  rw [← hthird] at htaken
  refine ⟨old, taken, hold, htaken, htakes, ?_, ?_, fun hplace => ?_⟩
  · rw [hthird]
    refine course.moveAll_puts_succ hold hcall ?_ ?_ ?_
    · rw [hinvoke]; decide
    · rw [hinvoke]
      rcases course.opcode_read hlength with hread | hread <;> rw [hread] <;> decide
    · rw [hinvoke]; decide
  · rw [Put.moveAll_eq_self_iff]
    have hputs : course.puts.take 3 = [⟨course.sites.init, course.sites.superCall + 1⟩,
        ⟨course.length.method, course.lengthWindow.first + 2⟩, ⟨course.sites.time, 0⟩] := rfl
    simp [hputs, Nat.lt_succ_iff]
  · obtain ⟨holder, hholder, moved⟩ := course.puts_timed _ old hold
    cases hholder.symm.trans course.holds
    have hkept := moved.kept course.backgroundWindow.last
    rw [hplace, htaken, Option.map_some] at hkept
    have hanchor := Option.some.inj (course.anchors.symm.trans hkept)
    have hhead := course.anchorHead
    rw [hanchor] at hhead
    exact ⟨hanchor, hhead⟩

end Course

/-- The patch puts in four calls: behind a constructor call, behind the instruction that the window for
the length leads to, at the beginning of a method, and behind taking an object.  If both windows are up
to date, then the length is reported right behind the instruction that takes it and from its register,
unless the first call goes in in front of the window: then it is reported in front of this instruction,
and from the first register of the call in front of it.  The point for background playback is behind
the instruction that takes the id, and has its register, exactly if none of the first three calls goes
in in front of this instruction; nothing is put in in between it and the call in front of it. -/
theorem calls_of_execute
    (hcurrent : ∀ fingerprint ∈ [Landmark.videoLength, Landmark.backgroundPlaybackVideoId],
      ∀ resolution, context.resolutions.get? fingerprint.name = some resolution →
        fingerprint.resolveAt? context.pool resolution.method = some resolution)
    (h : execute.run.run context = (.ok (), final)) :
    ∃ sites length background window window',
      context.resolutions.get? Landmark.videoLength.name = some length ∧
      length.window = .ok window ∧
      context.resolutions.get? Landmark.backgroundPlaybackVideoId.name = some background ∧
      background.window = .ok window' ∧
      Sites.Recorded sites final.hooks ∧
      let puts := sites.puts length.method (window.first + 1)
      context.pool.HasPut puts final.pool ∧
      (∃ old new call taken target,
        context.pool.method? length.method = some old ∧
        final.pool.method? length.method = some new ∧
        old.body[window.first]? = some call ∧ call.opcode = .invokeVirtual ∧
        old.body[window.first + 1]? = some taken ∧ taken.opcode = .moveResultWide ∧
        MethodRef.parse s!"{context.config.videoClass}->setVideoLength(J)V" = .ok target ∧
        let place := Put.moveAll puts length.method
        if sites.init = length.method ∧ sites.superCall < window.first then
          place (window.first + 1) = place window.first + 2 ∧
            Reported target call (place window.first) new
        else
          place (window.first + 1) = place window.first + 1 ∧
            Reported target taken (place (window.first + 1)) new) ∧
      ∃ old taken anchor register,
        context.pool.method? background.method = some old ∧
        old.body[window'.last]? = some taken ∧ taken.opcode = .moveResultObject ∧
        final.hooks.get? backgroundVideoIdHook =
          some ⟨background.method, .after anchor window'.last, [register], 0⟩ ∧
        Put.moveAll puts background.method window'.last =
          Put.moveAll puts background.method (window'.last - 1) + 1 ∧
        let place := Put.moveAll (puts.take 3) background.method
        (place window'.last = window'.last ↔
          (sites.init = background.method → window'.last ≤ sites.superCall) ∧
          (length.method = background.method → window'.last ≤ window.first + 1) ∧
          sites.time ≠ background.method) ∧
        (place window'.last = window'.last →
          anchor = taken.retarget place ∧ taken.registers.head? = some register) := by
  obtain ⟨course⟩ := exists_course h
  have hlength := hcurrent _ (List.mem_cons_self ..) _ course.findsLength
  have hbackground := hcurrent _ (List.mem_cons_of_mem _ (List.mem_singleton_self _)) _
    course.findsBackground
  obtain ⟨old, new, call, taken, hold, hnew, hcall, hinvoke, htaken, htakes, hreported⟩ :=
    course.reports_length hlength
  obtain ⟨old', taken', hold', htaken', htakes', htogether, hplace⟩ :=
    course.anchors_background hlength hbackground
  exact ⟨course.sites, course.length, course.background, course.lengthWindow,
    course.backgroundWindow, course.findsLength, course.hasLengthWindow, course.findsBackground,
    course.hasBackgroundWindow, course.recorded, course.puts_final,
    ⟨old, new, call, taken, course.target, hold, hnew, hcall, hinvoke, htaken, htakes,
      course.parses, hreported⟩,
    old', taken', course.anchor, course.register, hold', htaken', htakes', course.registers,
    htogether, hplace⟩

/-- A constructor of the player that reads the length behind its call of the constructor above, and
methods of the player for all the other places. -/
def overlapping : PatchContext where
  pool := ⟨[{ ClassDef.ofDescriptor "La;" with
    methods :=
      [⟨"La;", "<init>", [], "V", AccessFlags.publicFlag.union .constructorFlag, 4,
        [⟨.invokeDirect, [3], none, some (.method ⟨"Lb;", "<init>", [], "V"⟩), none, none⟩,
          ⟨.invokeVirtual, [3], none, some (.method ⟨"La;", "length", [], "J"⟩), none, none⟩,
          { opcode := .moveResultWide, registers := [1] },
          ⟨.iputWide, [1, 3], none, some (.field ⟨"La;", "length", "J"⟩), none, none⟩,
          { opcode := .returnVoid }]⟩,
      ⟨"La;", "seek", ["J", "La;"], "Z", .publicFlag, 5, []⟩,
      ⟨"La;", "tick", [], "V", .publicFlag, 3,
        [⟨.invokeDirectRange, [0, 2], none, some (.method ⟨"La;", "setTime", ["J"], "V"⟩), none,
          none⟩]⟩,
      ⟨"La;", "setTime", ["J"], "V", .publicFlag, 3, []⟩,
      ⟨"La;", "publish", [], "V", AccessFlags.publicFlag.union .finalFlag, 3,
        [⟨.igetObject, [0, 2], none, some (.field ⟨"La;", "next", "La;"⟩), none, none⟩,
          ⟨.invokeInterface, [0], none, some (.method ⟨"La;", "id", [], "La;"⟩), none, none⟩,
          { opcode := .moveResultObject, registers := [1] }]⟩,
      ⟨"La;", "respond", [], "V", .publicFlag, 2,
        [⟨.igetObject, [0, 1], none, some (.field ⟨"La;", "stage", "La;"⟩), none, none⟩]⟩,
      ⟨"La;", "handleVideoStageEvent", [], "V", .publicFlag, 2,
        [⟨.invokeInterface, [1], none, some (.method ⟨"La;", "id", [], "Ljava/lang/String;"⟩), none,
            none⟩,
          { opcode := .moveResultObject, registers := [0] }]⟩] }]⟩
  resources := .ofTable ⟨[]⟩
  config := { videoClass := "Lv;" }
  resolutions := ⟨⟨[(Landmark.backgroundPlaybackVideoId.name,
      ⟨Landmark.backgroundPlaybackVideoId.name, ⟨0, 4⟩, { window := some ⟨0, 2⟩ }⟩),
    (Landmark.playerControllerSetTimeReference.name,
      ⟨Landmark.playerControllerSetTimeReference.name, ⟨0, 2⟩, { window := some ⟨0, 0⟩ }⟩),
    (Landmark.videoEnd.name, ⟨Landmark.videoEnd.name, ⟨0, 1⟩, {}⟩),
    (Landmark.videoIdParent.name,
      ⟨Landmark.videoIdParent.name, ⟨0, 5⟩, { window := some ⟨0, 0⟩ }⟩),
    (Landmark.videoLength.name,
      ⟨Landmark.videoLength.name, ⟨0, 0⟩, { window := some ⟨1, 3⟩ }⟩)]⟩⟩

/-- Both windows are up to date, and the instructions that were found for the id stay together. -/
theorem calls_of_execute_overlapping :
    let final := (execute.run.run overlapping).2
    (∀ fingerprint ∈ [Landmark.videoLength, Landmark.backgroundPlaybackVideoId],
      ∀ resolution, overlapping.resolutions.get? fingerprint.name = some resolution →
        fingerprint.resolveAt? overlapping.pool resolution.method = some resolution) ∧
    execute.run.run overlapping = (.ok (), final) ∧
    ∃ sites, Sites.Recorded sites final.hooks ∧
      let puts := sites.puts ⟨0, 0⟩ 2
      overlapping.pool.HasPut puts final.pool ∧
      Put.moveAll puts ⟨0, 4⟩ 2 = Put.moveAll puts ⟨0, 4⟩ 1 + 1 := by
  intro final
  have hcurrent : ∀ fingerprint ∈ [Landmark.videoLength, Landmark.backgroundPlaybackVideoId],
      ∀ resolution, overlapping.resolutions.get? fingerprint.name = some resolution →
        fingerprint.resolveAt? overlapping.pool resolution.method = some resolution := by
    simp only [List.forall_mem_cons]
    refine ⟨?_, ?_, List.forall_mem_nil _⟩
    · rintro _ ⟨⟩
      decide +kernel
    · rintro _ ⟨⟩
      decide +kernel
  have hok : (execute.run.run overlapping).1 = .ok () := by
    decide +kernel
  have hrun : execute.run.run overlapping = (.ok (), final) := by
    rw [← hok]
    exact Prod.mk.eta.symm
  obtain ⟨sites, length, background, window, window', hlength, hwindow, hbackground, hwindow',
    hrecorded, hput, -, old, taken, anchor, register, -, -, -, -, htogether, -⟩ :=
    calls_of_execute hcurrent hrun
  cases hlength
  cases hwindow
  cases hbackground
  cases hwindow'
  exact ⟨hcurrent, hrun, sites, hrecorded, hput, htogether⟩

/-- The length is reported in between the call and the instruction that takes it, and from the register
of the player. -/
theorem reports_in_between_overlapping :
    let final := (execute.run.run overlapping).2
    (execute.run.run overlapping).1 = .ok () ∧
      Landmark.videoLength.resolveAt? overlapping.pool ⟨0, 0⟩ =
        overlapping.resolutions.get? Landmark.videoLength.name ∧
      ∃ method ∈ final.pool.method? ⟨0, 0⟩,
        method.body[2]?.map (·.opcode) = some .invokeVirtual ∧
        method.body[3]? = some (lengthReport ⟨"Lv;", "setVideoLength", ["J"], "V"⟩ 3) ∧
        method.body[4]? = some { opcode := .moveResultWide, registers := [1] } ∧
        method.body[5]?.map (·.opcode) = some .iputWide := by
  decide +kernel

end Patch.Standard.VideoInformation

end DexGraft
