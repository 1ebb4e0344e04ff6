import DexGraft.Patch.Standard.All
import DexGraft.Proofs.Code.Widening
import DexGraft.Proofs.Patch.Inject
import DexGraft.Proofs.Patch.Running

/-!
# The standard patches only put in

All that the standard patches do to a pool is to put instructions into its methods and to give one class
a method that it did not have.  This holds whatever is selected, and also of what is left behind by a
run that fails.
-/

namespace DexGraft

open Editing Outcome

namespace Method

theorem widened_insertTextM (index : Nat) (text : String) (method : Method) :
    method.Widened ((insertTextM index text).run.run method).2 := by
  rw [(insertTextM_comesTo index text method).made]
  cases hinsert : (insertTextM index text).result method with
  | error e => exact .refl method
  | ok changed => exact widened_of_insertText hinsert

/-- Looking something up first leaves the method to what follows. -/
theorem widened_look_bind {α : Type} {part : Method → Except Error α} {next : α → Editing Method Unit}
    {method : Method} (h : ∀ a, method.Widened ((next a).run.run method).2) :
    method.Widened ((look part >>= next).run.run method).2 := by
  rw [run_bind, run_look]
  cases part method with
  | error e => exact .refl method
  | ok a => exact h a

end Method

namespace Patching

variable {α β : Type} {signature : MethodRef}

/-- Whatever it starts from and however it ends, the computation widens the pool. -/
def Widens (signature : MethodRef) (x : Patching α) : Prop :=
  ∀ context : PatchContext, context.pool.Widened signature (x.run.run context).2.pool

/-! ## Steps -/

theorem widens_of_pool_eq {x : Patching α}
    (h : ∀ context, (x.run.run context).2.pool = context.pool) : Widens signature x := by
  intro context
  rw [h]
  exact .refl signature _

theorem widens_pure (a : α) : Widens signature (pure a) := widens_of_pool_eq fun _ => rfl

theorem widens_throw (e : Error) : Widens signature (throw e : Patching α) :=
  widens_of_pool_eq fun _ => rfl

theorem widens_get : Widens signature (get : Patching PatchContext) := widens_of_pool_eq fun _ => rfl

theorem widens_modify {change : PatchContext → PatchContext}
    (h : ∀ context, (change context).pool = context.pool) :
    Widens signature (modify change : Patching PUnit) :=
  widens_of_pool_eq h

theorem widens_look (f : PatchContext → Except Error α) : Widens signature (look f) :=
  widens_of_pool_eq fun context => by rw [run_look]

theorem Widens.bind {x : Patching α} {f : α → Patching β} (hx : Widens signature x)
    (hf : ∀ a, Widens signature (f a)) : Widens signature (x >>= f) := by
  intro context
  have hfirst := hx context
  rw [run_bind]
  rcases hrun : x.run.run context with ⟨e | a, middle⟩
  · rw [hrun] at hfirst
    exact hfirst
  · rw [hrun] at hfirst
    exact hfirst.trans (hf a middle)

/-- What follows has to widen the pool only for what can be looked up. -/
theorem widens_look_bind {f : PatchContext → Except Error α} {g : α → Patching β}
    (h : ∀ context a, f context = .ok a → Widens signature (g a)) :
    Widens signature (look f >>= g) := by
  intro context
  rw [run_bind, run_look]
  cases hf : f context with
  | error e => exact .refl signature _
  | ok a => exact h context a hf context

theorem Widens.tryCatch {x : Patching α} {f : Error → Patching α} (hx : Widens signature x)
    (hf : ∀ e, Widens signature (f e)) : Widens signature (tryCatch x f) := by
  intro context
  have hfirst := hx context
  rw [run_tryCatch]
  rcases hrun : x.run.run context with ⟨e | a, middle⟩
  · rw [hrun] at hfirst
    exact hfirst.trans (hf e middle)
  · rw [hrun] at hfirst
    exact hfirst

theorem widens_forM {f : α → Patching PUnit} (h : ∀ a, Widens signature (f a)) (l : List α) :
    Widens signature (l.forM f) := by
  induction l with
  | nil => exact widens_pure _
  | cons a l ih => exact (h a).bind fun _ => ih

theorem widens_edit {id : MethodId} {change : Editing Method Unit}
    (h : ∀ method : Method, method.Widened (change.run.run method).2) :
    Widens signature (edit id change) := by
  intro context
  rw [edit, run_onPool]
  cases hmethod : context.pool.method id with
  | error e =>
      rw [ClassPool.run_editMethod_of_error hmethod]
      exact .refl signature _
  | ok method =>
      rw [ClassPool.run_editMethod hmethod]
      exact ClassPool.widened_setMethod signature (ClassPool.method?_of_method hmethod) (h method)

theorem widens_inject (hook descriptor : String) : Widens signature (inject hook descriptor) := by
  intro context
  have hinjects := context.hooks.injects_inject context.pool hook descriptor
  rw [run_inject]
  generalize context.hooks.inject context.pool hook descriptor = outcome at hinjects ⊢
  cases hinjects with
  | refused e => exact .refl signature _
  | kept e found same => exact .refl signature _
  | added found parsed body locates inserted =>
      exact ClassPool.widened_setMethod signature body (Method.widened_of_insert inserted)

/-- A method may be added if it has the signature. -/
theorem widens_addMethod {method : Method} (inClass : Nat)
    (hsame : { method.ref with owner := signature.owner } = signature) :
    Widens signature (addMethod inClass method) := by
  intro context
  have hadds := (atomic_of_comesTo (ClassPool.addMethodM_comesTo inClass method)).comesTo context.pool
  rw [addMethod, run_onPool, hadds]
  cases hadded : (ClassPool.addMethodM inClass method).granted context.pool with
  | error e => exact .refl signature _
  | ok added => exact ClassPool.widened_addMethod hsame hadded

theorem widens_registerHook (name : String) (point : HookPoint) :
    Widens signature (registerHook name point) :=
  widens_modify fun _ => rfl

theorem widens_resolution (name : String) : Widens signature (resolution name) := widens_look _

end Patching

/-! ## Runs of patches -/

namespace Patch

open Patching

variable {signature : MethodRef}

theorem widens_search (fingerprints : List Fingerprint) : Widens signature (search fingerprints) :=
  widens_of_pool_eq fun context => by rw [run_search]; rfl

theorem widens_apply {patch : Patch} (h : Widens signature patch.execute) :
    Widens signature patch.apply :=
  (widens_look _).bind fun _ => (widens_search _).bind fun _ => h

theorem widens_applyAll {patches : List Patch}
    (h : ∀ patch ∈ patches, Widens signature patch.execute) :
    Widens signature (applyAll patches) := by
  induction patches with
  | nil => exact widens_pure _
  | cons patch patches ih =>
      rw [List.forall_mem_cons] at h
      exact ((widens_apply h.1).tryCatch fun e => widens_throw _).bind fun _ =>
        (ih h.2).bind fun _ => widens_pure _

end Patch

namespace Runner

open Patching

variable {runner : Runner} {signature : MethodRef}

theorem widens_runPlaces (h : ∀ patch ∈ runner.patches, Widens signature patch.execute)
    (roots : List Nat) : Widens signature (runner.runPlaces roots) := by
  refine (widens_look _).bind fun order => Patch.widens_applyAll fun patch hpatch => ?_
  obtain ⟨i, -, hi⟩ := List.mem_filterMap.mp hpatch
  exact h patch (List.mem_of_getElem? hi)

end Runner

/-! ## The standard patches -/

namespace Patch.Standard

open Patching

/-- The signature of the method that seeks with the default source; the owner does not matter. -/
def seekHelper : MethodRef := ⟨"", "seekTo", ["J"], "Z"⟩

theorem widens_sharedResourceIds : Widens seekHelper sharedResourceIds.execute :=
  widens_forM (fun _ => (widens_of_pool_eq fun _ => rfl).bind fun _ => widens_pure _) _

namespace WideSearchBar

theorem widened_insertToggle (general : String) (method : Method) :
    method.Widened ((insertToggle general).run.run method).2 := by
  rw [insertToggle, run_get_bind]
  cases method.body.length with
  | zero => exact .refl method
  | succ last => exact method.widened_insertTextM last _

theorem widened_insertTabToggle (general : String) (index : Nat) (method : Method) :
    method.Widened ((insertTabToggle general index).run.run method).2 :=
  Method.widened_look_bind fun _ => method.widened_insertTextM index _

theorem widens_execute : Widens seekHelper execute := by
  refine widens_get.bind fun context => ?_
  refine ((widens_resolution _).bind fun _ => widens_look _).bind fun check => ?_
  refine (widens_resolution _).bind fun switch => ?_
  refine (widens_edit (widened_insertToggle _)).bind fun _ => ?_
  refine (widens_edit (widened_insertToggle _)).bind fun _ => ?_
  refine (widens_resolution _).bind fun tab => (widens_look _).bind fun window => ?_
  refine (widens_edit (widened_insertTabToggle _ _)).bind fun _ => ?_
  exact (widens_modify fun _ => rfl).bind fun _ => widens_modify fun _ => rfl

end WideSearchBar

namespace VideoInformation

theorem widens_hookPlayerController : Widens seekHelper hookPlayerController :=
  (widens_resolution _).bind fun _ => (widens_look _).bind fun _ => widens_registerHook _ _

theorem widens_addSeekHelper : Widens seekHelper addSeekHelper := by
  refine (widens_resolution _).bind fun videoEnd => (widens_look _).bind fun controller => ?_
  refine (widens_look _).bind fun seek => widens_look_bind fun _ helper hhelper => ?_
  have hsame : { helper.ref with owner := seekHelper.owner } = seekHelper := by
    split at hhelper
    · cases hhelper
    · rw [Blueprint.ref_of_build hhelper]
      rfl
  exact (widens_addMethod _ hsame).bind fun _ => widens_pure _

theorem widened_insertLengthReport (video : String) (index : Nat) (method : Method) :
    method.Widened ((insertLengthReport video index).run.run method).2 :=
  Method.widened_look_bind fun _ => Method.widened_look_bind fun _ =>
    method.widened_insertTextM (index + 1) _

theorem widens_hookVideoLength (video : String) : Widens seekHelper (hookVideoLength video) :=
  (widens_resolution _).bind fun _ => (widens_look _).bind fun _ =>
    widens_edit (widened_insertLengthReport _ _)

theorem widens_hookVideoTime : Widens seekHelper hookVideoTime :=
  (widens_resolution _).bind fun _ => (widens_look _).bind fun _ => widens_registerHook _ _

theorem widens_hookBackgroundPlayback : Widens seekHelper hookBackgroundPlayback :=
  (widens_resolution _).bind fun _ => (widens_look _).bind fun _ => widens_registerHook _ _

theorem widens_hookVideoId : Widens seekHelper hookVideoId :=
  (widens_resolution _).bind fun _ => (widens_look _).bind fun _ => widens_registerHook _ _

theorem widens_execute : Widens seekHelper execute := by
  have hinject : ∀ hook descriptor, Widens seekHelper (do
      let _ ← Patching.inject hook descriptor) :=
    fun hook descriptor => (widens_inject hook descriptor).bind fun _ => widens_pure _
  refine widens_get.bind fun context => widens_hookPlayerController.bind fun _ => ?_
  refine (hinject _ _).bind fun _ => widens_addSeekHelper.bind fun _ => ?_
  refine (widens_hookVideoLength _).bind fun _ => widens_hookVideoTime.bind fun _ => ?_
  refine (hinject _ _).bind fun _ => widens_hookBackgroundPlayback.bind fun _ => ?_
  exact widens_hookVideoId.bind fun _ => hinject _ _

end VideoInformation

theorem widens_of_mem_all : ∀ patch ∈ all, Widens seekHelper patch.execute := by
  have hexecute : ∀ patch ∈ [sharedResourceIds, wideSearchBar, videoInformation],
      Widens seekHelper patch.execute := by
    simp only [List.forall_mem_cons]
    exact ⟨widens_sharedResourceIds, WideSearchBar.widens_execute,
      VideoInformation.widens_execute, List.forall_mem_nil _⟩
  exact hexecute

/-- Running all standard patches, or those with given names and what they need, widens the pool, also
when a patch fails: whatever was there is still there, in the same order and with its branches moved
along, and no class is given another method than the one that seeks. -/
theorem run_widens_pool (context : PatchContext) :
    context.pool.Widened seekHelper (runner.run.run.run context).2.pool ∧
      ∀ names, context.pool.Widened seekHelper
        ((runner.runSelected names).run.run context).2.pool :=
  ⟨Runner.widens_runPlaces widens_of_mem_all _ context, fun _ =>
    ((widens_look _).bind (Runner.widens_runPlaces widens_of_mem_all)) context⟩

end Patch.Standard

end DexGraft
