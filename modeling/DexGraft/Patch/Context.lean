import DexGraft.Fingerprint.Store
import DexGraft.Patch.Config
import DexGraft.Patch.Hook
import DexGraft.Patch.Settings
import DexGraft.Resource.Mapping
import DexGraft.Walk

/-!
# Patch contexts

Everything that a patch can look at and change. Each patch of a run sees what the ones before it have
done, and a patch that fails leaves behind what it had done by then.
-/

namespace DexGraft

structure PatchContext where
  pool : ClassPool
  resources : ResourceMapping
  config : PatchConfig
  resourceIds : ResourceIds := {}
  resolutions : ResolutionStore := {}
  settings : SettingsRegistry := {}
  hooks : HookRegistry := {}

/-- A computation that changes a context and may fail; what it has changed stays changed. -/
abbrev Patching := Editing PatchContext

namespace PatchContext

/-- The number of a resource; what becomes of a missing one depends on the configuration. -/
def resourceId (context : PatchContext) (type : ResourceType) (name : String) :
    Except Error Int64 :=
  if context.config.strictResources then context.resources.require type name
  else .ok (context.resources.lookup type name)

/-- The number of a shared resource; the configuration decides as for other resources. -/
def sharedResourceId (context : PatchContext) (key : String) : Except Error Int64 :=
  match context.resourceIds.get? key with
  | none => .error (.resourceNotFound "shared" key)
  | some resource =>
    if !resource.isFound && context.config.strictResources then
      .error (.resourceNotFound resource.type.name resource.name)
    else .ok resource.id

/-- The place of a class, which has to be there. -/
def findClass (context : PatchContext) (descriptor : String) : Except Error Nat :=
  match context.pool.findClass? descriptor with
  | some index => .ok index
  | none => .error (.classNotFound descriptor)

def walker (context : PatchContext) (start : MethodId) : Walker := ⟨context.pool, start, 0⟩

end PatchContext

namespace Patching

open Editing

/-- Searches a fingerprint and keeps the result. -/
def resolve (fingerprint : Fingerprint) : Patching Resolution := do
  let context ← get
  let (result, resolutions) := context.resolutions.resolve fingerprint context.pool
  set { context with resolutions }
  look fun _ => result

/-- Searches a fingerprint in one class and keeps the result. -/
def resolveIn (fingerprint : Fingerprint) (inClass : Nat) : Patching Resolution := do
  let context ← get
  let (result, resolutions) := context.resolutions.resolveIn fingerprint context.pool inClass
  set { context with resolutions }
  look fun _ => result

/-- Where a fingerprint was found earlier. -/
def resolution (name : String) : Patching Resolution := look (·.resolutions.require name)

/-- Looks a resource up for all patches. -/
def share (key : String) (type : ResourceType) (name : String) : Patching SharedResource :=
  modifyGet fun context =>
    let (resource, resourceIds) := context.resourceIds.resolve context.resources key type name
    (resource, { context with resourceIds })

/-- Adds a call at a hook point, and gives the index at which it stands. -/
def inject (hook descriptor : String) : Patching Nat := do
  let context ← get
  let (result, hooks, pool) := context.hooks.inject context.pool hook descriptor
  set { context with hooks, pool }
  look fun _ => result

def registerHook (name : String) (point : HookPoint) : Patching Unit :=
  modify fun context => { context with hooks := context.hooks.register name point }

def method (id : MethodId) : Patching Method := look (·.pool.method id)

/-- Changes the pool in place. -/
def onPool {α : Type} (edit : Editing ClassPool α) : Patching α :=
  zoom (fun context => .ok context.pool) (fun pool context => { context with pool }) edit

/-- Changes a method in place. -/
def edit (id : MethodId) (change : Editing Method Unit) : Patching Unit :=
  onPool (ClassPool.editMethod id change)

def addMethod (inClass : Nat) (method : Method) : Patching MethodId :=
  onPool (ClassPool.addMethodM inClass method)

def addPreferences (entries : List String) : Patching Unit :=
  modify fun context => { context with settings := context.settings.addPreferences entries }

def addStatus (patch : String) : Patching Unit :=
  modify fun context => { context with settings := context.settings.addStatus patch }

end Patching

end DexGraft
