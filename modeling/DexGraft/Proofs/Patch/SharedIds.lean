import DexGraft.Patch.Context
import DexGraft.Proofs.NameMap
import DexGraft.Proofs.Resource.Mapping

/-!
# Shared resources and resources of the table

A patch gets the number of a resource from the table, or from what another patch has stored under a
key.  The first way misses a resource that has no entry, the second one a resource that was stored
with the number for a missing one.  A table may hold that number too, and there the two ways part.
-/

namespace DexGraft

/-- A resource that is to be looked up and kept under a key. -/
structure ResourceRequest where
  key : String
  type : ResourceType
  name : String
deriving DecidableEq

namespace ResourceRequest

/-- The last request for a key. -/
def last? (requests : List ResourceRequest) (key : String) : Option ResourceRequest :=
  requests.reverse.find? (·.key == key)

/-- What a request puts under its key. -/
def found (request : ResourceRequest) (mapping : ResourceMapping) : SharedResource :=
  ⟨request.type, request.name, mapping.lookup request.type request.name⟩

theorem last?_cons (request : ResourceRequest) (requests : List ResourceRequest) (key : String) :
    last? (request :: requests) key =
      (last? requests key).or (if request.key = key then some request else none) := by
  rw [last?, last?, List.reverse_cons, List.find?_append, List.find?_singleton]
  by_cases h : request.key = key
  · rw [if_pos h, beq_iff_eq.mpr h]
    rfl
  · rw [if_neg h, beq_eq_false_iff_ne.mpr h]
    rfl

theorem exists_last?_eq_some {requests : List ResourceRequest} {key : String}
    (h : key ∈ requests.map (·.key)) : ∃ request, last? requests key = some request := by
  obtain ⟨request, hmem, rfl⟩ := List.mem_map.mp h
  exact Option.isSome_iff_exists.mp (List.find?_isSome.mpr
    ⟨request, List.mem_reverse.mpr hmem, beq_self_eq_true _⟩)

end ResourceRequest

namespace ResourceIds

open ResourceRequest

/-- Looks resources up one after the other. -/
def resolveAll (ids : ResourceIds) (mapping : ResourceMapping) (requests : List ResourceRequest) :
    ResourceIds :=
  requests.foldl (fun ids request =>
    (ids.resolve mapping request.key request.type request.name).2) ids

/-- A lookup changes what stands under its own key only. -/
theorem get?_resolve (ids : ResourceIds) (mapping : ResourceMapping) (request : ResourceRequest)
    (key : String) :
    (ids.resolve mapping request.key request.type request.name).2.get? key =
      if request.key = key then some (request.found mapping) else ids.get? key := by
  rw [resolve, get?, NameMap.get?_insert, get?, found]
  by_cases h : request.key = key
  · rw [if_pos h, if_pos h.symm]
  · rw [if_neg h, if_neg (Ne.symm h)]

/-- After any number of lookups, the last one for a key is what stands under it. -/
theorem get?_resolveAll (ids : ResourceIds) (mapping : ResourceMapping)
    (requests : List ResourceRequest) (key : String) :
    (ids.resolveAll mapping requests).get? key =
      ((last? requests key).map (·.found mapping)).or (ids.get? key) := by
  induction requests generalizing ids with
  | nil => rfl
  | cons request requests ih =>
      rw [resolveAll, List.foldl_cons, ← resolveAll, ih, get?_resolve, last?_cons]
      cases last? requests key with
      | some later => rfl
      | none => split <;> rfl

end ResourceIds

namespace ResourceTable

/-- The entry for the type and the name has the number that stands for a missing resource. -/
def HoldsMissing (table : ResourceTable) (type : ResourceType) (name : String) : Prop :=
  ∃ entry ∈ table.first? type name, entry.id = missingId

instance (table : ResourceTable) (type : ResourceType) (name : String) :
    Decidable (table.HoldsMissing type name) :=
  inferInstanceAs (Decidable (∃ entry ∈ table.first? type name, entry.id = missingId))

variable {table : ResourceTable} {type : ResourceType} {name : String}

theorem not_holdsMissing (h : table.first? type name = none) : ¬ table.HoldsMissing type name := by
  rw [HoldsMissing, h]
  rintro ⟨_, ⟨⟩, -⟩

theorem holdsMissing_iff {entry : ResourceEntry} (h : table.first? type name = some entry) :
    table.HoldsMissing type name ↔ entry.id = missingId := by
  rw [HoldsMissing, h]
  constructor
  · rintro ⟨_, ⟨⟩, hid⟩
    exact hid
  · intro hid
    exact ⟨entry, rfl, hid⟩

end ResourceTable

namespace PatchContext

variable {context : PatchContext} {table : ResourceTable}

/-- A resource of the table has its number, whichever number it is. -/
theorem resourceId_of_first?_eq_some (hresources : context.resources = .ofTable table)
    {type : ResourceType} {name : String} {entry : ResourceEntry}
    (h : table.first? type name = some entry) : context.resourceId type name = .ok entry.id := by
  rw [resourceId, hresources, ResourceMapping.require_eq_of_first?_eq_some h,
    ResourceMapping.lookup_eq_of_first?_eq_some h, ite_self]

/-- The configuration decides what a resource without entry comes to. -/
theorem resourceId_of_first?_eq_none (hresources : context.resources = .ofTable table)
    {type : ResourceType} {name : String} (h : table.first? type name = none) :
    context.resourceId type name =
      if context.config.strictResources then .error (.resourceNotFound type.name name)
      else .ok missingId := by
  rw [resourceId, hresources, ResourceMapping.require_eq_of_first?_eq_none h,
    ResourceMapping.lookup_eq_of_first?_eq_none h]

/-- The configuration decides what a resource stored with the number for a missing one comes to. -/
theorem sharedResourceId_of_get?_eq_some {key : String} {resource : SharedResource}
    (h : context.resourceIds.get? key = some resource) :
    context.sharedResourceId key =
      if resource.id = missingId ∧ context.config.strictResources then
        .error (.resourceNotFound resource.type.name resource.name)
      else .ok resource.id := by
  rw [sharedResourceId, h]
  simp only [SharedResource.isFound, Bool.and_eq_true, Bool.not_eq_true', bne_eq_false_iff_eq]

open ResourceRequest in
/--
The two ways to the number of a shared resource come to the same, found or missed, unless a strict
configuration meets an entry with the number for a missing resource.  The table then has the resource,
and under its key it counts as missing.
-/
theorem shared_ids_agree_iff (table : ResourceTable) (ids : ResourceIds)
    (requests : List ResourceRequest) (context : PatchContext)
    (hresources : context.resources = .ofTable table)
    (hids : context.resourceIds = ids.resolveAll (.ofTable table) requests)
    {key : String} (hkey : key ∈ requests.map (·.key)) :
    ∃ request, last? requests key = some request ∧
      (context.sharedResourceId key = context.resourceId request.type request.name ↔
        ¬ (context.config.strictResources ∧ table.HoldsMissing request.type request.name)) ∧
      (context.config.strictResources → table.HoldsMissing request.type request.name →
        context.resourceId request.type request.name = .ok missingId ∧
          context.sharedResourceId key =
            .error (.resourceNotFound request.type.name request.name)) := by
  obtain ⟨request, hlast⟩ := exists_last?_eq_some hkey
  have hget : context.resourceIds.get? key = some (request.found (.ofTable table)) := by
    rw [hids, ResourceIds.get?_resolveAll, hlast]
    rfl
  have hshared := sharedResourceId_of_get?_eq_some hget
  refine ⟨request, hlast, ?_⟩
  cases hfirst : table.first? request.type request.name with
  | none =>
      have hmissing := ResourceTable.not_holdsMissing hfirst
      have hid : (request.found (.ofTable table)).id = missingId :=
        ResourceMapping.lookup_eq_of_first?_eq_none hfirst
      refine ⟨iff_of_true ?_ fun h => hmissing h.2, fun _ h => absurd h hmissing⟩
      rw [hshared, resourceId_of_first?_eq_none hresources hfirst, hid]
      simp only [true_and]
      rfl
  | some entry =>
      have hid : (request.found (.ofTable table)).id = entry.id :=
        ResourceMapping.lookup_eq_of_first?_eq_some hfirst
      rw [hshared, resourceId_of_first?_eq_some hresources hfirst, hid,
        ResourceTable.holdsMissing_iff hfirst]
      by_cases h : entry.id = missingId ∧ context.config.strictResources
      · rw [if_pos h]
        exact ⟨iff_of_false (fun heq => by cases heq) fun hnot => hnot h.symm,
          fun _ _ => ⟨by rw [h.1], rfl⟩⟩
      · rw [if_neg h]
        exact ⟨iff_of_true rfl fun hboth => h hboth.symm,
          fun hstrict hid => absurd ⟨hid, hstrict⟩ h⟩

/-- A strict context after some resources of a table have been looked up. -/
def afterRequests (table : ResourceTable) (requests : List ResourceRequest) : PatchContext where
  pool := ⟨[]⟩
  resources := .ofTable table
  config := { strictResources := true }
  resourceIds := ResourceIds.resolveAll {} (.ofTable table) requests

/-- A table that gives two numbers for one resource, the first of them the one for a missing one. -/
def cloudTable : ResourceTable :=
  ⟨[⟨.layout, "chip_cloud", -1⟩, ⟨.layout, "chip_cloud", 7⟩, ⟨.bool, "is_tablet", 3⟩]⟩

/-- Two resources under one key, and a third one under another key. -/
def tabletRequests : List ResourceRequest :=
  [⟨"Tablet", .layout, "chip_cloud"⟩, ⟨"Tablet", .bool, "is_tablet"⟩, ⟨"Phone", .bool, "is_phone"⟩]

/-- The key stands for the resource that was looked up last, which the table has. -/
theorem shared_ids_agree_iff_tablet :
    "Tablet" ∈ tabletRequests.map (·.key) ∧
      (afterRequests cloudTable tabletRequests).sharedResourceId "Tablet" =
        (afterRequests cloudTable tabletRequests).resourceId .bool "is_tablet" := by
  have hkey : "Tablet" ∈ tabletRequests.map (·.key) := by decide
  obtain ⟨request, hlast, hagree, -⟩ := shared_ids_agree_iff cloudTable {} tabletRequests
    (afterRequests cloudTable tabletRequests) rfl rfl hkey
  have htablet : ResourceRequest.last? tabletRequests "Tablet" =
      some ⟨"Tablet", .bool, "is_tablet"⟩ := by decide
  obtain rfl := Option.some.inj (hlast.symm.trans htablet)
  exact ⟨hkey, hagree.mpr fun h => absurd h.2 (by decide)⟩

/-- A resource that the table has with the number for a missing one is missed under its key only. -/
theorem shared_id_ne_of_stored_missing :
    (afterRequests ⟨[⟨.layout, "chip_cloud", -1⟩]⟩
        [⟨"ChipCloud", .layout, "chip_cloud"⟩]).sharedResourceId "ChipCloud" ≠
      (afterRequests ⟨[⟨.layout, "chip_cloud", -1⟩]⟩
        [⟨"ChipCloud", .layout, "chip_cloud"⟩]).resourceId .layout "chip_cloud" := by
  have hfirst : ResourceTable.first? ⟨[⟨.layout, "chip_cloud", -1⟩]⟩ .layout "chip_cloud" =
      some ⟨.layout, "chip_cloud", -1⟩ := by decide
  rw [sharedResourceId_of_get?_eq_some (ResourceIds.get?_resolveAll _ _ _ _),
    resourceId_of_first?_eq_some rfl hfirst]
  -- The number that was stored is the one of the entry, and a strict context refuses it.
  rw [if_pos ⟨ResourceMapping.lookup_eq_of_first?_eq_some hfirst, rfl⟩]
  nofun

end PatchContext

end DexGraft
