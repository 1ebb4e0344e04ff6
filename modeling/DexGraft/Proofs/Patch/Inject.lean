import DexGraft.Proofs.Code.Pool
import DexGraft.Proofs.Edit.ByText
import DexGraft.Proofs.NameMap
import DexGraft.Proofs.Patch.Call

/-!
# Adding a call

All that adding a call at a hook point can come to: it is refused, or it is refused after the anchor
was found again, or an instruction is put in behind the calls that are there.
-/

namespace DexGraft

open Outcome

/-! ## Spots -/

/-- Where the calls of a point go, whatever index its anchor was last found at. -/
structure Spot where
  method : MethodId
  /-- The instruction behind which the calls go, which is not there for the beginning. -/
  anchor : Option Instruction
deriving DecidableEq, Repr

/-- The instruction that the calls go behind. -/
def Anchor.instruction? : Anchor → Option Instruction
  | .entry => none
  | .after instruction _ => some instruction

namespace HookPoint

def spot (point : HookPoint) : Spot := ⟨point.method, point.anchor.instruction?⟩

/-- The points differ at most in the index at which the anchor was last found. -/
structure SameSpot (point other : HookPoint) : Prop where
  spot : other.spot = point.spot
  registers : other.registers = point.registers
  injected : other.injected = point.injected

theorem SameSpot.refl (point : HookPoint) : SameSpot point point := ⟨rfl, rfl, rfl⟩

theorem SameSpot.method {point other : HookPoint} (h : SameSpot point other) :
    other.method = point.method :=
  congrArg Spot.method h.spot

theorem call_congr {point other : HookPoint} (h : other.registers = point.registers)
    (target : MethodRef) : other.call target = point.call target := by
  rw [call, call, h]

/-- The anchor of the point stands at the index that the point has for it. -/
def Anchored (point : HookPoint) (body : List Instruction) : Prop :=
  ∀ instruction index, point.anchor = .after instruction index → body[index]? = some instruction

/-- The point that is found is the same point, with the anchor where it says. -/
theorem of_locate {point located : HookPoint} {method : Method}
    (h : point.locate method = .ok located) :
    SameSpot point located ∧ located.Anchored method.body := by
  obtain ⟨id, anchor, registers, injected⟩ := point
  rw [locate] at h
  cases anchor with
  | entry =>
      cases h
      refine ⟨SameSpot.refl _, ?_⟩
      rintro instruction index ⟨⟩
  | after instruction index =>
      dsimp only at h
      split at h
      · rename_i hfound
        cases h
        refine ⟨SameSpot.refl _, ?_⟩
        rintro instruction' index' ⟨⟩
        exact hfound
      · split at h
        · rename_i index' hindex
          cases h
          refine ⟨⟨rfl, rfl, rfl⟩, ?_⟩
          rintro instruction' index'' ⟨⟩
          obtain ⟨hlt, heq, -⟩ := List.findIdx?_eq_some_iff_getElem.mp hindex
          rw [List.getElem?_eq_getElem hlt, beq_iff_eq.mp heq]
        · cases h

/-- An anchor that stands where it was last found is found there. -/
theorem locate_of_anchored {point : HookPoint} {method : Method}
    (h : point.Anchored method.body) : point.locate method = .ok point := by
  obtain ⟨id, anchor, registers, injected⟩ := point
  cases anchor with
  | entry => rfl
  | after instruction index => exact if_pos (h instruction index rfl)

/-- Where an anchor is found that was last found at an index. -/
def place? (anchor : Instruction) (index : Nat) (body : List Instruction) : Option Nat :=
  if body[index]? = some anchor then some index else body.findIdx? (· == anchor)

theorem place?_eq_none_iff (anchor : Instruction) (index : Nat) (body : List Instruction) :
    place? anchor index body = none ↔ anchor ∉ body := by
  rw [place?]
  split
  · rename_i hfound
    exact ⟨nofun, fun hnot => absurd (List.mem_of_getElem? hfound) hnot⟩
  · rw [List.findIdx?_eq_none_iff]
    constructor
    · intro hnone hmem
      exact absurd (hnone anchor hmem) (by simp)
    · rintro hnot item hitem
      exact beq_eq_false_iff_ne.mpr fun heq => hnot (heq ▸ hitem)

/-- An anchor that was last found at a place or in front of it is found at the place exactly if it
stands there, and was last found there or has none of its kind in front of it. -/
theorem place?_eq_length_iff {anchor item : Instruction} {index : Nat}
    {front rest : List Instruction} (hindex : index ≤ front.length) :
    place? anchor index (front ++ item :: rest) = some front.length ↔
      item = anchor ∧ (index = front.length ∨ anchor ∉ front) := by
  have hitem : (front ++ item :: rest)[front.length]? = some item := by simp
  rw [place?]
  split
  · rename_i hfound
    have hplace : anchor ∉ front → index = front.length := by
      intro hnot
      by_contra hne
      rw [List.getElem?_append_left (by omega)] at hfound
      exact hnot (List.mem_of_getElem? hfound)
    rw [Option.some.injEq]
    constructor
    · rintro rfl
      rw [hitem, Option.some.injEq] at hfound
      exact ⟨hfound, .inl rfl⟩
    · rintro ⟨-, heq | hnot⟩
      · exact heq
      · exact hplace hnot
  · rename_i hmoved
    rw [List.findIdx?_eq_some_iff_getElem]
    constructor
    · rintro ⟨_, hanchor, hfront⟩
      refine ⟨by simpa using hanchor, .inr fun hmem => ?_⟩
      obtain ⟨i, hi, heq⟩ := List.getElem_of_mem hmem
      refine hfront i hi ?_
      rw [List.getElem_append_left hi, heq, beq_self_eq_true]
    · rintro ⟨rfl, rfl | hnot⟩
      · exact absurd hitem hmoved
      · refine ⟨by simp, by simp, fun i hi heq => hnot ?_⟩
        rw [List.getElem_append_left hi, beq_iff_eq] at heq
        exact heq ▸ List.getElem_mem hi

/-- The point is found where its anchor is. -/
theorem locate_after {point : HookPoint} {anchor : Instruction} {index : Nat}
    (hanchor : point.anchor = .after anchor index) (method : Method) :
    point.locate method = match place? anchor index method.body with
      | some place => .ok { point with anchor := .after anchor place }
      | none => .error (.hookPointLost method.descriptor anchor.text) := by
  obtain ⟨id, _, registers, injected⟩ := point
  cases hanchor
  rw [locate, place?]
  dsimp only
  split
  · rfl
  · unfold Method.findIndex?
    cases method.body.findIdx? (· == anchor) <;> rfl

theorem parse_of_readCall {point : HookPoint} {name descriptor : String} {target : MethodRef}
    (h : point.readCall name descriptor = .ok target) : MethodRef.parse descriptor = .ok target := by
  obtain ⟨target', hparsed, hfits⟩ := bind_eq_ok_iff.mp h
  dsimp only at hfits
  split at hfits
  · cases hfits
  · cases hfits
    exact hparsed

/-- The line of a call is assembled and put in if its reference can be written and its index is one of
the body. -/
theorem insertOne_callText_iff {target : MethodRef} {descriptor : String}
    (htarget : MethodRef.parse descriptor = .ok target) (point : HookPoint) (method : Method)
    (index : Nat) :
    (∃ changed, method.insertOne index (point.callText target) = .ok changed) ↔
      target.Writable ∧ index ≤ method.body.length := by
  rw [← assembleOne_callText_iff htarget method index]
  constructor
  · rintro ⟨changed, hchanged⟩
    rw [Method.insertOne_eq] at hchanged
    obtain ⟨item, hitem, hinsert⟩ := bind_eq_ok_iff.mp hchanged
    refine ⟨⟨item, hitem⟩, ?_⟩
    rw [Method.insert_eq] at hinsert
    split at hinsert
    · cases hinsert
    · omega
  · rintro ⟨⟨item, hitem⟩, hle⟩
    rw [Method.insertOne_eq, hitem, ok_bind, Method.insert_eq, if_neg (Nat.not_lt.mpr hle)]
    exact ⟨_, rfl⟩

theorem eq_outOfBounds_of_insertOne {target : MethodRef} {descriptor : String} {point : HookPoint}
    {method : Method} {index : Nat} {e : Error} (htarget : MethodRef.parse descriptor = .ok target)
    (hwritable : target.Writable)
    (h : method.insertOne index (point.callText target) = .error e) :
    e = method.outOfBounds index := by
  obtain ⟨item, hitem⟩ := (assembleOne_callText_iff htarget method index).mpr hwritable
  rw [Method.insertOne_eq, hitem, ok_bind, Method.insert_eq] at h
  split at h <;> cases h
  rfl

end HookPoint

/-! ## One call -/

namespace HookRegistry

theorem get?_register (hooks : HookRegistry) (name other : String) (point : HookPoint) :
    (hooks.register name point).get? other =
      if other = name then some point else hooks.get? other :=
  NameMap.get?_insert hooks.points name other point

/-- The point is registered under the name now, and the others are as they were. -/
def Sets (name : String) (point : HookPoint) (old new : HookRegistry) : Prop :=
  ∀ other, new.get? other = if other = name then some point else old.get? other

theorem sets_register (hooks : HookRegistry) (name : String) (point : HookPoint) :
    Sets name point hooks (hooks.register name point) :=
  fun other => hooks.get?_register name other point

theorem Sets.trans {hooks hooks' hooks'' : HookRegistry} {name : String} {point point' : HookPoint}
    (h : Sets name point hooks hooks') (h' : Sets name point' hooks' hooks'') :
    Sets name point' hooks hooks'' := by
  intro other
  rw [h', h]
  split <;> rfl

/-- What adding a call can come to. -/
inductive Injects (hooks : HookRegistry) (pool : ClassPool) (name descriptor : String) :
    Except Error Nat × HookRegistry × ClassPool → Prop
  /-- There is no such point, or the call does not fit it, or the anchor is gone. -/
  | refused (e : Error) : Injects hooks pool name descriptor (.error e, hooks, pool)
  /-- The call cannot be put in where its place would be. -/
  | kept {point located : HookPoint} (e : Error) (found : hooks.get? name = some point)
      (same : point.SameSpot located) :
      Injects hooks pool name descriptor (.error e, hooks.register name located, pool)
  /-- The call is put in. -/
  | added {point located : HookPoint} {target : MethodRef} {method changed : Method}
      (found : hooks.get? name = some point) (parsed : MethodRef.parse descriptor = .ok target)
      (body : pool.method? point.method = some method) (locates : point.locate method = .ok located)
      (inserted : method.insert located.nextIndex [point.call target] = .ok changed) :
      Injects hooks pool name descriptor
        (.ok located.nextIndex,
          hooks.register name { located with injected := point.injected + 1 },
          pool.setMethod point.method changed)

/-- A call is prepared if there is a point with the name, and the point accepts it. -/
theorem of_prepare {hooks : HookRegistry} {name descriptor : String} {point : HookPoint}
    {target : MethodRef} (h : hooks.prepare name descriptor = .ok (point, target)) :
    hooks.get? name = some point ∧ point.readCall name descriptor = .ok target := by
  rw [prepare] at h
  split at h
  · cases h
  · rename_i hfound
    obtain ⟨target', hread, h⟩ := bind_eq_ok_iff.mp h
    cases h
    exact ⟨hfound, hread⟩

/-- A call is placed if it is prepared and its anchor is found. -/
theorem of_place {hooks : HookRegistry} {pool : ClassPool} {name descriptor : String}
    {target : MethodRef} {method : Method} {located : HookPoint}
    (h : hooks.place pool name descriptor = .ok (target, method, located)) :
    ∃ point, hooks.prepare name descriptor = .ok (point, target) ∧
      pool.method point.method = .ok method ∧ point.locate method = .ok located := by
  obtain ⟨⟨point, target'⟩, hprepare, h⟩ := bind_eq_ok_iff.mp h
  obtain ⟨method', hmethod, h⟩ := bind_eq_ok_iff.mp h
  obtain ⟨located', hlocate, h⟩ := bind_eq_ok_iff.mp h
  cases h
  exact ⟨point, hprepare, hmethod, hlocate⟩

/-- A call that cannot be put in leaves its method as it was. -/
theorem inject_eq (hooks : HookRegistry) (pool : ClassPool) (name descriptor : String) :
    hooks.inject pool name descriptor =
      match hooks.place pool name descriptor with
      | .error e => (.error e, hooks, pool)
      | .ok (target, method, point) =>
        match method.insertOne point.nextIndex (point.callText target) with
        | .error e => (.error e, hooks.register name point, pool)
        | .ok changed =>
          (.ok point.nextIndex, hooks.register name { point with injected := point.injected + 1 },
            pool.setMethod point.method changed) := by
  rw [inject]
  cases hplace : hooks.place pool name descriptor with
  | error e => rfl
  | ok placed =>
      obtain ⟨target, method, located⟩ := placed
      obtain ⟨point, -, hmethod, hlocate⟩ := of_place hplace
      rw [← (HookPoint.of_locate hlocate).1.method] at hmethod
      have hinsert := (Method.insertOneM_comesTo located.nextIndex (located.callText target)
        method).made
      dsimp only
      rw [Method.insertOne, hinsert]
      cases (Method.insertOneM located.nextIndex (located.callText target)).result method with
      | error e => exact congrArg (_, _, ·) (ClassPool.setMethod_self hmethod)
      | ok changed => rfl

/-- Adding a call comes to one of these. -/
theorem injects_inject (hooks : HookRegistry) (pool : ClassPool) (name descriptor : String) :
    Injects hooks pool name descriptor (hooks.inject pool name descriptor) := by
  rw [inject_eq]
  split
  · exact .refused _
  · rename_i target method located hplaced
    obtain ⟨point, hprepare, hmethod, hlocate⟩ := of_place hplaced
    have hsame := (HookPoint.of_locate hlocate).1
    obtain ⟨hfound, hread⟩ := of_prepare hprepare
    split
    · exact .kept _ hfound hsame
    · rename_i changed hinserted
      have hparsed := HookPoint.parse_of_readCall hread
      rw [Method.insertOne_eq] at hinserted
      obtain ⟨item, hitem, hinserted⟩ := bind_eq_ok_iff.mp hinserted
      have hcall := HookPoint.assembleOne_callText hparsed hitem
      rw [hcall, HookPoint.call_congr hsame.registers] at hinserted
      have hadded :=
        Injects.added hfound hparsed (ClassPool.method?_of_method hmethod) hlocate hinserted
      rw [← hsame.injected, ← hsame.method] at hadded
      exact hadded

/-- What a call that fits its point comes to, in view of where the anchor is found. -/
theorem fst_inject {hooks : HookRegistry} {pool : ClassPool} {name descriptor : String}
    {point : HookPoint} {target : MethodRef} {method : Method} (hfound : hooks.get? name = some point)
    (hread : point.readCall name descriptor = .ok target)
    (hmethod : pool.method? point.method = some method) :
    (hooks.inject pool name descriptor).1 = (do
      let located ← point.locate method
      let _ ← method.insertOne located.nextIndex (located.callText target)
      .ok located.nextIndex) := by
  have hbody : pool.method point.method = .ok method := by rw [ClassPool.method, hmethod]
  rw [inject_eq, place, prepare, hfound]
  simp only [hread, hbody, ok_bind]
  cases point.locate method with
  | error e => rfl
  | ok located =>
      simp only [ok_bind]
      cases method.insertOne located.nextIndex (located.callText target) <;> rfl

end HookRegistry

/-! ## A small pool -/

/-- A method that has the given body. -/
def Method.ofBody (body : List Instruction) : Method := ⟨"La;", "b", [], "V", .empty, 1, body⟩

/-- A pool with this method only. -/
def ClassPool.ofBody (body : List Instruction) : ClassPool :=
  ⟨[⟨"La;", none, .empty, none, [.ofBody body]⟩]⟩

end DexGraft
