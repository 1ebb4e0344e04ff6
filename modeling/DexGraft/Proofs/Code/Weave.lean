import DexGraft.Proofs.Code.Method
import Mathlib.Data.List.Basic
import Mathlib.Order.Monotone.Basic

/-!
# Bodies with instructions woven in

Instructions without a target are put in front of a body and behind some of its instructions.  The
instructions of the body keep their order, each has a *place* among what is put in, and a branch
that led to an instruction leads to the place of that instruction.  Putting in one more instruction
at the end of a group is the same as weaving with a longer group.
-/

namespace DexGraft

namespace Weave

/-- Where the instruction with the index has its place. -/
def place (front : List Instruction) (behind : Instruction → List Instruction)
    (body : List Instruction) (index : Nat) : Nat :=
  front.length + index + ((body.take index).flatMap behind).length

/-- An instruction with its branch moved, and what is put in behind it. -/
def group (behind : Instruction → List Instruction) (move : Nat → Nat) (item : Instruction) :
    List Instruction :=
  item.retarget move :: behind item

/-- The body with instructions in front of it, and with instructions behind each of its own. -/
def weave (front : List Instruction) (behind : Instruction → List Instruction)
    (body : List Instruction) : List Instruction :=
  front ++ body.flatMap (group behind (place front behind body))

/-- None of the instructions has a target. -/
def Untargeted (items : List Instruction) : Prop := ∀ item ∈ items, item.target = none

theorem untargeted_append {a b : List Instruction} :
    Untargeted (a ++ b) ↔ Untargeted a ∧ Untargeted b :=
  List.forall_mem_append

theorem retarget_of_target_eq_none {item : Instruction} (h : item.target = none)
    (move : Nat → Nat) : item.retarget move = item := by
  cases item
  cases h
  rfl

theorem map_retarget_of_untargeted {items : List Instruction} (h : Untargeted items)
    (move : Nat → Nat) : items.map (.retarget move) = items := by
  calc items.map (.retarget move) = items.map id :=
        List.map_congr_left fun item hitem => retarget_of_target_eq_none (h item hitem) move
    _ = items := List.map_id items

/-- An instruction without a target is among moved ones only if it was there before. -/
theorem mem_map_retarget_iff {anchor : Instruction} (h : anchor.target = none) {move : Nat → Nat}
    {items : List Instruction} : anchor ∈ items.map (.retarget move) ↔ anchor ∈ items := by
  rw [List.mem_map]
  constructor
  · rintro ⟨item, hitem, rfl⟩
    rwa [retarget_of_target_eq_none (Option.map_eq_none_iff.mp h)]
  · intro hmem
    exact ⟨anchor, hmem, retarget_of_target_eq_none h move⟩

theorem retarget_retarget (f g : Nat → Nat) (item : Instruction) :
    (item.retarget g).retarget f = item.retarget fun target => f (g target) := by
  simp [Instruction.retarget, Function.comp_def]

variable {front : List Instruction} {behind : Instruction → List Instruction}

/-! ## Places -/

theorem length_flatMap_group (move : Nat → Nat) (items : List Instruction) :
    (items.flatMap (group behind move)).length =
      items.length + (items.flatMap behind).length := by
  induction items with
  | nil => rfl
  | cons item items ih =>
      rw [List.flatMap_cons, List.flatMap_cons, List.length_append, List.length_append, ih, group,
        List.length_cons, List.length_cons]
      omega

/-- The end of the body is the place behind its last instruction. -/
theorem place_length (front : List Instruction) (behind : Instruction → List Instruction)
    (body : List Instruction) :
    place front behind body body.length = (weave front behind body).length := by
  rw [place, weave, List.take_length, List.length_append, length_flatMap_group, Nat.add_assoc]

/-- The instructions keep their order. -/
theorem place_strictMono (front : List Instruction) (behind : Instruction → List Instruction)
    (body : List Instruction) : StrictMono (place front behind body) := by
  refine strictMono_nat_of_lt_succ fun index => ?_
  have hle : ((body.take index).flatMap behind).length ≤
      ((body.take (index + 1)).flatMap behind).length := by
    rw [List.take_add_one, List.flatMap_append, List.length_append]
    exact Nat.le_add_right _ _
  rw [place, place]
  omega

theorem place_append (front : List Instruction) (behind : Instruction → List Instruction)
    (a b : List Instruction) :
    place front behind (a ++ b) a.length =
      front.length + a.length + (a.flatMap behind).length := by
  rw [place, List.take_left]

/-- An instruction and what is put in behind it, between what stands in front and what follows. -/
theorem weave_append (a b : List Instruction) (item : Instruction) :
    weave front behind (a ++ item :: b) =
      front ++ a.flatMap (group behind (place front behind (a ++ item :: b))) ++
        group behind (place front behind (a ++ item :: b)) item ++
        b.flatMap (group behind (place front behind (a ++ item :: b))) := by
  rw [weave, List.flatMap_append, List.flatMap_cons]
  simp only [List.append_assoc]

theorem split_of_getElem? {α : Type} {body : List α} {index : Nat} {item : α}
    (h : body[index]? = some item) : ∃ a b, body = a ++ item :: b ∧ a.length = index := by
  obtain ⟨hlt, heq⟩ := List.getElem?_eq_some_iff.mp h
  refine ⟨body.take index, body.drop (index + 1), ?_, List.length_take_of_le (Nat.le_of_lt hlt)⟩
  rw [← heq, ← List.drop_eq_getElem_cons hlt, List.take_append_drop]

/-- An instruction that the body has exactly once, and what stands around it. -/
theorem split_of_count_eq_one {body : List Instruction} {anchor : Instruction}
    (h : body.count anchor = 1) : ∃ a b, body = a ++ anchor :: b ∧ anchor ∉ a ++ b := by
  have hmem : anchor ∈ body := List.count_pos_iff.mp (h ▸ Nat.zero_lt_one)
  obtain ⟨a, b, rfl⟩ := List.append_of_mem hmem
  refine ⟨a, b, rfl, ?_⟩
  rw [List.count_append, List.count_cons_self] at h
  rw [← List.count_eq_zero, List.count_append]
  omega

theorem idxOf_append {a b : List Instruction} {anchor : Instruction} (h : anchor ∉ a) :
    (a ++ anchor :: b).idxOf anchor = a.length := by
  rw [List.idxOf_append_of_notMem h, List.idxOf_cons_self, Nat.add_zero]

/-- What is put in behind an instruction stands in front of those that follow it. -/
theorem place_add_length_le (front : List Instruction) (behind : Instruction → List Instruction)
    {body : List Instruction} {index index' : Nat} {item : Instruction}
    (h : body[index]? = some item) (hlt : index < index') :
    place front behind body index + 1 + (behind item).length ≤ place front behind body index' := by
  have hnext : place front behind body (index + 1) =
      place front behind body index + 1 + (behind item).length := by
    rw [place, place, List.take_add_one, h, List.flatMap_append, List.length_append]
    simp only [Option.toList_some, List.flatMap_singleton]
    omega
  rw [← hnext]
  exact (place_strictMono front behind body).monotone hlt

/-- An instruction stands at its place, and its branch leads to the place of its target. -/
theorem getElem?_weave (front : List Instruction) (behind : Instruction → List Instruction)
    {body : List Instruction} {index : Nat} {item : Instruction} (h : body[index]? = some item) :
    (weave front behind body)[place front behind body index]? =
      some (item.retarget (place front behind body)) := by
  obtain ⟨a, b, rfl, rfl⟩ := split_of_getElem? h
  have hlength : ∀ move, (front ++ a.flatMap (group behind move)).length =
      place front behind (a ++ item :: b) a.length := by
    intro move
    rw [place_append, List.length_append, length_flatMap_group, Nat.add_assoc]
  rw [weave_append, List.append_assoc, ← hlength (place front behind (a ++ item :: b)),
    List.getElem?_append_right (Nat.le_refl _), Nat.sub_self]
  rfl

/-- Where nothing is put in, the body stays as it is. -/
theorem weave_eq_self {body : List Instruction} (h : ∀ item ∈ body, behind item = []) :
    weave [] behind body = body := by
  have hflat : ∀ items : List Instruction, (∀ item ∈ items, behind item = []) →
      items.flatMap behind = [] := by
    intro items hitems
    exact List.flatMap_eq_nil_iff.mpr hitems
  have hplace : place [] behind body = id := by
    funext index
    rw [place, hflat _ fun item hitem => h item (List.mem_of_mem_take hitem)]
    exact Nat.zero_add index
  calc weave [] behind body = body.flatMap fun item => [item] := by
        refine List.flatMap_congr fun item hitem => ?_
        rw [group, h item hitem, hplace, Instruction.retarget, Option.map_id, id]
    _ = body := List.flatMap_singleton' body

theorem eq_length_of_getElem?_append {before after : List Instruction} {item : Instruction}
    (hbefore : item ∉ before) (hafter : item ∉ after) {index : Nat}
    (h : (before ++ item :: after)[index]? = some item) : index = before.length := by
  by_cases hlt : index < before.length
  · rw [List.getElem?_append_left hlt] at h
    exact absurd (List.mem_of_getElem? h) hbefore
  · rw [List.getElem?_append_right (Nat.le_of_not_lt hlt)] at h
    cases hdiff : index - before.length with
    | zero => omega
    | succ count =>
        rw [hdiff, List.getElem?_cons_succ] at h
        exact absurd (List.mem_of_getElem? h) hafter

/-- An instruction without a target that occurs once in the body, and nowhere in what is put in, is
only found at its place. -/
theorem eq_place_of_getElem?_weave {a b : List Instruction} {anchor : Instruction}
    (htarget : anchor.target = none) (honce : anchor ∉ a ++ b) (hfront : anchor ∉ front)
    (hbehind : ∀ item ∈ a ++ anchor :: b, anchor ∉ behind item) {index : Nat}
    (h : (weave front behind (a ++ anchor :: b))[index]? = some anchor) :
    index = place front behind (a ++ anchor :: b) a.length := by
  have hgroups : ∀ items : List Instruction, (∀ item ∈ items, item ∈ a ++ b) → ∀ move,
      anchor ∉ items.flatMap (group behind move) := by
    intro items hitems move hmem
    obtain ⟨item, hitem, hmem⟩ := List.mem_flatMap.mp hmem
    rcases List.mem_cons.mp hmem with heq | hmem
    · have hnone : item.target = none := by
        rw [heq] at htarget
        exact Option.map_eq_none_iff.mp htarget
      rw [retarget_of_target_eq_none hnone] at heq
      exact honce (heq ▸ hitems item hitem)
    · refine hbehind item ?_ hmem
      have := hitems item hitem
      simp only [List.mem_append, List.mem_cons] at this ⊢
      tauto
  have hbefore : anchor ∉
      front ++ a.flatMap (group behind (place front behind (a ++ anchor :: b))) := by
    rw [List.mem_append, not_or]
    exact ⟨hfront, hgroups a (fun item hitem => List.mem_append_left _ hitem) _⟩
  have hafter : anchor ∉ behind anchor ++
      b.flatMap (group behind (place front behind (a ++ anchor :: b))) := by
    rw [List.mem_append, not_or]
    exact ⟨hbehind anchor (by simp), hgroups b (fun item hitem => List.mem_append_right _ hitem) _⟩
  rw [weave_append, group, retarget_of_target_eq_none htarget, List.append_assoc,
    List.cons_append] at h
  rw [eq_length_of_getElem?_append hbefore hafter h, List.length_append, length_flatMap_group,
    place_append, Nat.add_assoc]

/-! ## Putting in one more instruction -/

/-- What putting in instructions between two parts of a body amounts to. -/
theorem insert_between {method : Method} {before after : List Instruction}
    (hbody : method.body = before ++ after) (items : List Instruction) :
    method.insert before.length items = .ok { method with
      body := before.map (.retarget (Target.afterInsert before.length items.length)) ++ items ++
        after.map (.retarget (Target.afterInsert before.length items.length)) } := by
  have hle : ¬ method.body.length < before.length := by
    rw [hbody, List.length_append]
    omega
  have hlength (move : Nat → Nat) :
      (before.map (Instruction.retarget move)).length = before.length := List.length_map _
  rw [Method.insert_eq, if_neg hle, hbody]
  simp only [List.map_append, List.take_left' (hlength _), List.drop_left' (hlength _)]

/-- Moving the branches of groups whose further instructions have no targets. -/
theorem map_retarget_groups {behind' : Instruction → List Instruction} {items : List Instruction}
    {shift move move' : Nat → Nat} (hbehind : ∀ item ∈ items, behind' item = behind item)
    (huntargeted : ∀ item ∈ items, Untargeted (behind item))
    (hmove : ∀ target, shift (move target) = move' target) :
    (items.flatMap (group behind move)).map (.retarget shift) =
      items.flatMap (group behind' move') := by
  rw [List.map_flatMap]
  refine List.flatMap_congr fun item hitem => ?_
  rw [group, group, List.map_cons, map_retarget_of_untargeted (huntargeted item hitem),
    retarget_retarget, hbehind item hitem]
  simp only [hmove]

/-- An instruction that is put in at the beginning, behind some of those that are there. -/
theorem insert_front {method : Method} {body c d : List Instruction} (call : Instruction)
    (hmethod : method.body = weave front behind body) (hparts : front = c ++ d)
    (hfront : Untargeted front) (hbehind : ∀ item ∈ body, Untargeted (behind item)) :
    method.insert c.length [call] =
      .ok { method with body := weave (c ++ call :: d) behind body } := by
  subst hparts
  have hmove : ∀ target, Target.afterInsert c.length 1 (place (c ++ d) behind body target) =
      place (c ++ call :: d) behind body target := by
    intro target
    rw [place, place, Target.afterInsert, if_pos]
    · simp only [List.length_append, List.length_cons]
      omega
    · simp only [List.length_append]
      omega
  obtain ⟨hc, hd⟩ := untargeted_append.mp hfront
  rw [weave, List.append_assoc] at hmethod
  rw [insert_between hmethod, List.length_singleton, List.map_append,
    map_retarget_of_untargeted hc, map_retarget_of_untargeted hd,
    map_retarget_groups (fun _ _ => rfl) hbehind hmove, weave]
  simp only [List.append_assoc, List.cons_append, List.nil_append]

/-- Where an instruction goes that is put in behind another one and so many that are there. -/
def behindPlace (front : List Instruction) (behind : Instruction → List Instruction)
    (a b : List Instruction) (anchor : Instruction) (count : Nat) : Nat :=
  place front behind (a ++ anchor :: b) a.length + 1 + count

section Behind

variable {behind' : Instruction → List Instruction} {a b c d : List Instruction}
  {anchor call : Instruction}

theorem flatMap_take_congr {items : List Instruction}
    (h : ∀ item ∈ items, behind' item = behind item) (count : Nat) :
    (items.take count).flatMap behind' = (items.take count).flatMap behind :=
  List.flatMap_congr fun item hitem => h item (List.mem_of_mem_take hitem)

/-- Places up to the instruction stay, and those behind it move by one. -/
theorem afterInsert_place (front : List Instruction) (hparts : behind anchor = c ++ d)
    (hanchor : behind' anchor = c ++ call :: d)
    (hother : ∀ item ∈ a ++ b, behind' item = behind item) (target : Nat) :
    Target.afterInsert (behindPlace front behind a b anchor c.length) 1
        (place front behind (a ++ anchor :: b) target) =
      place front behind' (a ++ anchor :: b) target := by
  have ha := flatMap_take_congr fun item hitem => hother item (List.mem_append_left _ hitem)
  have hb := flatMap_take_congr fun item hitem => hother item (List.mem_append_right _ hitem)
  rw [behindPlace, place_append]
  by_cases htarget : target ≤ a.length
  · -- the target stands in front of the new instruction
    have hle : ((a.take target).flatMap behind).length ≤ (a.flatMap behind).length := by
      conv_rhs => rw [← List.take_append_drop target a]
      rw [List.flatMap_append, List.length_append]
      omega
    rw [place, place, List.take_append_of_le_length htarget, ha, Target.afterInsert, if_neg]
    omega
  · -- the target stands behind it
    obtain ⟨count, rfl⟩ : ∃ count, target = a.length + (count + 1) :=
      ⟨target - a.length - 1, by omega⟩
    have hall := ha a.length
    rw [List.take_length] at hall
    rw [place, place, List.take_length_add_append, List.take_succ_cons, List.flatMap_append,
      List.flatMap_append, List.flatMap_cons, List.flatMap_cons, hall, hb, hparts, hanchor,
      Target.afterInsert, if_pos]
    · simp only [List.length_append, List.length_cons]
      omega
    · simp only [List.length_append]
      omega

/-- An instruction that is put in behind another one, behind some of those that are there. -/
theorem insert_behind {method : Method}
    (hmethod : method.body = weave front behind (a ++ anchor :: b))
    (hfront : Untargeted front) (hbehind : ∀ item ∈ a ++ anchor :: b, Untargeted (behind item))
    (hparts : behind anchor = c ++ d) (hanchor : behind' anchor = c ++ call :: d)
    (hother : ∀ item ∈ a ++ b, behind' item = behind item) :
    method.insert (behindPlace front behind a b anchor c.length) [call] =
      .ok { method with body := weave front behind' (a ++ anchor :: b) } := by
  have hmove := afterInsert_place front hparts hanchor hother
  obtain ⟨hc, hd⟩ : Untargeted c ∧ Untargeted d := by
    rw [← untargeted_append, ← hparts]
    exact hbehind anchor (by simp)
  have hsplit : method.body =
      (front ++ a.flatMap (group behind (place front behind (a ++ anchor :: b))) ++
        anchor.retarget (place front behind (a ++ anchor :: b)) :: c) ++
        (d ++ b.flatMap (group behind (place front behind (a ++ anchor :: b)))) := by
    rw [hmethod, weave_append, group, hparts]
    simp only [List.append_assoc, List.cons_append]
  have hlength : (front ++ a.flatMap (group behind (place front behind (a ++ anchor :: b))) ++
      anchor.retarget (place front behind (a ++ anchor :: b)) :: c).length =
        behindPlace front behind a b anchor c.length := by
    rw [List.length_append, List.length_append, length_flatMap_group, List.length_cons,
      behindPlace, place_append]
    omega
  have hgroup : anchor.retarget (place front behind' (a ++ anchor :: b)) :: c ++ [call] ++ d =
      group behind' (place front behind' (a ++ anchor :: b)) anchor := by
    rw [group, hanchor]
    simp only [List.append_assoc, List.cons_append, List.nil_append]
  have hinsert := insert_between hsplit [call]
  rw [hlength, List.length_singleton, List.map_append, List.map_append, List.map_cons,
    List.map_append, retarget_retarget, map_retarget_of_untargeted hfront,
    map_retarget_of_untargeted hc, map_retarget_of_untargeted hd,
    map_retarget_groups (fun item hitem => hother item (List.mem_append_left _ hitem))
      (fun item hitem => hbehind item (List.mem_append_left _ hitem)) hmove,
    map_retarget_groups (fun item hitem => hother item (List.mem_append_right _ hitem))
      (fun item hitem => hbehind item (by simp [hitem])) hmove] at hinsert
  simp only [hmove] at hinsert
  rw [hinsert, weave_append, ← hgroup]
  simp only [List.append_assoc, List.cons_append, List.nil_append]

end Behind

end Weave

end DexGraft
