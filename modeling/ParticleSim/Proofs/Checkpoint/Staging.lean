import ParticleSim.Checkpoint.Staging
import ParticleSim.Proofs.Checkpoint.Words
import ParticleSim.Proofs.OrderedMap

/-!
# Checkpoint — Staged objects, changed and taken out

A staging changes one slot at a time (`Staging.object?_setObject`, `Staging.connectEach_cons`).
Objects are taken out of a staging one by one, so what is left at any time is the staging without
those taken so far (`Staging.without`).  An object can be taken once, if the view sees it
(`Staging.take_eq_ok`).
-/

namespace ParticleSim

namespace Staging

variable {α β : Type}

/-! ### Looking up -/

theorem get?_eq_some {s : Staging α} {view : α → Option β} {id : ObjectId} {b : β} :
    s.get? view id = some b ↔ ∃ a, s.object? id = some a ∧ view a = some b :=
  Option.bind_eq_some_iff

theorem object?_eq_some {s : Staging α} {id : ObjectId} {a : α} :
    s.object? id = some a ↔ ∃ tag, (id, ⟨tag, some a⟩) ∈ s.slots.entries := by
  rw [object?, Option.bind_eq_some_iff]
  constructor
  · rintro ⟨⟨tag, object⟩, hf, rfl⟩
    exact ⟨tag, OrderedMap.find?_eq_some.mp hf⟩
  · rintro ⟨tag, hm⟩
    exact ⟨⟨tag, some a⟩, OrderedMap.find?_eq_some.mpr hm, rfl⟩

theorem mem_ids_of_object? {s : Staging α} {id : ObjectId} {a : α} (h : s.object? id = some a) :
    id ∈ s.ids := by
  obtain ⟨tag, hm⟩ := object?_eq_some.mp h
  exact OrderedMap.mem_keys_of_mem hm

theorem tag?_setObject (s : Staging α) (id : ObjectId) (object : Option α) (x : ObjectId) :
    (s.setObject id object).tag? x = s.tag? x := by
  rw [tag?, tag?, setObject, OrderedMap.find?_modify]
  split
  · rw [Option.map_map]
    rfl
  · rfl

theorem ids_setObject (s : Staging α) (id : ObjectId) (object : Option α) :
    (s.setObject id object).ids = s.ids :=
  OrderedMap.keys_modify _ _ _

/-- Only the slot of an object changes with it. -/
theorem object?_setObject {s : Staging α} {id : ObjectId} (hid : id ∈ s.ids) (object : Option α)
    (x : ObjectId) :
    (s.setObject id object).object? x = if x = id then object else s.object? x := by
  rw [object?, setObject, OrderedMap.find?_modify]
  split
  · next h =>
    subst h
    obtain ⟨slot, hs⟩ := Option.isSome_iff_exists.mp
      ((OrderedMap.isSome_find? s.slots x).trans (OrderedMap.contains_iff.mpr hid))
    rw [hs]
    rfl
  · rfl

theorem get?_setObject {s : Staging α} {id : ObjectId} (hid : id ∈ s.ids) (object : Option α)
    (view : α → Option β) (x : ObjectId) :
    (s.setObject id object).get? view x = if x = id then object.bind view else s.get? view x := by
  rw [get?, object?_setObject hid]
  split <;> rfl

/-- An object that a view does not see may be away. -/
theorem get?_hide {s : Staging α} {id : ObjectId} {a : α} (h : s.object? id = some a)
    {view : α → Option β} (hv : view a = none) (x : ObjectId) :
    (s.setObject id none).get? view x = s.get? view x := by
  rw [get?_setObject (mem_ids_of_object? h)]
  split
  · next hx =>
    subst hx
    rw [get?, h, Option.bind_some, hv]
    rfl
  · rfl

/-! ### Connecting -/

theorem connectEach_cons (connect : Connect α) (id : ObjectId) (ids : List ObjectId)
    (s : Staging α) :
    connectEach connect (id :: ids) s =
      match s.object? id with
      | none => connectEach connect ids s
      | some a =>
        match connect id (s.setObject id none) a with
        | .ok () a' => connectEach connect ids (s.setObject id (some a'))
        | .error e a' => .error e (s.setObject id (some a')) := by
  rw [connectEach, get_bind]
  cases s.object? id with
  | none => rfl
  | some a =>
      simp only
      cases connect id (s.setObject id none) a <;> rfl

/-! ### Taking -/

/-- What is left when some objects are taken out. -/
def without (s : Staging α) (taken : List ObjectId) : Staging α :=
  ⟨⟨s.slots.entries.filter fun e => e.1 ∉ taken,
    s.slots.nodup.sublist (List.filter_sublist.map Prod.fst)⟩⟩

theorem without_nil (s : Staging α) : s.without [] = s := by
  obtain ⟨slots⟩ := s
  exact congrArg mk (OrderedMap.ext (List.filter_eq_self.mpr fun e _ => by simp))

theorem ids_without (s : Staging α) (taken : List ObjectId) :
    (s.without taken).ids = s.ids.filter (· ∉ taken) := by
  simp [without, ids, OrderedMap.keys, List.filter_map, Function.comp_def]

theorem erase_without (s : Staging α) (taken : List ObjectId) (id : ObjectId) :
    (⟨(s.without taken).slots.erase id⟩ : Staging α) = s.without (taken ++ [id]) := by
  refine congrArg mk (OrderedMap.ext ?_)
  simp only [without, OrderedMap.erase, List.filter_filter]
  refine List.filter_congr fun e _ => ?_
  rw [Bool.eq_iff_iff]
  simp [and_comm]

theorem find?_without (s : Staging α) (taken : List ObjectId) (id : ObjectId) :
    (s.without taken).slots.find? id = if id ∈ taken then none else s.slots.find? id := by
  refine Option.ext fun slot => ?_
  rw [OrderedMap.find?_eq_some]
  simp only [without, List.mem_filter, decide_eq_true_eq]
  split
  · next h => simp [h]
  · next h => simp [h, OrderedMap.find?_eq_some]

/-- **An object is taken once**, if it is there and the view sees it. -/
theorem take_eq_ok {s s' : Staging α} {taken : List ObjectId} {view : α → Option β}
    {typeName : String} {id : ObjectId} {b : β} :
    take view typeName id (s.without taken) = .ok b s' ↔
      id ∉ taken ∧ s.get? view id = some b ∧ s' = s.without (taken ++ [id]) := by
  rw [take, get_bind, find?_without]
  constructor
  · -- every way to fail is a way not to be there for the view
    intro h
    by_cases hid : id ∈ taken
    · rw [if_pos hid] at h
      exact absurd h throw_ne_ok
    rw [if_neg hid] at h
    cases hs : s.slots.find? id with
    | none => rw [hs] at h; exact absurd h throw_ne_ok
    | some slot =>
        rw [hs] at h
        obtain ⟨⟨⟩, s₁, hset, h⟩ := bind_eq_ok.mp h
        cases hset
        cases ho : slot.object with
        | none => rw [ho] at h; exact absurd h throw_ne_ok
        | some a =>
            rw [ho] at h
            cases hv : view a with
            | none => simp only [hv] at h; exact absurd h throw_ne_ok
            | some b' =>
                simp only [hv] at h
                obtain ⟨rfl, rfl⟩ := pure_eq_ok.mp h
                exact ⟨hid, by rw [get?, object?, hs, Option.bind_some, ho, Option.bind_some, hv],
                  erase_without s taken id⟩
  · rintro ⟨hid, hg, rfl⟩
    obtain ⟨a, ho, hv⟩ := get?_eq_some.mp hg
    obtain ⟨slot, hs, hslot⟩ := Option.bind_eq_some_iff.mp ho
    rw [if_neg hid, hs]
    refine bind_eq_ok.mpr ⟨(), _, rfl, ?_⟩
    rw [hslot]
    simp only [hv]
    rw [erase_without]
    rfl

end Staging

end ParticleSim
