import ParticleSim.Proofs.Checkpoint.Staging

/-!
# Checkpoint — The pass over staged objects

`Staging.connectAll` calls the staged objects one after the other, in stream order.  An object is
out of its slot while it is called, so it finds the others in the table and not itself; then it goes
back into its slot, whatever came of the call.

A pass is told as its calls (`Staging.Call`), each with the table that the object was called with
and with what the object made of it.

* `Staging.Call.Follows`: what a call finds when others have been made before it.
* `Staging.Kept`: what calls leave of a table, which is everything but the objects called.
* `Staging.connectAll_calls`: every pass is such calls, one for each object up to the first failure,
  and it keeps the table, whether it succeeds or not.

The objects and what they do when they are called are arbitrary.
-/

namespace ParticleSim

namespace Staging

variable {α β : Type}

/-! ### What a table shows -/

/-- The identities and their tags, place by place. -/
def labels (s : Staging α) : List (ObjectId × String) :=
  s.slots.entries.map fun e => (e.1, e.2.tag)

/-- The identities whose objects are in their slots, in stream order. -/
def present (s : Staging α) : List ObjectId := s.ids.filter fun id => (s.object? id).isSome

theorem ids_eq_map_labels (s : Staging α) : s.ids = s.labels.map Prod.fst := by
  rw [labels, List.map_map]
  rfl

theorem tag?_eq_find?_labels (s : Staging α) (x : ObjectId) :
    s.tag? x = (s.labels.find? fun l => l.1 = x).map Prod.snd := by
  rw [tag?, OrderedMap.find?, labels, List.find?_map, Option.map_map, Option.map_map]
  rfl

theorem labels_setObject (s : Staging α) (id : ObjectId) (object : Option α) :
    (s.setObject id object).labels = s.labels := by
  simp only [labels, setObject, OrderedMap.modify, OrderedMap.mapValues, List.map_map]
  refine List.map_congr_left fun e _ => ?_
  simp only [Function.comp_apply]
  split <;> rfl

theorem nodup_present (s : Staging α) : s.present.Nodup := s.slots.nodup.filter _

theorem resolve_eq_ok {s : Staging α} {view : α → Option β} {source target : ObjectId} {b : β} :
    s.resolve view source target = .ok b ↔ ∃ a, s.object? target = some a ∧ view a = some b := by
  rw [← get?_eq_some, resolve]
  cases s.get? view target <;> simp

theorem resolve_of_object?_none {s : Staging α} {target : ObjectId} (h : s.object? target = none)
    (view : α → Option β) (source : ObjectId) :
    s.resolve view source target = .error (.unresolved source target) := by
  rw [resolve, get?, h]
  rfl

theorem resolve_congr {s s' : Staging α} {target : ObjectId}
    (h : s'.object? target = s.object? target) (view : α → Option β) (source : ObjectId) :
    s'.resolve view source target = s.resolve view source target := by
  rw [resolve, resolve, get?, get?, h]

/-! ### Calls -/

/-- One call of an object. -/
structure Call (α : Type) where
  id : ObjectId
  /-- The table that the object is called with. -/
  seen : Staging α
  /-- The object as it is called. -/
  object : α
  outcome : EStateM.Result CheckpointError α Unit

namespace Call

/-- The object as a call leaves it. -/
def left (c : Call α) : α :=
  match c.outcome with
  | .ok _ a => a
  | .error _ a => a

def failure? (c : Call α) : Option CheckpointError :=
  match c.outcome with
  | .ok _ _ => none
  | .error e _ => some e

/-- A call in a pass over `s`, when the calls `done` have been made before it. -/
structure Follows (connect : Connect α) (s : Staging α) (done : List (Call α)) (c : Call α) :
    Prop where
  /-- The object is called as it was staged. -/
  staged : s.object? c.id = some c.object
  made : connect c.id c.seen c.object = c.outcome
  /-- Every identity is in its place with its tag, the object's own included. -/
  labels : c.seen.labels = s.labels
  tag : ∀ x, c.seen.tag? x = s.tag? x
  /-- The object does not find itself. -/
  itself : ∀ {β : Type} (view : α → Option β),
    c.seen.resolve view c.id c.id = .error (.unresolved c.id c.id)
  /-- It finds what has been called before it as that call has left it. -/
  earlier : ∀ d ∈ done, ∀ {β : Type} (view : α → Option β) (b : β),
    c.seen.resolve view c.id d.id = .ok b ↔ view d.left = some b
  /-- It finds all the others as they were staged. -/
  later : ∀ x, x ≠ c.id → x ∉ done.map Call.id → ∀ {β : Type} (view : α → Option β),
    c.seen.resolve view c.id x = s.resolve view c.id x

end Call

/-- What calls leave of a table. -/
structure Kept (s : Staging α) (calls : List (Call α)) (s' : Staging α) : Prop where
  labels : s'.labels = s.labels
  called : ∀ c ∈ calls, s'.object? c.id = some c.left
  others : ∀ x, x ∉ calls.map Call.id → s'.object? x = s.object? x

namespace Kept

variable {connect : Connect α} {s s' : Staging α} {done : List (Call α)} {c : Call α}

theorem refl (s : Staging α) : s.Kept [] s := ⟨rfl, by simp, fun _ _ => rfl⟩

theorem ids_eq (h : s.Kept done s') : s'.ids = s.ids := by
  rw [ids_eq_map_labels, ids_eq_map_labels, h.labels]

theorem tag?_eq (h : s.Kept done s') (x : ObjectId) : s'.tag? x = s.tag? x := by
  rw [tag?_eq_find?_labels, tag?_eq_find?_labels, h.labels]

/-- Of objects that were staged, none is lost. -/
theorem present_eq (h : s.Kept done s') (hdone : ∀ d ∈ done, s.object? d.id = some d.object) :
    s'.present = s.present := by
  rw [present, present, h.ids_eq]
  refine List.filter_congr fun x _ => ?_
  by_cases hx : x ∈ done.map Call.id
  · obtain ⟨d, hd, rfl⟩ := List.mem_map.mp hx
    rw [h.called d hd, hdone d hd]
    rfl
  · rw [h.others x hx]

/-- What the next object finds when it is taken out of its slot. -/
theorem follows (h : s.Kept done s') (hid : c.id ∉ done.map Call.id)
    (staged : s.object? c.id = some c.object) (seen : c.seen = s'.setObject c.id none)
    (made : connect c.id c.seen c.object = c.outcome) : c.Follows connect s done := by
  have hmem : c.id ∈ s'.ids := h.ids_eq ▸ mem_ids_of_object? staged
  have hobject := object?_setObject hmem none
  refine ⟨staged, made, ?_, fun x => ?_, fun view => ?_, fun d hd _ view b => ?_,
    fun x hx hdone _ view => ?_⟩
  · rw [seen, labels_setObject, h.labels]
  · rw [seen, tag?_setObject, h.tag?_eq]
  · rw [seen]
    exact resolve_of_object?_none (by rw [hobject, if_pos rfl]) view c.id
  · have hne : d.id ≠ c.id := ne_of_mem_of_not_mem (List.mem_map_of_mem hd) hid
    rw [seen, resolve_eq_ok, hobject, if_neg hne, h.called d hd]
    simp
  · rw [seen]
    exact resolve_congr (by rw [hobject, if_neg hx, h.others x hdone]) view c.id

/-- The object goes back into its slot. -/
theorem concat (h : s.Kept done s') (hid : c.id ∉ done.map Call.id)
    (staged : s.object? c.id = some c.object) :
    s.Kept (done ++ [c]) (s'.setObject c.id (some c.left)) := by
  have hmem : c.id ∈ s'.ids := h.ids_eq ▸ mem_ids_of_object? staged
  have hobject := object?_setObject hmem (some c.left)
  refine ⟨(labels_setObject _ _ _).trans h.labels, fun d hd => ?_, fun x hx => ?_⟩
  · rcases List.mem_append.mp hd with hd | hd
    · rw [hobject, if_neg (ne_of_mem_of_not_mem (List.mem_map_of_mem hd) hid)]
      exact h.called d hd
    · rw [List.mem_singleton.mp hd, hobject, if_pos rfl]
  · rw [List.map_append, List.mem_append, not_or] at hx
    rw [hobject, if_neg (by simpa using hx.2)]
    exact h.others x hx.1

end Kept

/-! ### Passes -/

/-- Calls that can have been made in a pass over `s`, each when the ones before it had been made. -/
def Calls (connect : Connect α) (s : Staging α) (calls : List (Call α)) : Prop :=
  ∀ done c rest, calls = done ++ c :: rest → c.Follows connect s done

variable {connect : Connect α} {s s' : Staging α} {calls done : List (Call α)} {c : Call α}

theorem calls_nil (connect : Connect α) (s : Staging α) : Calls connect s [] := by
  intro done c rest h
  exact absurd h (by simp)

theorem Calls.concat (h : Calls connect s calls) (hc : c.Follows connect s calls) :
    Calls connect s (calls ++ [c]) := by
  intro done d rest heq
  -- the call is the last one or one of those before
  rcases rest.eq_nil_or_concat with rfl | ⟨rest, d', rfl⟩
  · obtain ⟨rfl, hd⟩ := List.append_inj' heq rfl
    cases hd
    exact hc
  · rw [List.concat_eq_append, ← List.cons_append, ← List.append_assoc] at heq
    exact h done d rest (List.append_inj' heq rfl).1

theorem Calls.staged (h : Calls connect s calls) (hc : c ∈ calls) :
    s.object? c.id = some c.object := by
  obtain ⟨done, rest, heq⟩ := List.append_of_mem hc
  exact (h done c rest heq).staged

/-- How a pass over `s` ends: when every object has been called, or with the first failure. -/
inductive Ends (s : Staging α) :
    List (Call α) → EStateM.Result CheckpointError (Staging α) Unit → Staging α → Prop where
  | ok {calls : List (Call α)} {s' : Staging α} (all : calls.map Call.id = s.present)
      (fine : ∀ c ∈ calls, c.failure? = none) : Ends s calls (.ok () s') s'
  | error {done : List (Call α)} {c : Call α} {e : CheckpointError} {s' : Staging α}
      (fine : ∀ d ∈ done, d.failure? = none) (failure : c.failure? = some e) :
      Ends s (done ++ [c]) (.error e s') s'

/-- A pass over `s` that has come past some identities without a failure, with the calls that it has
made and the table as it is by now. -/
structure Underway (connect : Connect α) (s : Staging α) (passed : List ObjectId)
    (done : List (Call α)) (cur : Staging α) : Prop where
  called : done.map Call.id = passed.filter fun id => (s.object? id).isSome
  calls : Calls connect s done
  fine : ∀ d ∈ done, d.failure? = none
  kept : s.Kept done cur

namespace Underway

variable {passed ids : List ObjectId} {cur : Staging α} {id : ObjectId} {a : α}

theorem start (connect : Connect α) (s : Staging α) : Underway connect s [] [] s :=
  ⟨rfl, calls_nil connect s, by simp, .refl s⟩

/-- Who is still to come has not been called. -/
theorem not_called (h : Underway connect s passed done cur) (hids : s.ids = passed ++ id :: ids) :
    id ∉ done.map Call.id := by
  rw [h.called]
  intro hm
  have hn : (passed ++ id :: ids).Nodup := hids ▸ s.slots.nodup
  exact List.disjoint_of_nodup_append hn (List.mem_of_mem_filter hm) List.mem_cons_self

/-- An empty slot is passed over. -/
theorem skip (h : Underway connect s passed done cur) (ho : s.object? id = none) :
    Underway connect s (passed ++ [id]) done cur := by
  refine ⟨?_, h.calls, h.fine, h.kept⟩
  rw [List.filter_append, h.called]
  simp [ho]

theorem called_concat (h : Underway connect s passed done cur) (hid : c.id = id)
    (ho : s.object? id = some a) :
    (done ++ [c]).map Call.id = (passed ++ [id]).filter fun id => (s.object? id).isSome := by
  rw [List.map_append, List.filter_append, h.called]
  simp [ho, hid]

end Underway

/-- The rest of a pass. -/
theorem exists_calls_connectEach {passed ids : List ObjectId} {cur : Staging α}
    (h : Underway connect s passed done cur) (hids : s.ids = passed ++ ids) :
    ∃ calls s', calls.map Call.id <+: s.present ∧ Calls connect s calls ∧
      s.Ends calls (connectEach connect ids cur) s' ∧ s.Kept calls s' := by
  induction ids generalizing passed done cur with
  | nil =>
      have hall : done.map Call.id = s.present := by
        rw [h.called, present, hids, List.append_nil]
      exact ⟨done, cur, hall ▸ List.prefix_rfl, h.calls, .ok hall h.fine, h.kept⟩
  | cons id ids ih =>
      have hids' : s.ids = (passed ++ [id]) ++ ids := by rw [hids, List.append_assoc]; rfl
      have hnew := h.not_called hids
      rw [connectEach_cons, h.kept.others id hnew]
      cases ho : s.object? id with
      | none => exact ih (h.skip ho) hids'
      | some a =>
          simp only
          obtain ⟨outcome, hout⟩ : ∃ outcome, connect id (cur.setObject id none) a = outcome :=
            ⟨_, rfl⟩
          let c : Call α := ⟨id, cur.setObject id none, a, outcome⟩
          have hcalls : Calls connect s (done ++ [c]) :=
            h.calls.concat (h.kept.follows hnew ho rfl hout)
          have hkept : s.Kept (done ++ [c]) (cur.setObject id (some c.left)) :=
            h.kept.concat hnew ho
          have hcalled := h.called_concat (c := c) rfl ho
          rw [hout]
          cases outcome with
          | ok _ _ =>
              refine ih ⟨hcalled, hcalls, fun d hd => ?_, hkept⟩ hids'
              rcases List.mem_append.mp hd with hd | hd
              · exact h.fine d hd
              · rw [List.mem_singleton.mp hd]
                rfl
          | error e _ =>
              refine ⟨done ++ [c], _, ?_, hcalls, .error h.fine rfl, hkept⟩
              rw [hcalled, present, hids', List.filter_append _ ids]
              exact List.prefix_append _ _

/-- **A pass loses nothing**, whatever the objects are and do.  It calls the objects in stream
order, none twice, and ends when all of them have been called or with the first failure, which is
its own.  Whoever is called finds all objects but itself, those before it as their calls have left
them and those behind it as they were staged, and all tags with its own among them.  After the pass
every identity is in its place with its tag and its object: those that have been called as their
calls have left them, the others as they were. -/
theorem connectAll_calls (connect : Connect α) (s : Staging α) :
    ∃ calls s',
      (calls.map Call.id <+: s.present ∧ (calls.map Call.id).Nodup) ∧
      (∀ done c rest, calls = done ++ c :: rest → c.Follows connect s done) ∧
      s.Ends calls (connectAll connect s) s' ∧
      s.Kept calls s' ∧ s'.present = s.present := by
  obtain ⟨calls, s', order, hcalls, ends, kept⟩ :=
    exists_calls_connectEach (.start connect s) (List.nil_append s.ids).symm
  exact ⟨calls, s', ⟨order, order.sublist.nodup s.nodup_present⟩, hcalls, ends, kept,
    kept.present_eq fun _ hd => hcalls.staged hd⟩

end Staging

end ParticleSim
