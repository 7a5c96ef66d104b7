import ParticleSim.Proofs.Registry
import Mathlib.Data.List.Range

/-!
# Checkpoint — Histories of a registry

A registry is asked to register objects and to unregister identities, in any order and also
identities that it does not know or has not handed out yet.  Its history (`Registry.history`) holds
what happened at each request: the identity that was handed out, or whether there was something to
forget.

The history decides everything: which identity is the next one, what is registered, in which order
and under which tags (`Registry.Faithful`).

* `Registry.history_faithful`: this holds of the histories of every registry whose objects lie below
  its cursor, up to any point at which the cursor has not run out of words.

An identity is forgotten only while it is registered.  To ask for that beforehand has no effect, so
an identity is not lost when it is handed out afterwards.
-/

namespace ParticleSim

namespace Registry

/-! ### Histories -/

/-- What can be asked of a registry. -/
inductive Request where
  | register (tag : String)
  | unregister (id : ObjectId)

/-- What has happened at a request. -/
inductive Event where
  | registered (id : ObjectId) (tag : String)
  /-- An identity was to be forgotten; `found` says whether it was registered. -/
  | unregistered (id : ObjectId) (found : Bool)
deriving DecidableEq

/-- The tag that an object is to be registered under. -/
def Request.tag? : Request → Option String
  | register tag => some tag
  | unregister _ => none

/-- The entry that has been made. -/
def Event.made? : Event → Option (ObjectId × String)
  | registered id tag => some (id, tag)
  | unregistered _ _ => none

/-- The identity that has been forgotten. -/
def Event.forgotten? : Event → Option ObjectId
  | unregistered id true => some id
  | _ => none

/-- The tags of the requests to register, in order. -/
def tags (requests : List Request) : List String := requests.filterMap Request.tag?

/-- What has happened to a registry, and what it is now. -/
structure History where
  events : List Event
  registry : Registry

namespace History

/-- The entries that have been made, in order. -/
def made (h : History) : List (ObjectId × String) := h.events.filterMap Event.made?

/-- The identities that have been forgotten. -/
def forgotten (h : History) : List ObjectId := h.events.filterMap Event.forgotten?

/-- One request more. -/
def meet (h : History) : Request → History
  | .register tag => ⟨h.events ++ [.registered h.registry.nextId tag], h.registry.register tag⟩
  | .unregister id =>
    let (found, registry) := h.registry.unregister id
    ⟨h.events ++ [.unregistered id found], registry⟩

end History

/-- The history of a registry that meets some requests. -/
def history (r : Registry) (requests : List Request) : History :=
  requests.foldl History.meet ⟨[], r⟩

variable {start : Registry} {requests : List Request} {h : History} {tag : String} {id : ObjectId}

/-! ### One request more -/

theorem history_concat (r : Registry) (requests : List Request) (q : Request) :
    r.history (requests ++ [q]) = (r.history requests).meet q := by
  rw [history, List.foldl_append]
  rfl

theorem tags_concat_register (requests : List Request) (tag : String) :
    tags (requests ++ [.register tag]) = tags requests ++ [tag] := by
  rw [tags, List.filterMap_append]
  rfl

theorem tags_concat_unregister (requests : List Request) (id : ObjectId) :
    tags (requests ++ [.unregister id]) = tags requests := by
  rw [tags, List.filterMap_append]
  exact List.append_nil _

theorem made_register (h : History) (tag : String) :
    (h.meet (.register tag)).made = h.made ++ [(h.registry.nextId, tag)] := by
  rw [History.made, History.meet, List.filterMap_append]
  rfl

theorem forgotten_register (h : History) (tag : String) :
    (h.meet (.register tag)).forgotten = h.forgotten := by
  rw [History.forgotten, History.meet, List.filterMap_append]
  exact List.append_nil _

theorem made_unregister (h : History) (id : ObjectId) :
    (h.meet (.unregister id)).made = h.made := by
  rw [History.made, History.meet, unregister, List.filterMap_append]
  exact List.append_nil _

theorem forgotten_unregister (h : History) (id : ObjectId) :
    (h.meet (.unregister id)).forgotten =
      if id ∈ h.registry.ids then h.forgotten ++ [id] else h.forgotten := by
  rw [History.forgotten, History.meet, unregister, List.filterMap_append]
  split
  · next hid =>
    rw [contains_iff.mpr hid]
    rfl
  · next hid =>
    rw [Bool.eq_false_iff.mpr fun hc => hid (contains_iff.mp hc)]
    exact List.append_nil _

/-! ### What a history tells -/

/-- What a history tells of a registry, and what carries over from request to request. -/
structure Told (start : Registry) (requests : List Request) (h : History) : Prop where
  /-- Identities are handed out one after the other, from the first cursor on. -/
  handed : h.made.map (fun e => e.1.val.toNat) =
    List.range' start.cursor.toNat (tags requests).length
  tags : h.made.map Prod.snd = tags requests
  cursor : h.registry.cursor.toNat = start.cursor.toNat + (Registry.tags requests).length
  /-- Only who has been registered has been forgotten. -/
  forgotten : ∀ id ∈ h.forgotten, id ∈ start.ids ++ h.made.map Prod.fst
  /-- The first entries come first, then those made since, and whoever is forgotten is left out. -/
  entries : h.registry.entries.entries =
    (start.entries.entries ++ h.made).filter fun e => e.1 ∉ h.forgotten

theorem told_nil (start : Registry) : start.Told [] (start.history []) :=
  ⟨rfl, rfl, rfl, by simp [history, History.forgotten],
    by simp [history, History.forgotten, History.made]⟩

/-- Identities that have been handed out lie between the first cursor and the present one. -/
theorem Told.bounds (ht : start.Told requests h) {e : ObjectId × String} (he : e ∈ h.made) :
    start.cursor.toNat ≤ e.1.val.toNat ∧ e.1.val.toNat < h.registry.cursor.toNat := by
  have hm : e.1.val.toNat ∈ h.made.map fun e => e.1.val.toNat := List.mem_map_of_mem he
  rwa [ht.handed, List.mem_range'_1, ← ht.cursor] at hm

/-- The next identity is new. -/
theorem Told.nextId_not_mem (ht : start.Told requests h)
    (below : ∀ id ∈ start.ids, id.val < start.cursor) :
    h.registry.nextId ∉ start.ids ++ h.made.map Prod.fst := by
  intro hm
  rcases List.mem_append.mp hm with hid | hid
  · have hle : start.cursor.toNat ≤ h.registry.nextId.val.toNat := ht.cursor ▸ Nat.le_add_right _ _
    exact absurd hle (Nat.not_le.mpr (UInt64.lt_iff_toNat_lt.mp (below _ hid)))
  · obtain ⟨e, he, heq⟩ := List.mem_map.mp hid
    have hlt := (ht.bounds he).2
    rw [heq] at hlt
    exact Nat.lt_irrefl _ hlt

/-- Nobody has been registered twice. -/
theorem Told.nodup (ht : start.Told requests h) (below : ∀ id ∈ start.ids, id.val < start.cursor) :
    (start.ids ++ h.made.map Prod.fst).Nodup := by
  have hmade : (h.made.map Prod.fst).Nodup := by
    refine List.Nodup.of_map (fun id : ObjectId => id.val.toNat) ?_
    rw [List.map_map]
    exact ht.handed ▸ List.nodup_range'
  refine List.nodup_append.mpr ⟨start.nodup_ids, hmade, fun id hid id' hid' heq => ?_⟩
  obtain ⟨e, he, rfl⟩ := List.mem_map.mp hid'
  have hlt := UInt64.lt_iff_toNat_lt.mp (below id hid)
  rw [heq] at hlt
  exact absurd (ht.bounds he).1 (Nat.not_le.mpr hlt)

theorem Told.ids_eq (ht : start.Told requests h) :
    h.registry.ids = (start.ids ++ h.made.map Prod.fst).filter (· ∉ h.forgotten) := by
  rw [ids, OrderedMap.keys, ht.entries, ids, OrderedMap.keys, ← List.map_append, List.filter_map]
  rfl

theorem Told.mem_ids_iff (ht : start.Told requests h) :
    id ∈ h.registry.ids ↔ id ∈ start.ids ++ h.made.map Prod.fst ∧ id ∉ h.forgotten := by
  rw [ht.ids_eq, List.mem_filter, decide_eq_true_eq]

theorem Told.register (ht : start.Told requests h)
    (below : ∀ id ∈ start.ids, id.val < start.cursor)
    (room : h.registry.cursor.toNat + 1 < UInt64.size) (tag : String) :
    start.Told (requests ++ [.register tag]) (h.meet (.register tag)) := by
  have hnew := ht.nextId_not_mem below
  have hgone : h.registry.nextId ∉ h.forgotten := fun hm => hnew (ht.forgotten _ hm)
  refine ⟨?_, ?_, ?_, fun id hid => ?_, ?_⟩
  · rw [made_register, List.map_append, ht.handed, tags_concat_register, List.length_append,
      List.length_singleton, List.range'_concat, Nat.one_mul, ← ht.cursor]
    rfl
  · rw [made_register, List.map_append, ht.tags, tags_concat_register]
    rfl
  · have hone : (h.registry.cursor + 1).toNat = h.registry.cursor.toNat + 1 := by
      rw [UInt64.toNat_add]
      exact Nat.mod_eq_of_lt room
    rw [tags_concat_register, List.length_append, ← Nat.add_assoc, ← ht.cursor]
    exact hone
  · rw [forgotten_register] at hid
    rw [made_register, List.map_append, ← List.append_assoc]
    exact List.mem_append_left _ (ht.forgotten id hid)
  · rw [made_register, forgotten_register, ← List.append_assoc, List.filter_append, ← ht.entries,
      List.filter_singleton, decide_eq_true hgone]
    exact entries_register tag fun hm => hnew (ht.mem_ids_iff.mp hm).1

theorem Told.unregister (ht : start.Told requests h) (id : ObjectId) :
    start.Told (requests ++ [.unregister id]) (h.meet (.unregister id)) := by
  refine ⟨?_, ?_, ?_, ?_, ?_⟩
  · rw [made_unregister, tags_concat_unregister, ht.handed]
  · rw [made_unregister, tags_concat_unregister, ht.tags]
  · rw [tags_concat_unregister, ← ht.cursor]
    rfl
  · intro id' hid'
    rw [forgotten_unregister] at hid'
    rw [made_unregister]
    split at hid'
    · next hid =>
      rcases List.mem_append.mp hid' with hid' | hid'
      · exact ht.forgotten id' hid'
      · rw [List.mem_singleton.mp hid']
        exact (ht.mem_ids_iff.mp hid).1
    · exact ht.forgotten id' hid'
  · rw [made_unregister, forgotten_unregister]
    show (h.registry.forget id).entries.entries = _
    split
    · show h.registry.entries.entries.filter (fun e => decide (e.1 ≠ id)) = _
      rw [ht.entries, List.filter_filter]
      refine List.filter_congr fun e _ => ?_
      rw [Bool.eq_iff_iff]
      simp [and_comm]
    · next hid =>
      rw [entries_forget_of_not_mem hid, ht.entries]

/-- A history up to where the cursor stays a word. -/
theorem told_history (below : ∀ id ∈ start.ids, id.val < start.cursor)
    (room : start.cursor.toNat + (tags requests).length < UInt64.size) :
    start.Told requests (start.history requests) := by
  induction requests using List.reverseRecOn with
  | nil => exact told_nil start
  | append_singleton requests q ih =>
      rw [history_concat]
      cases q with
      | register tag =>
          rw [tags_concat_register, List.length_append, List.length_singleton] at room
          have ht := ih (by omega)
          exact ht.register below (by rw [ht.cursor]; omega) tag
      | unregister id =>
          rw [tags_concat_unregister] at room
          exact (ih room).unregister id

/-! ### Histories of a registry of given entries -/

/-- A registry is what its history says. -/
structure Faithful (start : Registry) (requests : List Request) (h : History) : Prop
    extends start.Told requests h where
  /-- None that is handed out has been registered before, be it forgotten by now or not. -/
  fresh : (start.ids ++ h.made.map Prod.fst).Nodup
  /-- An object is found to be registered if it has been and has not been forgotten. -/
  found : ∀ id, (h.registry.unregister id).1 = true ↔
    id ∈ start.ids ++ h.made.map Prod.fst ∧ id ∉ h.forgotten
  orphans : ∀ owned : ObjectId → Bool, h.registry.orphans owned =
    (start.ids ++ h.made.map Prod.fst).filter fun id => id ∉ h.forgotten ∧ owned id = false

theorem Told.faithful (ht : start.Told requests h)
    (below : ∀ id ∈ start.ids, id.val < start.cursor) : start.Faithful requests h where
  toTold := ht
  fresh := ht.nodup below
  found id := contains_iff.trans ht.mem_ids_iff
  orphans owned := by
    rw [Registry.orphans, ht.ids_eq, List.filter_filter]
    refine List.filter_congr fun id _ => ?_
    rw [Bool.eq_iff_iff]
    simp [and_comm]

/-- **A registry is what its history says**, whatever it is asked, if the entries it was made of lie
below its cursor and the cursor never runs out of words.  An entry whose identity comes again keeps
its place and takes the last tag; without entries, and with cursor 0, it is an empty registry that
the history begins with. -/
theorem history_faithful (pairs : List (ObjectId × String)) (cursor : UInt64)
    (below : ∀ e ∈ pairs, e.1.val < cursor) (requests : List Request)
    (room : cursor.toNat + (tags requests).length < UInt64.size) :
    (ofList pairs cursor).Faithful requests ((ofList pairs cursor).history requests) ∧
      (ofList pairs cursor).ids = (pairs.map Prod.fst).eraseDups ∧
      (∀ id, (ofList pairs cursor).tag? id =
        (pairs.reverse.find? fun e => e.1 = id).map Prod.snd) ∧
      ofList [] 0 = empty := by
  have hids : (ofList pairs cursor).ids = (pairs.map Prod.fst).eraseDups :=
    OrderedMap.keys_ofList pairs
  have hbelow : ∀ id ∈ (ofList pairs cursor).ids, id.val < cursor := by
    intro id hid
    rw [hids, List.mem_eraseDups] at hid
    obtain ⟨e, he, rfl⟩ := List.mem_map.mp hid
    exact below e he
  exact ⟨(told_history hbelow room).faithful hbelow, hids, OrderedMap.find?_ofList pairs, rfl⟩

/-- An identity is unregistered before it is handed out, and another one twice. -/
def earlyRequests : List Request :=
  [.unregister ⟨10⟩, .register "c", .unregister ⟨2⟩, .register "d", .unregister ⟨2⟩]

/-- What comes too early forgets nothing. -/
theorem history_faithful_early :
    (∀ e ∈ [((⟨4⟩ : ObjectId), "b"), (⟨2⟩, "a")], e.1.val < (9 : UInt64)) ∧
      (9 : UInt64).toNat + (tags earlyRequests).length < UInt64.size ∧
      ((ofList [(⟨4⟩, "b"), (⟨2⟩, "a")] 9).history earlyRequests).registry.entries.entries =
        [(⟨4⟩, "b"), (⟨9⟩, "c"), (⟨10⟩, "d")] := by
  have below : ∀ e ∈ [((⟨4⟩ : ObjectId), "b"), (⟨2⟩, "a")], e.1.val < (9 : UInt64) := by decide
  have room : (9 : UInt64).toNat + (tags earlyRequests).length < UInt64.size := by decide
  have faithful := (history_faithful _ 9 below earlyRequests room).1
  exact ⟨below, room, faithful.entries.trans (by decide)⟩

end Registry

end ParticleSim
