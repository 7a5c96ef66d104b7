import ParticleSim.Proofs.Registry
import ParticleSim.Proofs.Roster.Chains
import ParticleSim.Proofs.Simulation.Parts

/-!
# Simulation — What is registered and what is owned

Registration, ownership and lookup are kept by three different parts of a simulation.  The inventory
says what is owned, each object with its type tag; lookup agrees with it by construction
(`Simulation.store_tag`), and in a sound simulation the registry does, too (`Simulation.Sound`).

* `Simulation.Sound.tag?_eq`: what is registered is found under the same tag, and nothing else is
  found.
* `Simulation.Sound.orphans_eq_nil`: nothing is registered that is not owned.
* `Simulation.Sound.retuned`: the parts that behaviors change do not matter.
-/

namespace ParticleSim

namespace Roster

variable {F : Family} {l l' : Roster F}

/-- The members with their type tag. -/
def items (l : Roster F) : List (ObjectId × String) := l.members.map fun c => (c.object, F.tag)

theorem map_fst_items (l : Roster F) : l.items.map Prod.fst = l.members.map Component.object := by
  rw [items, List.map_map]
  rfl

theorem Retuned.items_eq (h : l.Retuned l') : l'.items = l.items := h.map_members fun _ _ => rfl

end Roster

namespace Simulation

variable {s s' : Simulation}

/-! ### The inventory -/

/-- The simulation, its control state and its lists, with their type tags. -/
def ownItems (s : Simulation) : List (ObjectId × String) :=
  [(s.object, simulationTag), (s.controlObject, controlTag),
    (s.boundaries.object, Family.boundary.listTag),
    (s.collisions.object, Family.collision.listTag),
    (s.emitters.object, Family.emitter.listTag)]

/-- Everything that a simulation owns, with its type tag. -/
def inventory (s : Simulation) : List (ObjectId × String) :=
  s.ownItems ++ Family.all.flatMap fun F => (s.list F).items

/-- The identities of what a simulation owns. -/
def owned (s : Simulation) : List ObjectId := s.inventory.map Prod.fst

theorem inventory_eq_map_parts (s : Simulation) :
    s.inventory = s.parts.map fun e => (e.1, e.2.tag) := by
  simp only [inventory, parts, List.map_append, List.map_flatMap, Roster.parts, List.map_map]
  rfl

theorem owned_eq_map_parts (s : Simulation) : s.owned = s.parts.map Prod.fst := by
  rw [owned, inventory_eq_map_parts, List.map_map]
  rfl

/-- Lookup finds what is in the inventory, under its tag. -/
theorem store_tag (s : Simulation) (id : ObjectId) :
    (s.store id).map LiveObject.tag = (s.inventory.find? fun e => e.1 = id).map Prod.snd := by
  rw [store_eq, inventory_eq_map_parts, List.find?_map, Option.map_map, Option.map_map]
  exact congrArg (Option.map · _) (funext fun e => e.2.live_tag)

/-- Exchanging the list of a family exchanges the items of its members. -/
theorem inventory_setList_perm {F : Family} {l : Roster F} (h : l.object = (s.list F).object) :
    (s.setList l).inventory.Perm (l.items ++ (s.setList (s.list F).clear).inventory) := by
  have hperm : ∀ a b c d : List (ObjectId × String),
      (a ++ (b ++ (c ++ d))).Perm (c ++ (a ++ (b ++ d))) :=
    fun a b c d => (((List.perm_append_comm_assoc b c d).append_left a).trans
      (List.perm_append_comm_assoc a c _))
  have hown : (s.setList l).ownItems = s.ownItems := by
    cases F <;> simp only [list] at h <;> simp only [ownItems, setList, h]
  have hown' : (s.setList (s.list F).clear).ownItems = s.ownItems := by cases F <;> rfl
  simp only [inventory, Family.all, List.flatMap_cons, List.flatMap_nil, List.append_nil, hown, hown']
  cases F with
  | boundary => exact hperm s.ownItems [] l.items _
  | collision => exact hperm s.ownItems s.boundaries.items l.items s.emitters.items
  | emitter =>
      show (s.ownItems ++ (s.boundaries.items ++ (s.collisions.items ++ l.items))).Perm
        (l.items ++ (s.ownItems ++ (s.boundaries.items ++ (s.collisions.items ++ []))))
      simpa using hperm s.ownItems (s.boundaries.items ++ s.collisions.items) l.items []

theorem inventory_perm (s : Simulation) (F : Family) :
    s.inventory.Perm ((s.list F).items ++ (s.setList (s.list F).clear).inventory) := by
  have h : s.setList (s.list F) = s := by cases F <;> rfl
  have hp := inventory_setList_perm (s := s) (l := s.list F) rfl
  rwa [h] at hp

/-! ### Soundness -/

/-- What is registered is what is owned, under the same tags; identities are below the cursor; and
every list is chained. -/
structure Sound (s : Simulation) : Prop where
  owns : s.registry.entries.entries.Perm s.inventory
  below : ∀ id ∈ s.registry.ids, id.val < s.registry.cursor
  chained : ∀ F, (s.list F).Chained

namespace Sound

/-- The registered objects are those that are owned. -/
theorem ids_perm (h : s.Sound) : s.registry.ids.Perm s.owned := h.owns.map Prod.fst

/-- Nothing is owned twice. -/
theorem nodup_owned (h : s.Sound) : s.owned.Nodup := h.ids_perm.nodup s.registry.nodup_ids

/-- **Registration and lookup agree.**  An object is found under the tag it is registered under, and
an identity that is not registered is not found. -/
theorem tag?_eq (h : s.Sound) (id : ObjectId) :
    s.registry.tag? id = (s.store id).map LiveObject.tag := by
  refine Option.ext fun tag => ?_
  rw [store_tag, OrderedMap.find?_fst_eq_some h.nodup_owned, Registry.tag?, OrderedMap.find?_eq_some]
  exact h.owns.mem_iff

theorem isSome_store (h : s.Sound) (id : ObjectId) :
    (s.store id).isSome = s.registry.contains id := by
  have htag := congrArg Option.isSome (h.tag?_eq id)
  rw [Option.isSome_map] at htag
  rw [← htag, Registry.tag?, OrderedMap.isSome_find?, Registry.contains]

/-- Nothing is registered that is not owned. -/
theorem orphans_eq_nil (h : s.Sound) : s.orphans = [] := by
  rw [orphans, Registry.orphans, List.filter_eq_nil_iff]
  intro id hid
  rw [h.isSome_store, Registry.contains_iff.mpr hid]
  simp

/-- The next identity is not registered. -/
theorem nextId_fresh (h : s.Sound) : s.registry.nextId ∉ s.registry.ids := by
  intro hid
  exact absurd (h.below _ hid) (UInt64.lt_irrefl _)

/-- A member is owned under the tag of its family. -/
theorem mem_inventory_of_member {F : Family} {c : Component F} (hc : c ∈ (s.list F).members) :
    (c.object, F.tag) ∈ s.inventory :=
  (s.inventory_perm F).mem_iff.mpr (List.mem_append_left _ (List.mem_map.mpr ⟨c, hc, rfl⟩))

/-- No list has a member with the next identity. -/
theorem not_contains_nextId (h : s.Sound) (F : Family) :
    (s.list F).contains s.registry.nextId = false := by
  rw [Roster.contains, List.any_eq_false]
  intro c hc
  rw [decide_eq_true_eq]
  intro e
  have hm : c.object ∈ s.owned := List.mem_map_of_mem (mem_inventory_of_member hc)
  exact h.nextId_fresh (e ▸ h.ids_perm.mem_iff.mpr hm)

/-- The members of a list are different objects. -/
theorem nodup_members (h : s.Sound) (F : Family) :
    ((s.list F).members.map Component.object).Nodup := by
  have hp := (s.inventory_perm F).map Prod.fst
  have hn := hp.nodup h.nodup_owned
  rw [List.map_append, Roster.map_fst_items] at hn
  exact (List.nodup_append.mp hn).1

end Sound

/-! ### What behaviors do not touch -/

/-- The registry is the same and so are the lists, up to the parameters of their members. -/
structure Retuned (s s' : Simulation) : Prop where
  registry : s'.registry = s.registry
  object : s'.object = s.object
  controlObject : s'.controlObject = s.controlObject
  lists : ∀ F, (s.list F).Retuned (s'.list F)

theorem Retuned.inventory_eq (h : s.Retuned s') : s'.inventory = s.inventory := by
  have hb : s'.boundaries.object = s.boundaries.object := (h.lists .boundary).object
  have hc : s'.collisions.object = s.collisions.object := (h.lists .collision).object
  have he : s'.emitters.object = s.emitters.object := (h.lists .emitter).object
  have hitems : ∀ F, (s'.list F).items = (s.list F).items := fun F => (h.lists F).items_eq
  simp only [inventory, ownItems, h.object, h.controlObject, hb, hc, he, hitems]

theorem Sound.retuned (hs : s.Sound) (h : s.Retuned s') : s'.Sound where
  owns := by rw [h.registry, h.inventory_eq]; exact hs.owns
  below := by rw [h.registry]; exact hs.below
  chained F := (hs.chained F).retuned (h.lists F)

/-- Exchanging a list for one that differs in parameters only. -/
theorem setList_retuned {F : Family} {l : Roster F} (h : (s.list F).Retuned l) :
    s.Retuned (s.setList l) := by
  refine ⟨by cases F <;> rfl, by cases F <;> rfl, by cases F <;> rfl, fun G => ?_⟩
  cases F <;> cases G <;> first | exact h | exact .refl _

end Simulation

end ParticleSim
