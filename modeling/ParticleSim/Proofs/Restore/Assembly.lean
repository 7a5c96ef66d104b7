import ParticleSim.Host.Session
import ParticleSim.Proofs.Restore.Connecting
import ParticleSim.Proofs.Simulation.Inventory

/-!
# Restores — Putting a simulation together

A restore returns a simulation exactly when the staged objects are its parts and nothing else, and
its lists are chained (`Staging.Holds`, `Host.connectStream_eq_ok`); so what is staged determines
the simulation, and a simulation can always be put together from its parts.
-/

namespace ParticleSim

/-- The staged objects are the parts of a simulation with chained lists, and nothing else. -/
structure Staging.Holds (st : Staging Staged) (s : Simulation) : Prop where
  parts : ∀ e ∈ s.parts, st.object? e.1 = some e.2
  ids : st.ids.Perm s.owned
  chained : ∀ F, (s.list F).Chained

/-! ### One list -/

section Connected

variable {F : Family} {st st' : Staging Staged}

/-- What is there after all objects have connected has connected. -/
theorem Staged.connected_of_object? (hf : st.Fresh)
    (hall : Staging.connectAll Staged.connect st = .ok () st') {id : ObjectId} {o' : Staged}
    (h : st'.object? id = some o') :
    ∃ o, st.object? id = some o ∧ Staged.connect id st o = .ok () o' := by
  obtain ⟨hids, -, hobject⟩ := Staged.of_connectAll hall
  obtain ⟨o, ho⟩ := hf.exists_object? (hids ▸ Staging.mem_ids_of_object? h)
  obtain ⟨o₂, hc, ho₂⟩ := hobject id o ho
  rw [h, Option.some.injEq] at ho₂
  exact ⟨o, ho, ho₂ ▸ hc⟩

/-- All but the lists are as they were before. -/
theorem Staged.object?_iff (hf : st.Fresh)
    (hall : Staging.connectAll Staged.connect st = .ok () st') {id : ObjectId} {o : Staged}
    (hl : ∀ F l, o ≠ .roster F l) : st'.object? id = some o ↔ st.object? id = some o := by
  constructor
  · intro h
    obtain ⟨o₀, ho, hc⟩ := Staged.connected_of_object? hf hall h
    rwa [Staged.eq_of_connect hc hl]
  · intro h
    obtain ⟨o', hc, ho'⟩ := (Staged.of_connectAll hall).2.2 id o h
    have htag := Staged.tag_of_connect hc
    rcases o with ⟨F, c⟩ | ⟨F, l⟩ | state | r
    · rwa [(Staged.connect_component.mp hc).2] at ho'
    · exact absurd rfl (hl F l)
    · rwa [Staged.connect_control.mp hc] at ho'
    · rwa [(Staged.connect_simulation.mp hc).2.2.2.2] at ho'

theorem Staged.get?_component_iff (hf : st.Fresh)
    (hall : Staging.connectAll Staged.connect st = .ok () st') {id : ObjectId} {c : Component F} :
    st'.get? (Staged.component? F) id = some c ↔ st.get? (Staged.component? F) id = some c := by
  rw [Staged.get?_component, Staged.get?_component]
  exact Staged.object?_iff hf hall fun G l h => by cases h

/-- Components that are found under their identities are known by these. -/
theorem Staged.eq_of_map_object_eq {view : Staged → Option (Component F)} {cs cs' : List (Component F)}
    (h : ∀ c ∈ cs, st.get? view c.object = some c) (h' : ∀ c ∈ cs', st.get? view c.object = some c)
    (e : cs.map Component.object = cs'.map Component.object) : cs = cs' := by
  have hsome : ∀ {cs : List (Component F)}, (∀ c ∈ cs, st.get? view c.object = some c) →
      (cs.map Component.object).map (st.get? view) = cs.map some := by
    intro cs h
    rw [List.map_map]
    exact List.map_congr_left h
  have he := (hsome h).symm.trans ((congrArg _ e).trans (hsome h'))
  exact List.map_injective_iff.mpr ((fun _ _ => Option.some.inj)) he

/-- The list of a family is staged with its members. -/
structure Simulation.ListHeld (st : Staging Staged) (l : Roster F) : Prop where
  record : st.object? l.object = some (.roster F l.record)
  members : ∀ c ∈ l.members, st.object? c.object = some (.component F c)
  size : l.size < UInt64.size
  chained : l.Chained

/-- The record of a list that is staged finds its members. -/
theorem Roster.connect_record (hf : st.Fresh) {l : Roster F} (hl : Simulation.ListHeld st l) :
    Staged.connect l.object st (.roster F l.record) =
      .ok () (.roster F { l.record with members := l.members.map Component.object }) := by
  have hview : ∀ object c, st.get? (Staged.component? F) object = some c → c.object = object :=
    fun _ _ => Staged.object_of_get?_component hf
  refine Staged.connect_roster.mpr ⟨_, (RosterRecord.connect_eq_ok l hview).mpr
    ⟨l.members, ?_, rfl, ?_, (Roster.chained_iff.mp hl.chained).2, rfl⟩, rfl⟩
  · exact (UInt64.toNat_ofNat_of_lt' hl.size).symm
  · exact fun c hc => Staged.get?_component.mpr (hl.members c hc)

/-- **A list is taken out with the members that it has found**, when they are chained. -/
theorem Simulation.takeList_eq_ok (hf : st.Fresh)
    (hall : Staging.connectAll Staged.connect st = .ok () st') {object : ObjectId}
    {place : ListInstance} {taken : List ObjectId} (ht : taken.Nodup) {l : Roster F}
    {st₁ : Staging Staged} :
    Simulation.takeList F object place (st'.without taken) = .ok l st₁ ↔
      l.object = object ∧ l.place = place ∧ ListHeld st l ∧
        (taken ++ object :: l.members.map Component.object).Nodup ∧
        st₁ = st'.without (taken ++ object :: l.members.map Component.object) := by
  have hview : ∀ object c, st.get? (Staged.component? F) object = some c → c.object = object :=
    fun _ _ => Staged.object_of_get?_component hf
  have hview' : ∀ object c, st'.get? (Staged.component? F) object = some c → c.object = object :=
    fun object c h => hview object c ((Staged.get?_component_iff hf hall).mp h)
  have hempty : ∀ object version, (⟨object, place, [], version⟩ : Roster F).Numbered :=
    fun _ _ i c h => by simp at h
  refine bind_eq_ok.trans ?_
  constructor
  · rintro ⟨r, st₂, hr, h⟩
    obtain ⟨hnot, hget, rfl⟩ := Staging.take_eq_ok.mp hr
    have ht' : (taken ++ [object]).Nodup :=
      List.nodup_append.mpr ⟨ht, by simp, by
        intro a ha b hb
        rw [List.mem_singleton.mp hb]
        exact ne_of_mem_of_not_mem ha hnot⟩
    obtain ⟨cs, hobjects, hcs, hn, rfl, hnum, rfl⟩ :=
      (RosterRecord.moveMembers_eq_ok hview' (hempty _ _) ht').mp h
    -- the list was staged without members, which connecting has found and which now are moved
    obtain ⟨o, ho, hc⟩ := Staged.connected_of_object? hf hall (Staged.get?_roster.mp hget)
    obtain ⟨⟨object', count, version, head, members⟩, rfl, hconnect⟩ := Staged.roster_of_connect hc
    obtain ⟨cs', hlen, hhead, hcs', hlinked, rfl⟩ :=
      (RosterRecord.connect_eq_ok ⟨object', place, [], version⟩ hview).mp hconnect
    obtain ⟨rfl, hm⟩ := hf.fresh ho
    simp only at hm hlen hhead hobjects hn hnum
    subst hm hhead
    have hcs₀ : ∀ c ∈ cs, st.get? (Staged.component? F) c.object = some c :=
      fun c hc => (Staged.get?_component_iff hf hall).mp (hcs c hc)
    obtain rfl : cs' = cs := Staged.eq_of_map_object_eq hcs' hcs₀ hobjects
    have hcount : UInt64.ofNat cs'.length = count := by rw [hlen, UInt64.ofNat_toNat]
    refine ⟨rfl, rfl, ⟨?_, fun c hc => Staged.get?_component.mp (hcs₀ c hc), ?_,
      Roster.chained_iff.mpr ⟨hnum, hlinked⟩⟩, by simpa using hn, by simp⟩
    · rw [ho, ← hcount]
      rfl
    · show cs'.length < UInt64.size
      rw [hlen]
      exact count.toNat_lt
  · rintro ⟨rfl, rfl, hl, hn, rfl⟩
    have hnum := (Roster.chained_iff.mp hl.chained).1
    obtain ⟨o', hc, ho'⟩ := (Staged.of_connectAll hall).2.2 _ _ hl.record
    rw [Roster.connect_record hf hl] at hc
    cases hc
    have hn' : ((taken ++ [l.object]) ++ l.members.map Component.object).Nodup := by simpa using hn
    have ht' := (List.nodup_append.mp hn').1
    have hnot : l.object ∉ taken :=
      fun hm => (List.nodup_append.mp ht').2.2 _ hm _ (by simp) rfl
    refine ⟨_, _, Staging.take_eq_ok.mpr ⟨hnot, Staged.get?_roster.mpr ho', rfl⟩, ?_⟩
    refine (RosterRecord.moveMembers_eq_ok hview' (hempty _ _) ht').mpr
      ⟨l.members, rfl, ?_, hn', rfl, hnum, by simp⟩
    exact fun c hc => (Staged.get?_component_iff hf hall).mpr
      (Staged.get?_component.mpr (hl.members c hc))

/-! ### The whole simulation -/

namespace Simulation

/-- What is taken out for a simulation, in order. -/
def taken (s : Simulation) : List ObjectId :=
  s.object :: s.controlObject ::
    Family.all.flatMap fun F => (s.list F).object :: (s.list F).members.map Component.object

theorem taken_perm (s : Simulation) : s.taken.Perm s.owned := by
  rw [List.perm_iff_count]
  intro id
  simp only [taken, owned, inventory, ownItems, Family.all, List.flatMap_cons, List.flatMap_nil,
    List.map_append, List.map_cons, List.map_nil, Roster.map_fst_items, List.count_append,
    List.count_cons, List.count_nil, list]
  omega

/-- A list whose members are among different objects has fewer than `2 ^ 64` of them. -/
theorem size_lt_of_nodup {s : Simulation} (h : s.owned.Nodup) (F : Family) :
    (s.list F).size < UInt64.size := by
  have hle := length_le_of_nodup_ids h (n := UInt64.size) fun id _ => id.val.toNat_lt
  rw [owned, List.length_map, (s.inventory_perm F).length_eq, List.length_append] at hle
  have hown : 0 < (s.setList (s.list F).clear).inventory.length := by
    simp [inventory, ownItems]
  have hitems : (s.list F).items.length = (s.list F).size := by
    rw [Roster.items, List.length_map, Roster.size]
  omega

theorem holds_of_lists {s : Simulation} (hs : st.object? s.object = some (.simulation s.record))
    (hc : st.object? s.controlObject = some (.control s.control))
    (hl : ∀ F, ListHeld st (s.list F)) (hn : s.taken.Nodup) (hids : ∀ id ∈ st.ids, id ∈ s.taken) :
    st.Holds s := by
  have hparts : ∀ e ∈ s.parts, st.object? e.1 = some e.2 := by
    intro e he
    rcases mem_parts.mp he with rfl | rfl | ⟨F, rfl⟩ | ⟨F, c, hcm, rfl⟩
    · exact hs
    · exact hc
    · exact (hl F).record
    · exact (hl F).members c hcm
  refine ⟨hparts, ?_, fun F => (hl F).chained⟩
  refine (List.perm_ext_iff_of_nodup st.slots.nodup (s.taken_perm.nodup hn)).mpr fun id => ?_
  constructor
  · exact fun hid => s.taken_perm.mem_iff.mp (hids id hid)
  · intro hid
    rw [owned_eq_map_parts] at hid
    obtain ⟨e, he, rfl⟩ := List.mem_map.mp hid
    exact Staging.mem_ids_of_object? (hparts e he)

/-- What is put together is held by the table. -/
theorem of_assembleFrom (hf : st.Fresh) (hall : Staging.connectAll Staged.connect st = .ok () st')
    {behaviors : Behaviors} {cursor : UInt64} {place₁ place₂ place₃ : ListInstance} {s : Simulation}
    {st₁ : Staging Staged} (h : assembleFrom behaviors cursor place₁ place₂ place₃ st' = .ok s st₁) :
    st.Holds s ∧ s.registry = st'.registry cursor ∧ s.behaviors = behaviors ∧
      s.boundaries.place = place₁ ∧ s.collisions.place = place₂ ∧ s.emitters.place = place₃ := by
  rw [assembleFrom, get_bind] at h
  cases hfind : st'.findByTag? simulationTag with
  | none => rw [hfind] at h; exact absurd h throw_ne_ok
  | some object =>
      rw [hfind] at h
      obtain ⟨r, _, hr, h⟩ := bind_eq_ok.mp h
      rw [← Staging.without_nil st'] at hr
      obtain ⟨-, hsim, rfl⟩ := Staging.take_eq_ok.mp hr
      obtain ⟨control, _, hc, h⟩ := bind_eq_ok.mp h
      obtain ⟨hnot, hcontrol, rfl⟩ := Staging.take_eq_ok.mp hc
      have hn : (([] ++ [object]) ++ [r.control]).Nodup := by
        simpa [eq_comm] using hnot
      obtain ⟨boundaries, _, hb, h⟩ := bind_eq_ok.mp h
      obtain ⟨hbo, hbp, hboundaries, hn, rfl⟩ := (takeList_eq_ok hf hall hn).mp hb
      obtain ⟨collisions, _, hcl, h⟩ := bind_eq_ok.mp h
      obtain ⟨hco, hcp, hcollisions, hn, rfl⟩ := (takeList_eq_ok hf hall hn).mp hcl
      obtain ⟨emitters, _, he, h⟩ := bind_eq_ok.mp h
      obtain ⟨heo, hep, hemitters, hn, rfl⟩ := (takeList_eq_ok hf hall hn).mp he
      obtain ⟨_, _, hg, h⟩ := bind_eq_ok.mp h
      cases hg
      obtain ⟨hleft, h⟩ := check_eq_ok.mp h
      obtain ⟨rfl, rfl⟩ := pure_eq_ok.mp h
      obtain ⟨step, species, field, controlObject, bo, co, eo⟩ := r
      simp only at hbo hco heo hn hleft
      subst hbo hco heo
      refine ⟨holds_of_lists ?_ ?_ ?_ ?_ ?_, rfl, rfl, hbp, hcp, hep⟩
      · exact (Staged.object?_iff hf hall (by rintro F l ⟨⟩)).mp (Staged.get?_simulation.mp hsim)
      · exact (Staged.object?_iff hf hall (by rintro F l ⟨⟩)).mp (Staged.get?_control.mp hcontrol)
      · intro F
        cases F with
        | boundary => exact hboundaries
        | collision => exact hcollisions
        | emitter => exact hemitters
      · simpa [taken, Family.all, list] using hn
      · intro id hid
        rw [List.isEmpty_iff, Staging.ids_without, List.filter_eq_nil_iff] at hleft
        have hmem := hleft id ((Staged.of_connectAll hall).1 ▸ hid)
        rw [decide_eq_true_eq, not_not] at hmem
        simpa [taken, Family.all, list] using hmem

/-- The only object with a tag is the first one. -/
theorem findByTag?_of_unique {α : Type} {st : Staging α} {tag : String} {id : ObjectId}
    (h : ∀ x, st.tag? x = some tag ↔ x = id) : st.findByTag? tag = some id := by
  obtain ⟨slot, hslot, ht⟩ := Option.map_eq_some_iff.mp ((h id).mpr rfl)
  have hm := OrderedMap.find?_eq_some.mp hslot
  have hsome : (st.slots.entries.find? fun e => e.2.tag = tag).isSome :=
    List.find?_isSome.mpr ⟨_, hm, by simpa using ht⟩
  obtain ⟨e, he⟩ := Option.isSome_iff_exists.mp hsome
  have het : e.2.tag = tag := by simpa using List.find?_some he
  have hid : e.1 = id := by
    refine (h e.1).mp ?_
    rw [Staging.tag?, OrderedMap.find?_eq_some.mpr (List.mem_of_find?_eq_some he), Option.map_some,
      het]
  rw [Staging.findByTag?, he, Option.map_some, hid]

/-- The simulation record is found by its tag. -/
theorem findByTag?_of_holds (hf : st.Fresh)
    (hall : Staging.connectAll Staged.connect st = .ok () st') {s : Simulation} (h : st.Holds s) :
    st'.findByTag? simulationTag = some s.object := by
  refine findByTag?_of_unique fun x => ?_
  rw [(Staged.of_connectAll hall).2.1]
  constructor
  · intro hx
    obtain ⟨slot, hslot, -⟩ := Option.map_eq_some_iff.mp hx
    have hid : x ∈ s.owned :=
      h.ids.mem_iff.mp (OrderedMap.mem_keys_of_mem (OrderedMap.find?_eq_some.mp hslot))
    rw [owned_eq_map_parts] at hid
    obtain ⟨e, he, rfl⟩ := List.mem_map.mp hid
    rw [hf.tag? (h.parts e he), Option.some.injEq] at hx
    exact object_of_tag_eq he hx
  · rintro rfl
    exact hf.tag? (h.parts _ (mem_parts.mpr (.inl rfl)))

theorem listHeld_of_holds {s : Simulation} (h : st.Holds s) (F : Family) :
    ListHeld st (s.list F) where
  record := h.parts _ (mem_parts.mpr (.inr (.inr (.inl ⟨F, rfl⟩))))
  members c hc := h.parts _ (mem_parts.mpr (.inr (.inr (.inr ⟨F, c, hc, rfl⟩))))
  size := size_lt_of_nodup (h.ids.nodup st.slots.nodup) F
  chained := h.chained F

/-- A simulation that is held by the table can be put together. -/
theorem assembleFrom_of_holds (hf : st.Fresh)
    (hall : Staging.connectAll Staged.connect st = .ok () st') {s : Simulation} (h : st.Holds s)
    {cursor : UInt64} (hr : s.registry = st'.registry cursor) :
    ∃ st₁, assembleFrom s.behaviors cursor s.boundaries.place s.collisions.place s.emitters.place
      st' = .ok s st₁ := by
  have hids := (Staged.of_connectAll hall).1
  have hn : s.taken.Nodup := s.taken_perm.symm.nodup (h.ids.nodup st.slots.nodup)
  -- what is taken before each list, in order
  have hsplit : s.taken = (([] ++ [s.object]) ++ [s.controlObject]) ++
      (s.boundaries.object :: s.boundaries.members.map Component.object) ++
      (s.collisions.object :: s.collisions.members.map Component.object) ++
      (s.emitters.object :: s.emitters.members.map Component.object) := by
    simp [taken, Family.all, list]
  rw [hsplit] at hn
  have hn₃ := (List.nodup_append.mp hn).1
  have hn₂ := (List.nodup_append.mp hn₃).1
  have hn₁ := (List.nodup_append.mp hn₂).1
  have hrecord := (Staged.object?_iff hf hall (by rintro F l ⟨⟩)).mpr
    (h.parts _ (mem_parts.mpr (.inl rfl)))
  have hsimulation : Staging.take Staged.simulation? simulationTag s.object (st'.without []) =
      .ok s.record (st'.without ([] ++ [s.object])) :=
    Staging.take_eq_ok.mpr ⟨List.not_mem_nil, Staged.get?_simulation.mpr hrecord, rfl⟩
  rw [Staging.without_nil] at hsimulation
  have hcontrol := (Staged.object?_iff hf hall (by rintro F l ⟨⟩)).mpr
    (h.parts _ (mem_parts.mpr (.inr (.inl rfl))))
  have hheld := listHeld_of_holds h
  refine ⟨st'.without s.taken, ?_⟩
  rw [assembleFrom, get_bind, findByTag?_of_holds hf hall h]
  refine bind_eq_ok.mpr ⟨s.record, _, hsimulation, bind_eq_ok.mpr ⟨s.control, _,
    Staging.take_eq_ok.mpr ⟨?_, Staged.get?_control.mpr hcontrol, rfl⟩, bind_eq_ok.mpr
      ⟨s.boundaries, _, (takeList_eq_ok hf hall hn₁).mpr ⟨rfl, rfl, hheld .boundary, hn₂, rfl⟩,
        bind_eq_ok.mpr ⟨s.collisions, _,
          (takeList_eq_ok hf hall hn₂).mpr ⟨rfl, rfl, hheld .collision, hn₃, rfl⟩,
          bind_eq_ok.mpr ⟨s.emitters, _,
            (takeList_eq_ok hf hall hn₃).mpr ⟨rfl, rfl, hheld .emitter, hn, rfl⟩, ?_⟩⟩⟩⟩⟩
  · exact fun hin => (List.nodup_append.mp hn₁).2.2 _ hin _ (List.mem_singleton.mpr rfl) rfl
  · have hleft : (st'.without s.taken).ids.isEmpty = true := by
      rw [List.isEmpty_iff, Staging.ids_without, List.filter_eq_nil_iff]
      intro id hid
      rw [decide_eq_true_eq, not_not]
      exact s.taken_perm.symm.mem_iff.mp (h.ids.mem_iff.mp (hids ▸ hid))
    rw [hsplit] at hleft ⊢
    refine bind_eq_ok.mpr ⟨_, _, rfl, (congrFun (if_pos hleft) _).trans (pure_eq_ok.mpr ⟨?_, rfl⟩)⟩
    rw [← hr]
    rfl

/-- A member of a chained list is linked to a member. -/
theorem tag?_of_link (hf : st.Fresh) {l : Roster F} (hl : ListHeld st l) {c : Component F}
    (hc : c ∈ l.members) {next : ObjectId} (hlink : c.link = some (.next next)) :
    st.tag? next = some F.tag := by
  obtain ⟨i, hi⟩ := List.getElem?_of_mem hc
  have hnext := (hl.chained i c hi).2
  rw [hlink, Option.some.injEq, Roster.nextLink] at hnext
  cases hh : (l.first i).head? with
  | none => rw [hh] at hnext; cases hnext
  | some head =>
      rw [hh] at hnext
      cases hnext
      have hm : head ∈ l.members := List.take_subset i _ (List.mem_of_getLast? hh)
      exact hf.tag? (hl.members head hm)

/-- The parts of a simulation connect. -/
theorem exists_connectAll_of_holds (hf : st.Fresh) {s : Simulation} (h : st.Holds s) :
    ∃ st', Staging.connectAll Staged.connect st = .ok () st' := by
  have hheld := listHeld_of_holds h
  have hlist : ∀ F, (st.get? (Staged.roster? F) (s.list F).object).isSome :=
    fun F => Option.isSome_of_eq_some (Staged.get?_roster.mpr (hheld F).record)
  have hcontrol : (st.get? Staged.control? s.controlObject).isSome :=
    Option.isSome_of_eq_some
      (Staged.get?_control.mpr (h.parts _ (mem_parts.mpr (.inr (.inl rfl)))))
  refine Staged.exists_connectAll fun x o ho => ?_
  have hid := h.ids.mem_iff.mp (Staging.mem_ids_of_object? ho)
  rw [owned_eq_map_parts] at hid
  obtain ⟨e, he, rfl⟩ := List.mem_map.mp hid
  obtain rfl : e.2 = o := Option.some.inj ((h.parts e he).symm.trans ho)
  rcases mem_parts.mp he with rfl | rfl | ⟨F, rfl⟩ | ⟨F, c, hc, rfl⟩
  · exact ⟨_, Staged.connect_simulation.mpr
      ⟨hcontrol, hlist .boundary, hlist .collision, hlist .emitter, rfl⟩⟩
  · exact ⟨_, Staged.connect_control.mpr rfl⟩
  · exact ⟨_, Roster.connect_record hf (hheld F)⟩
  · exact ⟨_, Staged.connect_component.mpr
      ⟨fun next hlink => tag?_of_link hf (hheld F) hc hlink, rfl⟩⟩

end Simulation

/-- Connecting does not change what is registered. -/
theorem Staging.registry_of_connectAll (hall : Staging.connectAll Staged.connect st = .ok () st')
    (cursor : UInt64) : st'.registry cursor = st.registry cursor := by
  obtain ⟨hids, htag, -⟩ := Staged.of_connectAll hall
  refine congrArg (Registry.mk · cursor) (OrderedMap.ext_find? ?_ fun id => ?_)
  · rw [OrderedMap.keys_mapValues, OrderedMap.keys_mapValues]
    exact hids
  · rw [OrderedMap.find?_mapValues, OrderedMap.find?_mapValues]
    exact htag id

end Connected

/-- **A restore returns the simulation whose parts are staged**, if there is one. -/
theorem Host.connectStream_eq_ok {behaviors : Behaviors} {h : Header} {st : Staging Staged}
    {supply supply' : InstanceSupply} {s : Simulation} (hf : st.Fresh) :
    Host.connectStream behaviors h st supply = .ok (s, supply') ↔
      st.Holds s ∧ s.registry = st.registry h.cursor ∧ s.behaviors = behaviors ∧
        s.boundaries.place = ⟨supply.next⟩ ∧ s.collisions.place = ⟨supply.next + 1⟩ ∧
        s.emitters.place = ⟨supply.next + 2⟩ ∧ supply' = ⟨supply.next + 3⟩ := by
  constructor
  · intro hc
    rw [Host.connectStream] at hc
    split at hc
    · cases hc
    · next st' hall =>
      rw [Simulation.assemble] at hc
      simp only [InstanceSupply.take] at hc
      split at hc
      · next st₁ ha =>
        cases hc
        obtain ⟨hholds, hr, hb, hp₁, hp₂, hp₃⟩ := Simulation.of_assembleFrom hf hall ha
        rw [Staging.registry_of_connectAll hall] at hr
        exact ⟨hholds, hr, hb, hp₁, hp₂, hp₃, rfl⟩
      · cases hc
  · rintro ⟨hholds, hr, rfl, hp₁, hp₂, hp₃, rfl⟩
    obtain ⟨st', hall⟩ := Simulation.exists_connectAll_of_holds hf hholds
    rw [← Staging.registry_of_connectAll hall] at hr
    obtain ⟨st₁, ha⟩ := Simulation.assembleFrom_of_holds hf hall hholds hr
    rw [hp₁, hp₂, hp₃] at ha
    simp only [Host.connectStream, hall, Simulation.assemble, InstanceSupply.take, ha]

end ParticleSim
