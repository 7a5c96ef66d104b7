import ParticleSim.Proofs.Restore.Staged
import ParticleSim.Proofs.Restore.Rosters

/-!
# Restores — Resolving references

While the staged objects connect one after the other, each sees the others as they are at that time.
But what it looks for does not change while others connect (`Staged.Agree`), so it may as well look
at the table as it was before (`Staged.connect_setObject`).  Hence all connect exactly when each of
them connects to that table, whatever the order (`Staged.of_connectAll`,
`Staged.exists_connectAll`).
-/

namespace ParticleSim

namespace Staging

/-- Every slot holds an object under the object's own tag, as it was right after its record was
read. -/
def Fresh (st : Staging Staged) : Prop :=
  ∀ e ∈ st.slots.entries, ∃ o : Staged, e.2 = ⟨o.tag, some o⟩ ∧ o.Fresh e.1

variable {st : Staging Staged} {id : ObjectId} {o : Staged}

theorem Fresh.tag? (h : st.Fresh) (ho : st.object? id = some o) : st.tag? id = some o.tag := by
  obtain ⟨tag, hm⟩ := object?_eq_some.mp ho
  obtain ⟨o', hslot, -⟩ := h _ hm
  simp only [Slot.mk.injEq, Option.some.injEq] at hslot
  obtain ⟨rfl, rfl⟩ := hslot
  rw [Staging.tag?, OrderedMap.find?_eq_some.mpr hm]
  rfl

theorem Fresh.fresh (h : st.Fresh) (ho : st.object? id = some o) : o.Fresh id := by
  obtain ⟨tag, hm⟩ := object?_eq_some.mp ho
  obtain ⟨o', hslot, hid⟩ := h _ hm
  simp only [Slot.mk.injEq, Option.some.injEq] at hslot
  rwa [hslot.2]

theorem Fresh.exists_object? (h : st.Fresh) (hid : id ∈ st.ids) : ∃ o, st.object? id = some o := by
  obtain ⟨⟨id', slot⟩, hm, rfl⟩ := List.mem_map.mp hid
  obtain ⟨o, rfl, -⟩ := h _ hm
  exact ⟨o, object?_eq_some.mpr ⟨_, hm⟩⟩

end Staging

namespace Staged

variable {st st' : Staging Staged} {id : ObjectId} {o o' : Staged}

/-! ### Views -/

theorem component?_eq_some {F : Family} {c : Component F} :
    o.component? F = some c ↔ o = component F c := by
  constructor
  · intro h
    cases o with
    | component G c' =>
        simp only [component?] at h
        split at h
        · next hG =>
          subst hG
          cases h
          rfl
        · cases h
    | roster _ _ | control _ | simulation _ => cases h
  · rintro rfl
    simp [component?]

theorem roster?_eq_some {F : Family} {l : RosterRecord F} :
    o.roster? F = some l ↔ o = roster F l := by
  constructor
  · intro h
    cases o with
    | roster G l' =>
        simp only [roster?] at h
        split at h
        · next hG =>
          subst hG
          cases h
          rfl
        · cases h
    | component _ _ | control _ | simulation _ => cases h
  · rintro rfl
    simp [roster?]

theorem control?_eq_some {state : Bytes} : o.control? = some state ↔ o = control state := by
  cases o <;> simp [control?]

theorem simulation?_eq_some {r : SimulationRecord} : o.simulation? = some r ↔ o = simulation r := by
  cases o <;> simp [simulation?]

theorem get?_component {F : Family} {c : Component F} :
    st.get? (component? F) id = some c ↔ st.object? id = some (component F c) := by
  simp only [Staging.get?_eq_some, component?_eq_some, exists_eq_right]

theorem get?_roster {F : Family} {l : RosterRecord F} :
    st.get? (roster? F) id = some l ↔ st.object? id = some (roster F l) := by
  simp only [Staging.get?_eq_some, roster?_eq_some, exists_eq_right]

theorem get?_control {state : Bytes} :
    st.get? control? id = some state ↔ st.object? id = some (control state) := by
  simp only [Staging.get?_eq_some, control?_eq_some, exists_eq_right]

theorem get?_simulation {r : SimulationRecord} :
    st.get? simulation? id = some r ↔ st.object? id = some (simulation r) := by
  simp only [Staging.get?_eq_some, simulation?_eq_some, exists_eq_right]

/-- A fresh staging has every component under its own identity. -/
theorem object_of_get?_component {F : Family} {c : Component F} (h : st.Fresh)
    (hc : st.get? (component? F) id = some c) : c.object = id :=
  h.fresh (get?_component.mp hc)

/-! ### One object -/

/-- A component connects when its successor has the tag of its family. -/
theorem connect_component {F : Family} {c : Component F} :
    connect id st (component F c) = .ok () o' ↔
      (∀ next, c.link = some (.next next) → st.tag? next = some F.tag) ∧ o' = component F c := by
  have hc : c.connect id st = .ok () ↔
      ∀ next, c.link = some (.next next) → st.tag? next = some F.tag := by
    rw [Component.connect]
    rcases c.link with _ | _ | next
    · simp
    · simp
    · by_cases ht : st.tag? next = some F.tag <;> simp [ht]
  rw [connect, get_bind]
  exact ofExcept_eq_ok.trans (and_congr_left fun _ => hc)

theorem connect_roster {F : Family} {l : RosterRecord F} :
    connect id st (roster F l) = .ok () o' ↔
      ∃ l', RosterRecord.connect (component? F) id st l = .ok () l' ∧ o' = roster F l' := by
  rw [connect, get_bind]
  simp only
  cases h : RosterRecord.connect (component? F) id st l with
  | ok u l' =>
      constructor
      · rintro ⟨⟩
        exact ⟨l', rfl, rfl⟩
      · rintro ⟨l₂, hl, rfl⟩
        cases hl
        rfl
  | error e l' =>
      constructor
      · intro h'
        cases h'
      · rintro ⟨l₂, hl, -⟩
        cases hl

theorem connect_control {state : Bytes} :
    connect id st (control state) = .ok () o' ↔ o' = control state := by
  constructor
  · rintro ⟨⟩
    rfl
  · rintro rfl
    rfl

/-- A simulation connects when its control state and its lists are there. -/
theorem connect_simulation {r : SimulationRecord} :
    connect id st (simulation r) = .ok () o' ↔
      (st.get? control? r.control).isSome ∧ (st.get? (roster? .boundary) r.boundaries).isSome ∧
        (st.get? (roster? .collision) r.collisions).isSome ∧
        (st.get? (roster? .emitter) r.emitters).isSome ∧ o' = simulation r := by
  have hr : connectSimulation r id st = .ok () ↔
      (st.get? control? r.control).isSome ∧ (st.get? (roster? .boundary) r.boundaries).isSome ∧
        (st.get? (roster? .collision) r.collisions).isSome ∧
        (st.get? (roster? .emitter) r.emitters).isSome := by
    simp only [connectSimulation, Staging.resolve]
    cases st.get? control? r.control with
    | none =>
        constructor
        · intro h
          cases h
        · rintro ⟨h, -⟩
          cases h
    | some _ =>
        cases st.get? (roster? .boundary) r.boundaries with
        | none =>
            constructor
            · intro h
              cases h
            · rintro ⟨-, h, -⟩
              cases h
        | some _ =>
            cases st.get? (roster? .collision) r.collisions with
            | none =>
                constructor
                · intro h
                  cases h
                · rintro ⟨-, -, h, -⟩
                  cases h
            | some _ =>
                cases st.get? (roster? .emitter) r.emitters with
                | none =>
                    constructor
                    · intro h
                      cases h
                    · rintro ⟨-, -, -, h⟩
                      cases h
                | some _ => exact ⟨fun _ => ⟨rfl, rfl, rfl, rfl⟩, fun _ => rfl⟩
  rw [connect, get_bind]
  refine ofExcept_eq_ok.trans ((and_congr_left fun _ => hr).trans ?_)
  simp only [and_assoc]

/-- Connecting leaves an object what it is. -/
theorem tag_of_connect (h : connect id st o = .ok () o') : o'.tag = o.tag := by
  cases o with
  | component F c => rw [(connect_component.mp h).2]
  | roster F l => obtain ⟨l', -, rfl⟩ := connect_roster.mp h; rfl
  | control state => rw [connect_control.mp h]
  | simulation r => rw [(connect_simulation.mp h).2.2.2.2]

/-- Only a list becomes a list. -/
theorem roster_of_connect {F : Family} {l' : RosterRecord F}
    (h : connect id st o = .ok () (roster F l')) :
    ∃ l, o = roster F l ∧ RosterRecord.connect (component? F) id st l = .ok () l' := by
  rcases o with ⟨G, c⟩ | ⟨G, l⟩ | state | r
  · cases (connect_component.mp h).2
  · obtain ⟨l₂, hl, he⟩ := connect_roster.mp h
    cases he
    exact ⟨l, rfl, hl⟩
  · cases connect_control.mp h
  · cases (connect_simulation.mp h).2.2.2.2

/-- Anything but a list stays as it is. -/
theorem eq_of_connect (h : connect id st o = .ok () o') (hl : ∀ F l, o' ≠ roster F l) : o' = o := by
  rcases o with ⟨G, c⟩ | ⟨G, l⟩ | state | r
  · exact (connect_component.mp h).2
  · obtain ⟨l', -, rfl⟩ := connect_roster.mp h
    exact absurd rfl (hl G l')
  · exact connect_control.mp h
  · exact (connect_simulation.mp h).2.2.2.2

/-! ### What an object sees of the others -/

/-- Two tables that look alike to an object that connects. -/
structure Agree (st st' : Staging Staged) : Prop where
  tag : ∀ id, st.tag? id = st'.tag? id
  component : ∀ F id, st.get? (component? F) id = st'.get? (component? F) id
  roster : ∀ F id, (st.get? (roster? F) id).isSome = (st'.get? (roster? F) id).isSome
  control : ∀ id, (st.get? control? id).isSome = (st'.get? control? id).isSome

theorem Agree.refl (st : Staging Staged) : Agree st st :=
  ⟨fun _ => rfl, fun _ _ => rfl, fun _ _ => rfl, fun _ => rfl⟩

theorem Agree.trans {st'' : Staging Staged} (h : Agree st st') (h' : Agree st' st'') :
    Agree st st'' :=
  ⟨fun id => (h.tag id).trans (h'.tag id), fun F id => (h.component F id).trans (h'.component F id),
    fun F id => (h.roster F id).trans (h'.roster F id),
    fun id => (h.control id).trans (h'.control id)⟩

/-- **An object that connects sees the table as it was**: what connected before it does not matter,
and neither does its own absence. -/
theorem connect_setObject (h : Agree st st') (ho : st.object? id = some o) :
    connect id (st.setObject id none) o = .ok () o' ↔ connect id st' o = .ok () o' := by
  cases o with
  | component F c => simp only [connect_component, Staging.tag?_setObject, h.tag]
  | roster F l =>
      have hget : ∀ x, (st.setObject id none).get? (component? F) x = st'.get? (component? F) x :=
        fun x => (Staging.get?_hide ho rfl x).trans (h.component F x)
      rw [connect_roster, connect_roster, RosterRecord.connect_congr hget]
  | control state => rw [connect_control, connect_control]
  | simulation r =>
      have hcontrol : ∀ x, ((st.setObject id none).get? control? x).isSome =
          (st'.get? control? x).isSome :=
        fun x => (congrArg _ (Staging.get?_hide ho rfl x)).trans (h.control x)
      have hroster : ∀ F x, ((st.setObject id none).get? (roster? F) x).isSome =
          (st'.get? (roster? F) x).isSome :=
        fun F x => (congrArg _ (Staging.get?_hide ho rfl x)).trans (h.roster F x)
      simp only [connect_simulation, hcontrol, hroster]

/-- A table looks the same after an object has connected. -/
theorem agree_setObject (ho : st.object? id = some o) (hc : connect id st' o = .ok () o') :
    Agree (st.setObject id (some o')) st := by
  have hviews : (∀ F, o'.component? F = o.component? F) ∧ o'.control? = o.control? ∧
      ∀ F, (o'.roster? F).isSome = (o.roster? F).isSome := by
    cases o with
    | component F c => rw [(connect_component.mp hc).2]; exact ⟨fun _ => rfl, rfl, fun _ => rfl⟩
    | roster F l =>
        obtain ⟨l', -, rfl⟩ := connect_roster.mp hc
        refine ⟨fun _ => rfl, rfl, fun G => ?_⟩
        by_cases hG : F = G <;> simp [roster?, hG]
    | control state => rw [connect_control.mp hc]; exact ⟨fun _ => rfl, rfl, fun _ => rfl⟩
    | simulation r =>
        rw [(connect_simulation.mp hc).2.2.2.2]
        exact ⟨fun _ => rfl, rfl, fun _ => rfl⟩
  obtain ⟨hcomponent, hcontrol, hroster⟩ := hviews
  have hid := Staging.mem_ids_of_object? ho
  have hget : ∀ {β : Type} (view : Staged → Option β), st.get? view id = view o := by
    intro β view
    rw [Staging.get?, ho, Option.bind_some]
  refine ⟨fun x => Staging.tag?_setObject _ _ _ _, fun F x => ?_, fun F x => ?_, fun x => ?_⟩
  · rw [Staging.get?_setObject hid]
    split
    · next hx => rw [hx, hget]; exact hcomponent F
    · rfl
  · rw [Staging.get?_setObject hid]
    split
    · next hx => rw [hx, hget]; exact hroster F
    · rfl
  · rw [Staging.get?_setObject hid]
    split
    · next hx => rw [hx, hget]; exact congrArg _ hcontrol
    · rfl

/-! ### All objects -/

/-- Objects that have connected have done so to the first table. -/
theorem of_connectEach {cur cur' : Staging Staged} {ids : List ObjectId} (hn : ids.Nodup)
    (ha : Agree cur st) (h : Staging.connectEach connect ids cur = .ok () cur') :
    cur'.ids = cur.ids ∧ (∀ x, cur'.tag? x = cur.tag? x) ∧
      (∀ x, x ∉ ids → cur'.object? x = cur.object? x) ∧
      ∀ x ∈ ids, ∀ o, cur.object? x = some o →
        ∃ o', connect x st o = .ok () o' ∧ cur'.object? x = some o' := by
  -- the table changes from step to step, but never so that an object could tell (`Agree`)
  induction ids generalizing cur with
  | nil =>
      cases h
      exact ⟨rfl, fun _ => rfl, fun _ _ => rfl, by simp⟩
  | cons id ids ih =>
      obtain ⟨hid, hn⟩ := List.nodup_cons.mp hn
      rw [Staging.connectEach_cons] at h
      cases ho : cur.object? id with
      | none =>
          rw [ho] at h
          obtain ⟨hids, htag, hother, hobject⟩ := ih hn ha h
          refine ⟨hids, htag, fun x hx => hother x fun hm => hx (List.mem_cons_of_mem _ hm), ?_⟩
          intro x hx o hox
          rcases List.mem_cons.mp hx with rfl | hx
          · rw [ho] at hox
            cases hox
          · exact hobject x hx o hox
      | some o =>
          rw [ho] at h
          simp only at h
          cases hc : connect id (cur.setObject id none) o with
          | error e o' => rw [hc] at h; cases h
          | ok u o' =>
              rw [hc] at h
              have hc' := (connect_setObject ha ho).mp hc
              have hmem := Staging.mem_ids_of_object? ho
              obtain ⟨hids, htag, hother, hobject⟩ := ih hn ((agree_setObject ho hc').trans ha) h
              have hset := Staging.object?_setObject hmem (some o')
              refine ⟨hids.trans (Staging.ids_setObject _ _ _),
                fun x => (htag x).trans (Staging.tag?_setObject _ _ _ _), fun x hx => ?_, ?_⟩
              · rw [hother x fun hm => hx (List.mem_cons_of_mem _ hm), hset,
                  if_neg (List.ne_of_not_mem_cons hx)]
              · intro x hx o₂ hox
                rcases List.mem_cons.mp hx with rfl | hx
                · rw [ho] at hox
                  cases hox
                  exact ⟨o', hc', by rw [hother x hid, hset, if_pos rfl]⟩
                · refine hobject x hx o₂ ?_
                  rwa [hset, if_neg (ne_of_mem_of_not_mem hx hid)]

theorem exists_connectEach {cur : Staging Staged} {ids : List ObjectId} (hn : ids.Nodup)
    (ha : Agree cur st)
    (h : ∀ x ∈ ids, ∀ o, cur.object? x = some o → ∃ o', connect x st o = .ok () o') :
    ∃ cur', Staging.connectEach connect ids cur = .ok () cur' := by
  induction ids generalizing cur with
  | nil => exact ⟨cur, rfl⟩
  | cons id ids ih =>
      obtain ⟨hid, hn⟩ := List.nodup_cons.mp hn
      rw [Staging.connectEach_cons]
      cases ho : cur.object? id with
      | none => exact ih hn ha fun x hx => h x (List.mem_cons_of_mem _ hx)
      | some o =>
          obtain ⟨o', hc⟩ := h id List.mem_cons_self o ho
          simp only [(connect_setObject ha ho).mpr hc]
          refine ih hn ((agree_setObject ho hc).trans ha) fun x hx o₂ hox => ?_
          rw [Staging.object?_setObject (Staging.mem_ids_of_object? ho),
            if_neg (ne_of_mem_of_not_mem hx hid)] at hox
          exact h x (List.mem_cons_of_mem _ hx) o₂ hox

/-- **When all objects have connected, each has connected to the table as it was**, and only the
objects have changed. -/
theorem of_connectAll (h : Staging.connectAll connect st = .ok () st') :
    st'.ids = st.ids ∧ (∀ x, st'.tag? x = st.tag? x) ∧
      ∀ x o, st.object? x = some o →
        ∃ o', connect x st o = .ok () o' ∧ st'.object? x = some o' := by
  obtain ⟨hids, htag, -, hobject⟩ := of_connectEach st.slots.nodup (Agree.refl st) h
  exact ⟨hids, htag, fun x o ho => hobject x (Staging.mem_ids_of_object? ho) o ho⟩

/-- All objects connect when each of them connects to the table as it is. -/
theorem exists_connectAll
    (h : ∀ x o, st.object? x = some o → ∃ o', connect x st o = .ok () o') :
    ∃ st', Staging.connectAll connect st = .ok () st' :=
  exists_connectEach st.slots.nodup (Agree.refl st) fun x _ o ho => h x o ho

end Staged

end ParticleSim
