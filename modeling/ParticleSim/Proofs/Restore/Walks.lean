import ParticleSim.Proofs.Restore.Rosters
import ParticleSim.Simulation.Record
import Mathlib.Data.List.Perm.Subperm
import Mathlib.Logic.Relation

/-!
# Restores — How far a list walks

A list follows links from its head until they end, or until it has passed as many components as its
record claims (`RosterRecord.Passes`).  Nothing else stops it.  Where the links do not lead around a
cycle it passes no component twice, so it ends within the components that are staged, whatever the
record claims (`RosterRecord.Passes.nodup`, `RosterRecord.Passes.length_le`).  Where they do, it
goes around until the claim is used up (`RosterRecord.Endless.exists_passes`).  It fails then, but
it has taken the time and the room that the record claims, not those of what is staged.

* `RosterRecord.walk_extent`: how far a walk goes, with and without a cycle.
* `RosterRecord.walk_around`: a component that is linked to itself makes a cycle, and is connected.
-/

namespace ParticleSim

namespace RosterRecord

variable {F : Family} {α : Type} {view : α → Option (Component F)} {id : ObjectId}
  {staged : Staging α} {r : RosterRecord F} {cursor : Option ObjectId} {joined : List ObjectId}
  {object next : ObjectId}

/-! ### The states of a walk -/

/-- The walk of a record is at `cursor` with the `joined` ones behind it, the last first. -/
inductive Passes (r : RosterRecord F) (view : α → Option (Component F)) (id : ObjectId)
    (staged : Staging α) : (cursor : Option ObjectId) → (joined : List ObjectId) → Prop where
  | start : Passes r view id staged r.head []
  | step {object : ObjectId} {next : Option ObjectId} {joined : List ObjectId}
      (before : Passes r view id staged (some object) joined)
      (within : joined.length < r.count.toNat)
      (link : follow view id staged object = .ok next) :
      Passes r view id staged next (object :: joined)

/-- How a walk goes on from a state. -/
theorem walk_of_lt {budget : Nat} (h : joined.length < budget) :
    r.walk view id staged (budget - joined.length) (some object) joined =
      (follow view id staged object).bind fun next =>
        r.walk view id staged (budget - (object :: joined).length) next (object :: joined) := by
  obtain ⟨n, hn⟩ := Nat.exists_eq_succ_of_ne_zero (Nat.sub_ne_zero_of_lt h)
  have hn' : budget - (object :: joined).length = n := by
    rw [List.length_cons]
    omega
  rw [hn, hn', walk]
  rfl

/-- **Every state is one of the walk**: from there it ends as it does from the head. -/
theorem Passes.walk_eq (h : r.Passes view id staged cursor joined) :
    r.walk view id staged r.count.toNat r.head [] =
      r.walk view id staged (r.count.toNat - joined.length) cursor joined := by
  induction h with
  | start => rfl
  | step before within link ih => rw [ih, walk_of_lt within, link]; rfl

/-- A walk passes no more components than its record claims. -/
theorem Passes.length_le_count (h : r.Passes view id staged cursor joined) :
    joined.length ≤ r.count.toNat := by
  induction h with
  | start => exact Nat.zero_le _
  | step before within link ih => exact within

/-- A walk is over: the links end, the claim is used up, or a component is missing or in no list. -/
inductive Last (r : RosterRecord F) (view : α → Option (Component F)) (id : ObjectId)
    (staged : Staging α) : (cursor : Option ObjectId) → (joined : List ObjectId) →
      (result : Except CheckpointError (List ObjectId)) → Prop where
  | ended {joined : List ObjectId} : Last r view id staged none joined (.ok joined)
  | usedUp {object : ObjectId} {joined : List ObjectId} (claim : joined.length = r.count.toNat) :
      Last r view id staged (some object) joined
        (.error (.streamFormat (.chainTooLong F id r.count)))
  | lost {object : ObjectId} {joined : List ObjectId} {e : CheckpointError}
      (within : joined.length < r.count.toNat) (link : follow view id staged object = .error e) :
      Last r view id staged (some object) joined (.error e)

/-- A walk goes on to a last state from each of its states. -/
theorem Passes.exists_last (h : r.Passes view id staged cursor joined) :
    ∃ cursor' joined', r.Passes view id staged cursor' joined' ∧
      r.Last view id staged cursor' joined'
        (r.walk view id staged (r.count.toNat - joined.length) cursor joined) := by
  -- the claim leaves room for `n` more
  obtain ⟨n, hn⟩ := Nat.exists_eq_add_of_le h.length_le_count
  induction n generalizing cursor joined with
  | zero =>
      refine ⟨cursor, joined, h, ?_⟩
      rw [show r.count.toNat - joined.length = 0 by omega]
      cases cursor with
      | none => exact .ended
      | some object => exact .usedUp (by omega)
  | succ n ih =>
      cases cursor with
      | none =>
          refine ⟨none, joined, h, ?_⟩
          rw [walk]
          exact .ended
      | some object =>
          have hlt : joined.length < r.count.toNat := by omega
          rw [walk_of_lt hlt]
          cases hf : follow view id staged object with
          | error e => exact ⟨some object, joined, h, .lost hlt hf⟩
          | ok next => exact ih (h.step hlt hf) (by rw [List.length_cons]; omega)

/-! ### Links -/

/-- The link of a staged component leads to another. -/
def Leads (view : α → Option (Component F)) (id : ObjectId) (staged : Staging α)
    (object next : ObjectId) : Prop :=
  follow view id staged object = .ok (some next)

/-- The links from an object on lead into a cycle. -/
def Endless (view : α → Option (Component F)) (id : ObjectId) (staged : Staging α)
    (object : ObjectId) : Prop :=
  ∃ again, Relation.ReflTransGen (Leads view id staged) object again ∧
    Relation.TransGen (Leads view id staged) again again

/-- What is passed leads to where the walk is. -/
theorem Passes.leads (h : r.Passes view id staged cursor joined) (hc : cursor = some object)
    {passed : ObjectId} (hp : passed ∈ joined) :
    Relation.TransGen (Leads view id staged) passed object := by
  induction h generalizing object with
  | start => exact absurd hp List.not_mem_nil
  | @step last next joined before within link ih =>
      subst hc
      rcases List.mem_cons.mp hp with rfl | hp
      · exact .single link
      · exact (ih rfl hp).tail link

/-- Where a walk is, the head has led. -/
theorem Passes.head_leads (h : r.Passes view id staged cursor joined) (hc : cursor = some object) :
    ∃ head, r.head = some head ∧ Relation.ReflTransGen (Leads view id staged) head object := by
  induction h generalizing object with
  | start => exact ⟨object, hc, .refl⟩
  | @step last next joined before within link ih =>
      subst hc
      obtain ⟨head, hhead, hleads⟩ := ih rfl
      exact ⟨head, hhead, hleads.tail link⟩

/-- The head of a record leads into a cycle. -/
def Loops (r : RosterRecord F) (view : α → Option (Component F)) (id : ObjectId)
    (staged : Staging α) : Prop :=
  ∃ head, r.head = some head ∧ Endless view id staged head

/-! ### Without a cycle -/

/-- **Without a cycle no component is passed twice.** -/
theorem Passes.nodup (h : r.Passes view id staged cursor joined)
    (hr : ¬ r.Loops view id staged) : joined.Nodup := by
  induction h with
  | start => exact List.nodup_nil
  | @step object next joined before within link ih =>
      refine List.nodup_cons.mpr ⟨fun hm => ?_, ih⟩
      -- an object that was passed before leads to itself
      obtain ⟨head, hhead, hleads⟩ := before.head_leads rfl
      exact hr ⟨head, hhead, object, hleads, before.leads rfl hm⟩

/-- The staged components that a view sees. -/
def components (view : α → Option (Component F)) (staged : Staging α) : List ObjectId :=
  staged.ids.filter fun object => (staged.get? view object).isSome

/-- What is passed is staged. -/
theorem Passes.subset (h : r.Passes view id staged cursor joined) :
    joined ⊆ components view staged := by
  induction h with
  | start => exact List.nil_subset _
  | step before within link ih =>
      obtain ⟨c, hc, -⟩ := follow_eq_ok.mp link
      obtain ⟨a, ha, -⟩ := Staging.get?_eq_some.mp hc
      exact List.cons_subset.mpr ⟨List.mem_filter.mpr
        ⟨Staging.mem_ids_of_object? ha, by rw [hc]; rfl⟩, ih⟩

theorem Passes.length_le (h : r.Passes view id staged cursor joined) (hn : joined.Nodup) :
    joined.length ≤ (components view staged).length :=
  (hn.subperm h.subset).length_le

/-! ### Around a cycle -/

/-- From an object that leads into a cycle there is always a link on, to another such object. -/
theorem Endless.exists_next (h : Endless view id staged object) :
    ∃ next, follow view id staged object = .ok (some next) ∧ Endless view id staged next := by
  obtain ⟨again, hreach, hcycle⟩ := h
  rcases hreach.cases_head with rfl | ⟨next, hnext, hrest⟩
  · obtain ⟨next, hnext, hrest⟩ := Relation.TransGen.head'_iff.mp hcycle
    exact ⟨next, hnext, object, hrest, hcycle⟩
  · exact ⟨next, hnext, again, hrest, hcycle⟩

/-- A walk into a cycle passes as many components as one likes, up to the claim. -/
theorem Endless.exists_passes (h : Endless view id staged object) (hr : r.head = some object)
    {n : Nat} (hn : n ≤ r.count.toNat) :
    ∃ next joined, r.Passes view id staged (some next) joined ∧ joined.length = n ∧
      Endless view id staged next := by
  induction n with
  | zero => exact ⟨object, [], hr ▸ .start, rfl, h⟩
  | succ n ih =>
      obtain ⟨last, joined, hpasses, hlength, hlast⟩ := ih (Nat.le_of_succ_le hn)
      obtain ⟨next, hnext, hendless⟩ := hlast.exists_next
      exact ⟨next, last :: joined, hpasses.step (hlength ▸ hn) hnext,
        by rw [List.length_cons, hlength], hendless⟩

/-- **How far a list walks.**  A walk has passed no more components at any time than its record
claims, and is over in one of its states.  Unless the head leads into a cycle, what it has passed is
all different, and no more than there are components.  If the head does, the walk uses up the claim
and fails then; when the record claims more components than there are, it has passed some of them
more than once. -/
theorem walk_extent (r : RosterRecord F) (view : α → Option (Component F)) (id : ObjectId)
    (staged : Staging α) :
    (∀ cursor joined, r.Passes view id staged cursor joined → joined.length ≤ r.count.toNat ∧
      (¬ r.Loops view id staged →
        joined.Nodup ∧ joined.length ≤ (components view staged).length)) ∧
    (∃ cursor joined, r.Passes view id staged cursor joined ∧
      r.Last view id staged cursor joined (r.walk view id staged r.count.toNat r.head [])) ∧
    (r.Loops view id staged →
      r.walk view id staged r.count.toNat r.head [] =
        .error (.streamFormat (.chainTooLong F id r.count)) ∧
      ∃ cursor joined, r.Passes view id staged cursor joined ∧ joined.length = r.count.toNat ∧
        ((components view staged).length < r.count.toNat → ¬ joined.Nodup)) := by
  refine ⟨fun cursor joined h => ⟨h.length_le_count, fun hr => ?_⟩, Passes.start.exists_last, ?_⟩
  · exact ⟨h.nodup hr, h.length_le (h.nodup hr)⟩
  rintro ⟨head, hhead, hendless⟩
  obtain ⟨next, joined, hpasses, hlength, -⟩ :=
    hendless.exists_passes hhead (Nat.le_refl r.count.toNat)
  refine ⟨?_, some next, joined, hpasses, hlength, fun hlt hn => ?_⟩
  · rw [hpasses.walk_eq, hlength, Nat.sub_self, walk]
  · have hle := hpasses.length_le hn
    omega

/-- A collision operator that is linked to itself. -/
def selfLinked : Component .collision :=
  ⟨⟨0⟩, "drag", some ⟨0⟩, CollisionKind.user, [], none, some (.next ⟨0⟩)⟩

/-- What is staged while the list of that operator connects. -/
def selfLinkedStaging : Staging Staged :=
  ⟨⟨[(⟨0⟩, ⟨"collision_op", some (.component .collision selfLinked)⟩),
    (⟨1⟩, ⟨"collision_op_list", none⟩)], by decide⟩⟩

/-- A record of the list that claims a thousand members. -/
def selfLinkedRecord : RosterRecord .collision := ⟨⟨1⟩, 1000, ⟨0⟩, some ⟨0⟩, []⟩

/-- **A corrupt claim makes a walk run on around a cycle.**  The operator is connected as any other,
and yet the walk passes it twice, and a thousand times before it fails. -/
theorem walk_around :
    selfLinked.connect ⟨0⟩ (selfLinkedStaging.setObject ⟨0⟩ none) = .ok () ∧
    selfLinkedRecord.Passes (Staged.component? .collision) ⟨1⟩ selfLinkedStaging (some ⟨0⟩)
      [⟨0⟩, ⟨0⟩] ∧
    ¬ (∀ cursor joined, selfLinkedRecord.Passes (Staged.component? .collision) ⟨1⟩ selfLinkedStaging
      cursor joined → joined.Nodup ∧ joined.length ≤ selfLinkedStaging.size) ∧
    ∃ cursor joined, selfLinkedRecord.Passes (Staged.component? .collision) ⟨1⟩ selfLinkedStaging
      cursor joined ∧ joined.length = 1000 := by
  have hlink : follow (Staged.component? .collision) ⟨1⟩ selfLinkedStaging ⟨0⟩ =
      .ok (some ⟨0⟩) := rfl
  have htwice : selfLinkedRecord.Passes (Staged.component? .collision) ⟨1⟩ selfLinkedStaging
      (some ⟨0⟩) [⟨0⟩, ⟨0⟩] :=
    (Passes.start.step (by decide) hlink).step (by decide) hlink
  have hendless : Endless (Staged.component? .collision) ⟨1⟩ selfLinkedStaging ⟨0⟩ :=
    ⟨⟨0⟩, .refl, .single hlink⟩
  obtain ⟨next, joined, hpasses, hlength, -⟩ :=
    hendless.exists_passes (r := selfLinkedRecord) rfl (n := 1000) (by decide)
  exact ⟨rfl, htwice, fun h => absurd (h _ _ htwice).1 (by decide), some next, joined, hpasses,
    hlength⟩

end RosterRecord

end ParticleSim
