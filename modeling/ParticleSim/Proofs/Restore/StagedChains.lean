import ParticleSim.Proofs.Restore.Walks

/-!
# Restores — Chains of staged components

Nothing is known of the links in a stream: they may dangle, meet, go around or lead to a component
of another family.  A list is connected exactly when its record is right about them, that is, when
the components from the head on form a chain of the length that the record claims
(`RosterRecord.Chain`).  There is one chain from a head at most, and no component is in it twice
(`RosterRecord.Chain.unique`, `RosterRecord.Chain.nodup`).

* `RosterRecord.walk_eq_ok_iff_chain`: a walk arrives at the members of a chain.
* `RosterRecord.connect_iff_chain`: a list is connected to a chain, or fails for one of four reasons
  and stays as it is.
-/

namespace ParticleSim

/-- The link to a component, or to none. -/
def Link.to : Option ObjectId → Link
  | some object => .next object
  | none => .last

theorem Link.to_injective : Function.Injective Link.to := by
  intro next next' h
  cases next <;> cases next' <;> cases h <;> rfl

namespace RosterRecord

variable {F : Family} {α : Type} {view : α → Option (Component F)} {id : ObjectId}
  {staged : Staging α} {r : RosterRecord F} {head : Option ObjectId}
  {objects objects' joined : List ObjectId} {object : ObjectId}

/-! ### Chains -/

/-- These are components of the family, staged under these identities: the first is the head, each
is linked to the one behind it, and the last to none.  Without a head there are none. -/
structure Chain (view : α → Option (Component F)) (staged : Staging α) (head : Option ObjectId)
    (objects : List ObjectId) : Prop where
  head : objects.head? = head
  linked : ∀ (i : Nat) (object : ObjectId), objects[i]? = some object →
    ∃ c, staged.get? view object = some c ∧ c.link = some (.to objects[i + 1]?)

theorem chain_nil : Chain view staged head [] ↔ head = none :=
  ⟨fun h => h.head.symm, fun h => ⟨h.symm, fun i object hi => by simp at hi⟩⟩

/-- A chain is its first component and the chain from where that one is linked to. -/
theorem chain_cons :
    Chain view staged head (object :: objects) ↔ head = some object ∧
      ∃ c next, staged.get? view object = some c ∧ c.link = some (.to next) ∧
        Chain view staged next objects := by
  constructor
  · intro h
    obtain ⟨c, hc, hlink⟩ := h.linked 0 object rfl
    refine ⟨h.head.symm, c, objects.head?, hc, ?_, rfl, fun i next hi => ?_⟩
    · rw [hlink, List.head?_eq_getElem?]
      rfl
    · exact h.linked (i + 1) next hi
  · rintro ⟨rfl, c, next, hc, hlink, h⟩
    refine ⟨rfl, fun i object' hi => ?_⟩
    cases i with
    | zero =>
        cases hi
        exact ⟨c, hc, by rw [hlink, ← h.head, List.head?_eq_getElem?]; rfl⟩
    | succ i => exact h.linked i object' hi

/-- What follows a component in a chain is the chain from there on. -/
theorem Chain.of_append (h : Chain view staged head (joined ++ objects)) :
    Chain view staged objects.head? objects := by
  refine ⟨rfl, fun i object hi => ?_⟩
  have hbehind (j : Nat) : (joined ++ objects)[joined.length + j]? = objects[j]? := by
    rw [List.getElem?_append_right (Nat.le_add_right ..), Nat.add_sub_cancel_left]
  have hlinked := h.linked (joined.length + i) object ((hbehind i).trans hi)
  rwa [Nat.add_assoc, hbehind] at hlinked

/-- **There is one chain from a head.** -/
theorem Chain.unique (h : Chain view staged head objects) (h' : Chain view staged head objects') :
    objects = objects' := by
  induction objects generalizing head objects' with
  | nil =>
      obtain rfl := chain_nil.mp h
      exact (List.head?_eq_none_iff.mp h'.head).symm
  | cons object objects ih =>
      obtain ⟨rfl, c, next, hc, hlink, hrest⟩ := chain_cons.mp h
      cases objects' with
      | nil => cases chain_nil.mp h'
      | cons object' objects' =>
          obtain ⟨hobject, c', next', hc', hlink', hrest'⟩ := chain_cons.mp h'
          obtain rfl := Option.some.inj hobject
          obtain rfl := Option.some.inj (hc.symm.trans hc')
          obtain rfl := Link.to_injective (Option.some.inj (hlink.symm.trans hlink'))
          rw [ih hrest hrest']

/-- **No component is in a chain twice**: the chain would have to go on from it in two ways. -/
theorem Chain.nodup (h : Chain view staged head objects) : objects.Nodup := by
  induction objects generalizing head with
  | nil => exact List.nodup_nil
  | cons object objects ih =>
      obtain ⟨-, c, next, -, -, hrest⟩ := chain_cons.mp h
      refine List.nodup_cons.mpr ⟨fun hm => ?_, ih hrest⟩
      obtain ⟨before, after, rfl⟩ := List.append_of_mem hm
      have hagain : Chain view staged (some object) (object :: after) := hrest.of_append
      have hlength := congrArg List.length ((h.head ▸ h).unique hagain)
      simp at hlength
      omega

/-! ### Walks along a chain -/

theorem follow_eq_ok_iff_to {next : Option ObjectId} :
    follow view id staged object = .ok next ↔
      ∃ c, staged.get? view object = some c ∧ c.link = some (.to next) := by
  rw [follow_eq_ok]
  refine exists_congr fun c => and_congr_right fun _ => ?_
  rcases c.link with _ | _ | object' <;> cases next <;> simp [Component.linkTarget, Link.to, eq_comm]

/-- Without a head the walk is over, and so is the chain. -/
theorem walk_none_iff {budget : Nat} {members : List ObjectId} :
    r.walk view id staged budget none joined = .ok members ↔
      ∃ objects, Chain view staged none objects ∧ objects.length ≤ budget ∧
        members = objects.reverse ++ joined := by
  have hwalk : r.walk view id staged budget none joined = .ok joined := by
    cases budget <;> rfl
  rw [hwalk, Except.ok.injEq]
  constructor
  · rintro rfl
    exact ⟨[], chain_nil.mpr rfl, Nat.zero_le _, rfl⟩
  · rintro ⟨objects, hchain, -, rfl⟩
    rw [hchain.unique (chain_nil.mpr rfl)]
    rfl

/-- **A walk arrives at the members of a chain**, the last first, if its budget allows for all of
them. -/
theorem walk_eq_ok_iff_chain {budget : Nat} {members : List ObjectId} :
    r.walk view id staged budget head joined = .ok members ↔
      ∃ objects, Chain view staged head objects ∧ objects.length ≤ budget ∧
        members = objects.reverse ++ joined := by
  induction budget generalizing head joined with
  | zero =>
      cases head with
      | none => exact walk_none_iff
      | some object =>
          rw [walk]
          constructor
          · intro h
            cases h
          · rintro ⟨objects, hchain, hl, -⟩
            obtain rfl := List.length_eq_zero_iff.mp (Nat.le_zero.mp hl)
            cases chain_nil.mp hchain
  | succ budget ih =>
      cases head with
      | none => exact walk_none_iff
      | some object =>
          rw [walk]
          constructor
          · intro h
            cases hf : follow view id staged object with
            | error e => rw [hf] at h; cases h
            | ok next =>
                rw [hf] at h
                obtain ⟨c, hc, hlink⟩ := follow_eq_ok_iff_to.mp hf
                obtain ⟨objects, hchain, hl, rfl⟩ := ih.mp h
                exact ⟨object :: objects, chain_cons.mpr ⟨rfl, c, next, hc, hlink, hchain⟩,
                  Nat.succ_le_succ hl, by simp⟩
          · rintro ⟨objects, hchain, hl, rfl⟩
            cases objects with
            | nil => cases chain_nil.mp hchain
            | cons object' objects =>
                obtain ⟨hobject, c, next, hc, hlink, hrest⟩ := chain_cons.mp hchain
                obtain rfl := Option.some.inj hobject
                rw [follow_eq_ok_iff_to.mpr ⟨c, hc, hlink⟩]
                exact ih.mpr ⟨objects, hrest, Nat.le_of_succ_le_succ hl, by simp⟩

/-! ### Connecting -/

/-- The links from the head lead to an object, be it staged or not. -/
def LeadsTo (r : RosterRecord F) (view : α → Option (Component F)) (id : ObjectId)
    (staged : Staging α) (object : ObjectId) : Prop :=
  ∃ head, r.head = some head ∧ Relation.ReflTransGen (Leads view id staged) head object

/-- Why a list does not find its members. -/
inductive Refusal (r : RosterRecord F) (view : α → Option (Component F)) (id : ObjectId)
    (staged : Staging α) : CheckpointError → Prop where
  /-- What a link leads to is missing or not of the family. -/
  | unresolved {target : ObjectId} (led : r.LeadsTo view id staged target)
      (unseen : ∀ a, staged.object? target = some a → view a = none) :
      Refusal r view id staged (.unresolved id target)
  | notLinked {object : ObjectId} {c : Component F} (led : r.LeadsTo view id staged object)
      (found : staged.get? view object = some c) (unlinked : c.link = none) :
      Refusal r view id staged (.streamFormat (.notLinked F object id))
  /-- The links lead on behind as many components as the record claims. -/
  | tooLong {object : ObjectId} {objects : List ObjectId}
      (on : r.Passes view id staged (some object) objects)
      (passed : objects.length = r.count.toNat) :
      Refusal r view id staged (.streamFormat (.chainTooLong F id r.count))
  | tooShort {objects : List ObjectId} (chain : Chain view staged r.head objects)
      (short : objects.length < r.count.toNat) :
      Refusal r view id staged (.streamFormat (.memberCount F id objects.length r.count))

theorem follow_eq_error {e : CheckpointError} (h : follow view id staged object = .error e) :
    (e = .unresolved id object ∧ staged.get? view object = none) ∨
      ∃ c, e = .streamFormat (.notLinked F object id) ∧ staged.get? view object = some c ∧
        c.link = none := by
  rw [follow, Staging.resolve] at h
  cases hc : staged.get? view object with
  | none =>
      rw [hc] at h
      cases h
      exact .inl ⟨rfl, rfl⟩
  | some c =>
      rw [hc] at h
      refine .inr ⟨c, ?_⟩
      rcases hlink : c.link with _ | _ | next <;>
        simp only [bind, Except.bind, hlink, pure, Except.pure] at h <;> cases h
      exact ⟨rfl, rfl, rfl⟩

/-- What a list does with the outcome of its walk. -/
theorem connect_eq (r : RosterRecord F) (view : α → Option (Component F)) (id : ObjectId)
    (staged : Staging α) :
    connect view id staged r =
      match r.walk view id staged r.count.toNat r.head [] with
      | .error e => .error e r
      | .ok members =>
        if members.length = r.count.toNat then .ok () { r with members }
        else .error (.streamFormat (.memberCount F id members.length r.count)) r := by
  rw [connect, get_bind]
  cases r.walk view id staged r.count.toNat r.head [] with
  | error e => rfl
  | ok members =>
      simp only
      split <;> rfl

theorem connect_eq_ok_iff_chain {r' : RosterRecord F} :
    connect view id staged r = .ok () r' ↔
      ∃ objects, Chain view staged r.head objects ∧ objects.length = r.count.toNat ∧
        r' = { r with members := objects.reverse } := by
  rw [connect_eq]
  constructor
  · intro h
    cases hw : r.walk view id staged r.count.toNat r.head [] with
    | error e => rw [hw] at h; cases h
    | ok members =>
        rw [hw] at h
        obtain ⟨objects, hchain, -, rfl⟩ := walk_eq_ok_iff_chain.mp hw
        simp only [List.append_nil, List.length_reverse] at h
        split at h
        · next hl =>
          cases h
          exact ⟨objects, hchain, hl, rfl⟩
        · cases h
  · rintro ⟨objects, hchain, hl, rfl⟩
    have hw : r.walk view id staged r.count.toNat r.head [] = .ok objects.reverse :=
      walk_eq_ok_iff_chain.mpr ⟨objects, hchain, Nat.le_of_eq hl, by simp⟩
    rw [hw]
    simp only [List.length_reverse, hl, if_true]

/-- A list that is not connected has a reason, and stays as it is. -/
theorem refusal_of_not_chain
    (h : ¬ ∃ objects, Chain view staged r.head objects ∧ objects.length = r.count.toNat) :
    ∃ e, connect view id staged r = .error e r ∧ r.Refusal view id staged e := by
  rw [connect_eq]
  have hstart : r.Passes view id staged r.head [] := .start
  obtain ⟨cursor, joined, hpasses, hlast⟩ := hstart.exists_last
  rw [List.length_nil, Nat.sub_zero] at hlast
  generalize hw : r.walk view id staged r.count.toNat r.head [] = result at hlast
  cases hlast with
  | ended =>
      obtain ⟨objects, hchain, hle, rfl⟩ := walk_eq_ok_iff_chain.mp hw
      have hne : objects.length ≠ r.count.toNat := fun hl => h ⟨objects, hchain, hl⟩
      simp only [List.append_nil, List.length_reverse, if_neg hne]
      exact ⟨_, rfl, .tooShort hchain (Nat.lt_of_le_of_ne hle hne)⟩
  | usedUp claim => exact ⟨_, rfl, .tooLong hpasses claim⟩
  | lost within link =>
      rcases follow_eq_error link with ⟨rfl, hnone⟩ | ⟨c, rfl, hc, hlink⟩
      · refine ⟨_, rfl, .unresolved (hpasses.head_leads rfl) fun a ha => ?_⟩
        rwa [Staging.get?, ha] at hnone
      · exact ⟨_, rfl, .notLinked (hpasses.head_leads rfl) hc hlink⟩

/-- **A list is connected exactly when its components form a chain of the length that it claims.**
It then has the members of that chain, the last first, each of them once, and no other chain starts
at its head.  Otherwise it stays as it is, and there is a reason: a link leads to an object that is
missing or not of the family, and the error names the list and that object; or a component is not
linked, or the chain is longer or shorter than the record claims. -/
theorem connect_iff_chain (r : RosterRecord F) (view : α → Option (Component F)) (id : ObjectId)
    (staged : Staging α) :
    (∀ r', connect view id staged r = .ok () r' ↔
      ∃ objects, Chain view staged r.head objects ∧ objects.length = r.count.toNat ∧
        r' = { r with members := objects.reverse }) ∧
    (∀ objects, Chain view staged r.head objects → objects.Nodup ∧
      ∀ objects', Chain view staged r.head objects' → objects' = objects) ∧
    ((¬ ∃ objects, Chain view staged r.head objects ∧ objects.length = r.count.toNat) →
      ∃ e, connect view id staged r = .error e r ∧ r.Refusal view id staged e) :=
  ⟨fun _ => connect_eq_ok_iff_chain, fun _ h => ⟨h.nodup, fun _ h' => h'.unique h⟩,
    refusal_of_not_chain⟩

end RosterRecord

end ParticleSim
