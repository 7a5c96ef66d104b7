import ParticleSim.Proofs.Simulation.Operations
import Mathlib.Data.List.Infix

/-!
# Rosters — Who owns a component

Components can be copied, and a copy has the identity of its original.  A list refuses a component
that is linked or whose identity is among its own members; of other lists and of former members it
knows nothing.  A copy that was made before its original joined a list can therefore join another
list, or the same one after a teardown.

A `Workshop` is the lists of one family that share a registry, with the components that no list has
taken in yet.  It keeps a ledger of the identities that have joined and of those that teardowns have
deleted; each that has joined is a member or deleted (`Workshop.members_append_deleted_perm`).

* `Workshop.run_sound_iff`: identities have one owner, are registered and stay deleted, all along a
  run, exactly when none of them joins twice; and none does when only members are copied.
-/

namespace ParticleSim

/-- Lists that share a registry, and components at hand. -/
structure Workshop (F : Family) where
  registry : Registry
  lists : List (Roster F)
  /-- Components and copies of components that have been handed to no list yet. -/
  loose : List (Component F)
  /-- The identities that have joined a list, the latest first. -/
  joined : List ObjectId
  /-- The identities that teardowns have deleted. -/
  deleted : List ObjectId

namespace Workshop

variable {F : Family} {w w' : Workshop F}

/-- What can be done in a workshop. -/
inductive Act (F : Family) where
  | create (behaviors : Behaviors) (name : String) (kind : F.Kind) (params : F.Params)
      (symbol : Option String)
  /-- Copy the `i`-th component at hand. -/
  | copy (i : Nat)
  /-- Copy the `i`-th member of the `n`-th list. -/
  | copyMember (n i : Nat)
  /-- Hand the `i`-th component at hand to the `n`-th list. -/
  | append (i n : Nat)
  /-- Tear the `n`-th list down. -/
  | clear (n : Nat)

/-- Whether an act asks for a new identity. -/
def Act.creates : Act F → Bool
  | create .. => true
  | _ => false

/-- The workshop after an act.  A component that is handed to a list is gone, taken in or not. -/
def act (w : Workshop F) : Act F → Workshop F
  | .create behaviors name kind params symbol =>
    match Component.create w.registry behaviors name kind params symbol with
    | .error _ => w
    | .ok (c, registry) => { w with registry, loose := w.loose ++ [c] }
  | .copy i =>
    match w.loose[i]? with
    | none => w
    | some c => { w with loose := w.loose ++ [c] }
  | .copyMember n i =>
    match w.lists[n]?.bind (·.members[i]?) with
    | none => w
    | some c => { w with loose := w.loose ++ [c] }
  | .append i n =>
    match w.loose[i]?, w.lists[n]? with
    | some c, some l =>
      match l.append c with
      | .error _ => { w with loose := w.loose.eraseIdx i }
      | .ok l' =>
        { w with
          lists := w.lists.set n l'
          loose := w.loose.eraseIdx i
          joined := c.object :: w.joined }
    | _, _ => w
  | .clear n =>
    match w.lists[n]? with
    | none => w
    | some l =>
      { w with
        registry := l.forgetMembers w.registry
        lists := w.lists.set n l.clear
        deleted := l.members.map Component.object ++ w.deleted }

/-- One act after the other. -/
def run (w : Workshop F) (acts : List (Act F)) : Workshop F := acts.foldl act w

/-- The members of the lists, list by list. -/
def members (w : Workshop F) : List ObjectId :=
  w.lists.flatMap fun l => l.members.map Component.object

/-- Lists as they are before anything is created, copied or torn down. -/
def opened (registry : Registry) (lists : List (Roster F)) : Workshop F :=
  ⟨registry, lists, [], lists.flatMap fun l => l.members.map Component.object, []⟩

/-- Ownership is single and deletion final. -/
structure Sound (w : Workshop F) : Prop where
  /-- No identity is a member twice, be it of one list or of two. -/
  single : w.members.Nodup
  registered : ∀ id ∈ w.members, id ∈ w.registry.ids
  final : ∀ id ∈ w.members, id ∉ w.deleted

/-! ### What an act does -/

/-- What may become of a workshop by an act. -/
inductive Change (w : Workshop F) : Act F → Workshop F → Prop where
  | nothing {a : Act F} : Change w a w
  | created {behaviors : Behaviors} {name : String} {kind : F.Kind} {params : F.Params}
      {symbol : Option String} {c : Component F} (object : c.object = w.registry.nextId)
      (unlinked : c.link = none) :
      Change w (.create behaviors name kind params symbol)
        { w with registry := w.registry.register F.tag, loose := w.loose ++ [c] }
  | copied {i : Nat} {c : Component F} (held : c ∈ w.loose) :
      Change w (.copy i) { w with loose := w.loose ++ [c] }
  | copiedMember {n i : Nat} {l : Roster F} {c : Component F} (held : l ∈ w.lists)
      (member : c ∈ l.members) : Change w (.copyMember n i) { w with loose := w.loose ++ [c] }
  | refused {i n : Nat} {c : Component F} {loose : List (Component F)}
      (held : w.loose.Perm (c :: loose)) : Change w (.append i n) { w with loose }
  | joined {i n : Nat} {before after : List (Roster F)} {l l' : Roster F} {c : Component F}
      {loose : List (Component F)} (lists : w.lists = before ++ l :: after)
      (held : w.loose.Perm (c :: loose)) (append : l.append c = .ok l') :
      Change w (.append i n)
        { w with lists := before ++ l' :: after, loose, joined := c.object :: w.joined }
  | cleared {n : Nat} {before after : List (Roster F)} {l : Roster F}
      (lists : w.lists = before ++ l :: after) :
      Change w (.clear n)
        { w with
          registry := l.forgetMembers w.registry
          lists := before ++ l.clear :: after
          deleted := l.members.map Component.object ++ w.deleted }

/-- A place in a list, and what stands before and behind it. -/
theorem exists_split {α : Type} {l : List α} {n : Nat} {a : α} (h : l[n]? = some a) :
    ∃ before after, l = before ++ a :: after ∧ ∀ b, l.set n b = before ++ b :: after := by
  obtain ⟨hn, ha⟩ := List.getElem?_eq_some_iff.mp h
  refine ⟨l.take n, l.drop (n + 1), ?_, fun b => ?_⟩
  · rw [← ha, List.getElem_cons_drop, List.take_append_drop]
  · rw [List.set_eq_take_append_cons_drop, if_pos hn]

/-- What is taken out of its place leaves the others. -/
theorem perm_eraseIdx {α : Type} {l : List α} {n : Nat} {a : α} (h : l[n]? = some a) :
    l.Perm (a :: l.eraseIdx n) := by
  obtain ⟨hn, ha⟩ := List.getElem?_eq_some_iff.mp h
  rw [← ha]
  exact (List.getElem_cons_eraseIdx_perm hn).symm

theorem change (w : Workshop F) (a : Act F) : w.Change a (w.act a) := by
  cases a with
  | create behaviors name kind params symbol =>
      rw [act, Component.create]
      cases behaviors.bind F symbol with
      | error symbol => exact .nothing
      | ok behavior => exact .created rfl rfl
  | copy i =>
      rw [act]
      cases hc : w.loose[i]? with
      | none => exact .nothing
      | some c => exact .copied (List.mem_of_getElem? hc)
  | copyMember n i =>
      rw [act]
      cases hc : w.lists[n]?.bind (·.members[i]?) with
      | none => exact .nothing
      | some c =>
          obtain ⟨l, hl, hc⟩ := Option.bind_eq_some_iff.mp hc
          exact .copiedMember (List.mem_of_getElem? hl) (List.mem_of_getElem? hc)
  | append i n =>
      rw [act]
      cases hc : w.loose[i]? with
      | none => exact .nothing
      | some c =>
          cases hl : w.lists[n]? with
          | none => exact .nothing
          | some l =>
              obtain ⟨before, after, hlists, hset⟩ := exists_split hl
              simp only [hset]
              cases ha : l.append c with
              | error e => exact .refused (perm_eraseIdx hc)
              | ok l' => exact .joined hlists (perm_eraseIdx hc) ha
  | clear n =>
      rw [act]
      cases hl : w.lists[n]? with
      | none => exact .nothing
      | some l =>
          obtain ⟨before, after, hlists, hset⟩ := exists_split hl
          simp only [hset]
          exact .cleared hlists

theorem run_concat (w : Workshop F) (acts : List (Act F)) (a : Act F) :
    w.run (acts ++ [a]) = (w.run acts).act a := by
  rw [run, List.foldl_append]
  rfl

/-- What an act keeps holds all along a run. -/
theorem run_induction {P : Workshop F → Prop} (start : P w)
    (step : ∀ w a, P w → P (w.act a)) (acts : List (Act F)) : P (w.run acts) := by
  induction acts using List.reverseRecOn with
  | nil => exact start
  | append_singleton acts a ih =>
      rw [run_concat]
      exact step _ a ih

/-! ### The ledger -/

/-- The members are those of one list and those of the others. -/
theorem members_perm {before after : List (Roster F)} {l : Roster F}
    (h : w.lists = before ++ l :: after) :
    w.members.Perm (l.members.map Component.object ++
      (before ++ after).flatMap fun l => l.members.map Component.object) := by
  rw [members, h]
  exact List.perm_middle.flatMap_right _

/-- A component that joins a list is one member more. -/
theorem members_perm_of_append {before after : List (Roster F)} {l l' : Roster F} {c : Component F}
    (h : w.lists = before ++ l :: after) (ha : l.append c = .ok l')
    (h' : w'.lists = before ++ l' :: after) : w'.members.Perm (c.object :: w.members) := by
  obtain ⟨-, -, rfl⟩ := Roster.append_eq_ok.mp ha
  refine (members_perm h').trans (.trans ?_ ((members_perm h).symm.cons _))
  rw [List.map_append, ← List.cons_append]
  exact (List.perm_append_singleton ..).append_right _

/-- **Each identity that has joined is a member or deleted**, as often as it has joined. -/
theorem members_append_deleted_perm (registry : Registry) (lists : List (Roster F))
    (acts : List (Act F)) :
    (((opened registry lists).run acts).members ++ ((opened registry lists).run acts).deleted).Perm
      ((opened registry lists).run acts).joined := by
  refine run_induction (P := fun w => (w.members ++ w.deleted).Perm w.joined) ?_ ?_ acts
  · rw [show (opened registry lists).deleted = [] from rfl, List.append_nil]
    exact .refl _
  · intro w a h
    have hc := w.change a
    generalize w.act a = w' at hc
    cases hc with
    | nothing => exact h
    | created _ _ => exact h
    | copied _ => exact h
    | copiedMember _ _ => exact h
    | refused _ => exact h
    | joined lists _ append =>
        exact ((members_perm_of_append lists append rfl).append_right _).trans (h.cons _)
    | @cleared n before after l lists =>
        -- the members of the list go over to the deleted ones
        refine List.Perm.trans ?_ h
        refine ((members_perm (l := l.clear) rfl).append_right _).trans ?_
        refine List.Perm.trans ?_ ((members_perm lists).symm.append_right _)
        rw [show (l.clear).members = [] from rfl, List.map_nil, List.nil_append, List.append_assoc]
        exact List.perm_append_comm_assoc ..

/-- Joining is never undone in the ledger. -/
theorem joined_suffix_act (w : Workshop F) (a : Act F) : w.joined <:+ (w.act a).joined := by
  have hc := w.change a
  generalize w.act a = w' at hc
  cases hc with
  | joined _ _ _ => exact List.suffix_cons ..
  | _ => exact List.suffix_refl _

theorem joined_suffix_run (w : Workshop F) (acts : List (Act F)) :
    w.joined <:+ (w.run acts).joined :=
  run_induction (P := fun w' => w.joined <:+ w'.joined) (List.suffix_refl _)
    (fun w' a h => h.trans (w'.joined_suffix_act a)) acts

/-! ### Registration -/

theorem mem_ids_forgetMembers {l : Roster F} {registry : Registry} {id : ObjectId} :
    id ∈ (l.forgetMembers registry).ids ↔
      id ∈ registry.ids ∧ id ∉ l.members.map Component.object := by
  rw [Registry.ids, OrderedMap.keys, (l.entries_forgetMembers registry).1]
  simp only [List.mem_map, List.mem_filter, decide_eq_true_eq, Registry.ids, OrderedMap.keys]
  constructor
  · rintro ⟨e, ⟨he, hn⟩, rfl⟩
    exact ⟨⟨e, he, rfl⟩, hn⟩
  · rintro ⟨⟨e, he, rfl⟩, hn⟩
    exact ⟨e, ⟨he, hn⟩, rfl⟩

theorem mem_ids_register {registry : Registry} {tag : String} {id : ObjectId} :
    id ∈ (registry.register tag).ids ↔ id ∈ registry.ids ∨ id = registry.nextId := by
  rw [Registry.ids_register]
  split
  · next h =>
    constructor
    · exact .inl
    · rintro (hid | rfl)
      · exact hid
      · exact h
  · rw [List.mem_append, List.mem_singleton]

/-- The identities of members and of components at hand are registered until they are deleted. -/
def Registered (w : Workshop F) : Prop :=
  ∀ id, id ∈ w.members ∨ id ∈ w.loose.map Component.object → id ∉ w.deleted → id ∈ w.registry.ids

theorem Registered.act (h : w.Registered) (a : Act F) : (w.act a).Registered := by
  have hc := w.change a
  generalize w.act a = w' at hc
  intro id hid hdeleted
  cases hc with
  | nothing => exact h id hid hdeleted
  | created object _ =>
      rw [mem_ids_register]
      rw [List.map_append, List.mem_append] at hid
      rcases hid with hid | hid | hid
      · exact .inl (h id (.inl hid) hdeleted)
      · exact .inl (h id (.inr hid) hdeleted)
      · exact .inr ((List.mem_singleton.mp hid).trans object)
  | copied held =>
      rw [List.map_append, List.mem_append] at hid
      rcases hid with hid | hid | hid
      · exact h id (.inl hid) hdeleted
      · exact h id (.inr hid) hdeleted
      · exact h id (.inr (List.mem_singleton.mp hid ▸ List.mem_map_of_mem held)) hdeleted
  | copiedMember held member =>
      rw [List.map_append, List.mem_append] at hid
      rcases hid with hid | hid | hid
      · exact h id (.inl hid) hdeleted
      · exact h id (.inr hid) hdeleted
      · refine h id (.inl (List.mem_flatMap.mpr ⟨_, held, ?_⟩)) hdeleted
        exact List.mem_singleton.mp hid ▸ List.mem_map_of_mem member
  | refused held =>
      refine h id (hid.imp_right fun hid => ?_) hdeleted
      exact ((held.map Component.object).mem_iff).mpr (List.mem_cons_of_mem _ hid)
  | @joined i n before after l l' c loose lists held append =>
      have hloose := (held.map Component.object).mem_iff (a := id)
      rw [(members_perm_of_append lists append rfl).mem_iff, List.mem_cons] at hid
      rcases hid with (hid | hid) | hid
      · exact h id (.inr (hloose.mpr (hid ▸ List.mem_cons_self))) hdeleted
      · exact h id (.inl hid) hdeleted
      · exact h id (.inr (hloose.mpr (List.mem_cons_of_mem _ hid))) hdeleted
  | @cleared n before after l lists =>
      rw [List.mem_append, not_or] at hdeleted
      refine mem_ids_forgetMembers.mpr ⟨h id (hid.imp_left fun hid => ?_) hdeleted.2, hdeleted.1⟩
      rw [(members_perm lists).mem_iff, List.mem_append]
      rw [(members_perm (l := l.clear) rfl).mem_iff, List.mem_append] at hid
      exact hid.imp_left fun hid => absurd hid List.not_mem_nil

/-! ### Sound runs -/

section

variable {registry : Registry} {lists : List (Roster F)}

/-- A workshop in which no identity has joined twice is sound. -/
theorem sound_of_joined_nodup (h : (opened registry lists).Sound) {acts : List (Act F)}
    (hn : ((opened registry lists).run acts).joined.Nodup) :
    ((opened registry lists).run acts).Sound := by
  have hperm := members_append_deleted_perm registry lists acts
  obtain ⟨hmembers, -, hdisjoint⟩ := List.nodup_append.mp (hperm.nodup_iff.mpr hn)
  have hfinal : ∀ id ∈ ((opened registry lists).run acts).members,
      id ∉ ((opened registry lists).run acts).deleted :=
    fun id hid hd => hdisjoint id hid id hd rfl
  have hstart : (opened registry lists).Registered := fun id hid _ =>
    h.registered id (hid.resolve_right List.not_mem_nil)
  have hregistered := run_induction hstart (fun w a hw => hw.act a) acts
  exact ⟨hmembers, fun id hid => hregistered id (.inl hid) (hfinal id hid), hfinal⟩

/-- An identity that joins once more is a member twice or was deleted. -/
theorem not_joined_of_sound (id : ObjectId) {acts : List (Act F)} {a : Act F}
    (hs : ((opened registry lists).run (acts ++ [a])).Sound)
    (hj : ((opened registry lists).run (acts ++ [a])).joined =
      id :: ((opened registry lists).run acts).joined) :
    id ∉ ((opened registry lists).run acts).joined := by
  rw [run_concat] at hs hj
  have hc := ((opened registry lists).run acts).change a
  have hperm := members_append_deleted_perm registry lists acts
  generalize (opened registry lists).run acts = w at hs hj hc hperm
  generalize w.act a = w' at hs hj hc
  intro hid
  rw [← hperm.mem_iff, List.mem_append] at hid
  cases hc with
  | @joined i n before after l l' c loose lists held append =>
      obtain ⟨rfl, -⟩ := List.cons.inj hj
      have hsingle := hs.single
      have hfinal := hs.final c.object
      rw [(members_perm_of_append lists append rfl).nodup_iff, List.nodup_cons] at hsingle
      rw [(members_perm_of_append lists append rfl).mem_iff] at hfinal
      rcases hid with hid | hid
      · exact hsingle.1 hid
      · exact hfinal List.mem_cons_self hid
  | _ => exact List.cons_ne_self _ _ hj.symm

theorem joined_nodup_of_sound {acts : List (Act F)}
    (h : ∀ before, before <+: acts → ((opened registry lists).run before).Sound) :
    ((opened registry lists).run acts).joined.Nodup := by
  induction acts using List.reverseRecOn with
  | nil => exact (h [] (List.prefix_refl _)).single
  | append_singleton acts a ih =>
      have hn := ih fun before hb => h before (hb.trans (List.prefix_append ..))
      have hs := h (acts ++ [a]) (List.prefix_refl _)
      have hnot := fun id => not_joined_of_sound id hs
      rw [run_concat] at hnot ⊢
      have hc := ((opened registry lists).run acts).change a
      generalize (opened registry lists).run acts = w at hn hnot hc
      generalize w.act a = w' at hnot hc
      cases hc with
      | joined _ _ _ => exact List.nodup_cons.mpr ⟨hnot _ rfl, hn⟩
      | _ => exact hn

end

/-! ### Copies of members only -/

/-- The identities of the components at hand that are not linked. -/
def pending (w : Workshop F) : List ObjectId :=
  (w.loose.filter fun c => c.link.isNone).map Component.object

/-- Every identity that may still join is one of its own and has not joined yet. -/
structure Tidy (w : Workshop F) : Prop where
  nodup : (w.pending ++ w.joined).Nodup
  below : ∀ id ∈ w.pending ++ w.joined, id.val < w.registry.cursor
  linked : ∀ l ∈ w.lists, ∀ c ∈ l.members, c.link.isSome

theorem cursor_act_le (w : Workshop F) (a : Act F) :
    (w.act a).registry.cursor.toNat ≤ w.registry.cursor.toNat + if a.creates then 1 else 0 := by
  have hc := w.change a
  generalize w.act a = w' at hc
  cases hc with
  | created _ _ =>
      show (w.registry.cursor + 1).toNat ≤ w.registry.cursor.toNat + 1
      rw [UInt64.toNat_add]
      exact Nat.mod_le ..
  | cleared _ => rw [(Roster.entries_forgetMembers _ _).2]; exact Nat.le_add_right ..
  | _ => exact Nat.le_add_right ..

/-- What is pending when a component is gone. -/
theorem pending_perm {c : Component F} {loose : List (Component F)}
    (held : w.loose.Perm (c :: loose)) :
    w.pending.Perm ((if c.link.isNone then [c.object] else []) ++
      ({ w with loose } : Workshop F).pending) := by
  refine ((held.filter _).map Component.object).trans ?_
  by_cases hl : c.link.isNone = true <;> simp [pending, hl]

theorem Tidy.act (h : w.Tidy) {a : Act F} (hcopy : ∀ i, a ≠ .copy i)
    (hw : a.creates = true → w.registry.cursor.toNat + 1 < UInt64.size) : (w.act a).Tidy := by
  have hc := w.change a
  generalize w.act a = w' at hc
  cases hc with
  | nothing => exact h
  | @created behaviors name kind params symbol c object unlinked =>
      have hpending : ({ w with
          registry := w.registry.register F.tag
          loose := w.loose ++ [c] } : Workshop F).pending = w.pending ++ [w.registry.nextId] := by
        simp [pending, unlinked, object]
      have hcursor : w.registry.cursor < w.registry.cursor + 1 := by
        have hmod : (w.registry.cursor.toNat + 1) % 2 ^ 64 = w.registry.cursor.toNat + 1 :=
          Nat.mod_eq_of_lt (hw rfl)
        rw [UInt64.lt_iff_toNat_lt, UInt64.toNat_add, UInt64.toNat_one, hmod]
        exact Nat.lt_succ_self _
      have hperm : ((w.pending ++ [w.registry.nextId]) ++ w.joined).Perm
          (w.registry.nextId :: (w.pending ++ w.joined)) := by
        rw [List.append_assoc]
        exact List.perm_middle
      refine ⟨?_, fun id hid => ?_, h.linked⟩
      · rw [hpending, hperm.nodup_iff, List.nodup_cons]
        exact ⟨fun hid => UInt64.lt_irrefl _ (h.below _ hid), h.nodup⟩
      · rw [hpending, hperm.mem_iff, List.mem_cons] at hid
        rcases hid with rfl | hid
        · exact hcursor
        · exact UInt64.lt_trans (h.below id hid) hcursor
  | copied _ => exact absurd rfl (hcopy _)
  | @copiedMember n i l c held member =>
      have hlinked := h.linked l held c member
      have hpending : ({ w with loose := w.loose ++ [c] } : Workshop F).pending = w.pending := by
        simp [pending, Option.isSome_iff_ne_none.mp hlinked]
      exact ⟨hpending ▸ h.nodup, hpending ▸ h.below, h.linked⟩
  | @refused i n c loose held =>
      have hsub : ({ w with loose } : Workshop F).pending.Subperm w.pending :=
        (List.sublist_append_right ..).subperm.trans (pending_perm held).symm.subperm
      obtain ⟨ids, hp, hs⟩ := (List.subperm_append_right w.joined).mpr hsub
      exact ⟨hp.nodup_iff.mp (h.nodup.sublist hs),
        fun id hid => h.below id (hs.subset (hp.mem_iff.mpr hid)), h.linked⟩
  | @joined i n before after l l' c loose lists held append =>
      obtain ⟨hlink, -, rfl⟩ := Roster.append_eq_ok.mp append
      have hperm : (({ w with loose } : Workshop F).pending ++ c.object :: w.joined).Perm
          (w.pending ++ w.joined) := by
        refine List.perm_middle.trans (.trans ?_ ((pending_perm held).symm.append_right _))
        rw [hlink]
        exact .refl _
      refine ⟨hperm.nodup_iff.mpr h.nodup, fun id hid => h.below id (hperm.mem_iff.mp hid), ?_⟩
      have hlinked := h.linked
      rw [lists, List.forall_mem_append, List.forall_mem_cons] at hlinked
      obtain ⟨hbefore, hl, hafter⟩ := hlinked
      refine List.forall_mem_append.mpr ⟨hbefore, List.forall_mem_cons.mpr ⟨?_, hafter⟩⟩
      exact List.forall_mem_append.mpr ⟨hl, List.forall_mem_singleton.mpr rfl⟩
  | @cleared n before after l lists =>
      refine ⟨h.nodup, fun id hid => ?_, ?_⟩
      · rw [(Roster.entries_forgetMembers _ _).2]
        exact h.below id hid
      · have hlinked := h.linked
        rw [lists, List.forall_mem_append, List.forall_mem_cons] at hlinked
        obtain ⟨hbefore, -, hafter⟩ := hlinked
        refine List.forall_mem_append.mpr ⟨hbefore, List.forall_mem_cons.mpr ⟨?_, hafter⟩⟩
        exact fun c hc => absurd hc List.not_mem_nil

theorem Tidy.run (h : w.Tidy) {acts : List (Act F)} (hcopy : ∀ i, Act.copy i ∉ acts)
    (hw : w.registry.cursor.toNat + acts.countP Act.creates < UInt64.size) : (w.run acts).Tidy := by
  induction acts generalizing w with
  | nil => exact h
  | cons a acts ih =>
      rw [List.countP_cons] at hw
      have hcursor := w.cursor_act_le a
      refine ih (h.act (fun i e => hcopy i (e ▸ List.mem_cons_self)) fun ha => ?_)
        (fun i hi => hcopy i (List.mem_cons_of_mem a hi)) ?_
      · rw [if_pos ha] at hw
        omega
      · omega

/-- **Who owns a component.**  All along a run every identity is a member at most once, be it of one
list or of two, every member is registered, and what a teardown has deleted is no member again,
exactly when no identity joins a list twice.  That is so when only members are copied and the cursor
does not wrap. -/
theorem run_sound_iff {registry : Registry} {lists : List (Roster F)}
    (h : (opened registry lists).Sound) (acts : List (Act F)) :
    ((∀ before, before <+: acts → ((opened registry lists).run before).Sound) ↔
      ((opened registry lists).run acts).joined.Nodup) ∧
    ((∀ l ∈ lists, ∀ c ∈ l.members, c.link.isSome ∧ c.object.val < registry.cursor) →
      registry.cursor.toNat + acts.countP Act.creates < UInt64.size → (∀ i, Act.copy i ∉ acts) →
      ∀ before, before <+: acts → ((opened registry lists).run before).Sound) := by
  have hiff : (∀ before, before <+: acts → ((opened registry lists).run before).Sound) ↔
      ((opened registry lists).run acts).joined.Nodup := by
    refine ⟨joined_nodup_of_sound, fun hn before hb => sound_of_joined_nodup h ?_⟩
    obtain ⟨rest, rfl⟩ := hb
    have hsuffix := ((opened registry lists).run before).joined_suffix_run rest
    rw [run, List.foldl_append] at hn
    exact hn.sublist hsuffix.sublist
  refine ⟨hiff, fun hmembers hw hcopy => hiff.mpr ?_⟩
  have hstart : (opened registry lists).Tidy := by
    refine ⟨h.single, fun id hid => ?_, fun l hl c hc => (hmembers l hl c hc).1⟩
    obtain ⟨l, hl, hid⟩ := List.mem_flatMap.mp hid
    obtain ⟨c, hc, rfl⟩ := List.mem_map.mp hid
    exact (hmembers l hl c hc).2
  exact (List.nodup_append.mp (hstart.run hcopy hw).nodup).2.1

/-! ### A copy that joins -/

/-- Two lists of collision operators, which have no members. -/
def pair : Workshop .collision :=
  opened ((Registry.empty.register Family.collision.listTag).register Family.collision.listTag)
    [.empty ⟨0⟩ ⟨0⟩, .empty ⟨1⟩ ⟨1⟩]

/-- A collision operator without a behavior. -/
def createDrag : Act .collision := .create .none "drag" CollisionKind.user [] none

theorem pair_sound : pair.Sound := ⟨List.nodup_nil, by decide, by decide⟩

/-- A copy of a component joins the second list after the component has joined the first one; a copy
of the member does not. -/
theorem run_sound_iff_pair :
    (¬ ∀ before, before <+: [createDrag, .copy 0, .append 0 0, .append 0 1] →
      (pair.run before).Sound) ∧
    (pair.run [createDrag, .append 0 0, .copyMember 0 0, .append 0 1]).Sound := by
  constructor
  · rw [pair, (run_sound_iff pair_sound _).1]
    decide
  · exact (run_sound_iff pair_sound _).2 (by decide) (by decide) (by simp [createDrag]) _
      (List.prefix_refl _)

/-- **A copy may take what is not its own**: it joins a second list, or it joins when its identity
has been deleted, and then nobody has registered it. -/
theorem exists_not_sound :
    (pair.run [createDrag, .copy 0, .append 0 0, .append 0 1]).members = [⟨2⟩, ⟨2⟩] ∧
    (pair.run [createDrag, .copy 0, .append 0 0, .clear 0, .append 0 0]).members = [⟨2⟩] ∧
    (pair.run [createDrag, .copy 0, .append 0 0, .clear 0, .append 0 0]).deleted = [⟨2⟩] ∧
    ⟨2⟩ ∉ (pair.run [createDrag, .copy 0, .append 0 0, .clear 0, .append 0 0]).registry.ids := by
  decide

end Workshop

end ParticleSim
