import ParticleSim.Roster.Dynamics
import Mathlib.Data.List.Forall2
import Mathlib.Data.List.Nodup

/-!
# Rosters — Chains

The id and the link of a member are those it was given when it joined, and nothing changes them as
long as it is in the list.  `Roster.Chained` says so in terms of the list as it was then
(`Roster.first`).

* A component that joins a chained list leaves it chained (`Roster.Chained.append`).
* Behaviors change parameters only (`Roster.Retuned`), and a chain does not depend on these
  (`Roster.Chained.retuned`).
* Joining the members of a chained list one by one to an empty list gives that list again
  (`Roster.Chained.joinAll_eq`).
-/

namespace ParticleSim

/-! ### One component, retuned -/

/-- Two components that differ in their parameters only. -/
def Component.Retuned {F : Family} (c c' : Component F) : Prop := ∃ params, c' = { c with params }

namespace Component

variable {F : Family} {c c' : Component F}

theorem Retuned.refl (c : Component F) : c.Retuned c := ⟨c.params, rfl⟩

theorem collide_retuned (c : Component .collision) (species : SpeciesList) :
    c.Retuned (c.collide species).1 := by
  rw [collide]
  split
  · exact .refl c
  · exact ⟨_, rfl⟩

theorem emit_retuned (c : Component .emitter) (species : SpeciesList) :
    c.Retuned (c.emit species).1 := by
  rw [emit]
  split
  · exact .refl c
  · exact ⟨_, rfl⟩
  · exact ⟨_, rfl⟩

theorem runEach_retuned {run : Component F → SpeciesList → Component F × SpeciesList}
    (h : ∀ c species, Retuned c (run c species).1) (cs : List (Component F))
    (species : SpeciesList) : List.Forall₂ Retuned cs (runEach run cs species).1 := by
  induction cs with
  | nil => exact .nil
  | cons c cs ih => exact .cons (h c _) ih

/-- Two components in the same place of a list: they are the same object, of the same kind, with the
same id and link. -/
structure Akin (c c' : Component F) : Prop where
  object : c'.object = c.object
  id : c'.id = c.id
  kind : c'.kind = c.kind
  link : c'.link = c.link

theorem Retuned.akin (h : c.Retuned c') : c.Akin c' := by
  obtain ⟨params, rfl⟩ := h
  exact ⟨rfl, rfl, rfl, rfl⟩

/-- A component in no list, as it was before it joined. -/
def detach (c : Component F) : Component F := { c with id := none, link := none }

end Component

namespace Roster

variable {F : Family} {l l' : Roster F}

/-! ### Lists that count and link alike -/

theorem count_congr (h : l.members.map Component.id = l'.members.map Component.id) :
    l.count = l'.count := by
  have hs : l.size = l'.size := by
    simpa [size] using congrArg List.length h
  have hh : l.head?.bind Component.id = l'.head?.bind Component.id := by
    have hlast := congrArg (fun ids => ids.getLast?.bind id) h
    simpa only [head?, List.getLast?_map, Option.bind_map, Function.comp_def, id] using hlast
  cases F with
  | boundary => cases hb : l'.head?.bind Component.id <;> simp only [count, hh, hb, hs]
  | collision => exact hs
  | emitter => exact hs

theorem nextLink_congr (h : l.members.map Component.object = l'.members.map Component.object) :
    l.nextLink = l'.nextLink := by
  have hh : l.head?.map Component.object = l'.head?.map Component.object := by
    simpa [head?, ← List.getLast?_map] using congrArg List.getLast? h
  rw [nextLink, nextLink]
  cases hl : l.head? <;> cases hl' : l'.head? <;> simp_all

/-! ### Chains -/

/-- The list as it was when `i` components had joined. -/
def first (l : Roster F) (i : Nat) : Roster F := { l with members := l.members.take i }

/-- Every member stands in a relation to the list that it joined. -/
def Joined (R : Component F → Roster F → Prop) (l : Roster F) : Prop :=
  ∀ i c, l.members[i]? = some c → R c (l.first i)

/-- Every member has the id that it was given when it joined. -/
def Numbered : Roster F → Prop := Joined fun c l => c.id = some (F.nextId c.kind l.count)

/-- Every member has the link that it was given when it joined. -/
def Linked : Roster F → Prop := Joined fun c l => c.link = some l.nextLink

/-- Every member has the id and the link that it was given when it joined. -/
def Chained : Roster F → Prop :=
  Joined fun c l => c.id = some (F.nextId c.kind l.count) ∧ c.link = some l.nextLink

theorem chained_iff : l.Chained ↔ l.Numbered ∧ l.Linked := by
  simp only [Chained, Numbered, Linked, Joined, ← forall_and]

theorem chained_empty (object : ObjectId) (place : ListInstance) :
    (empty object place : Roster F).Chained := by
  intro i c h
  simp [empty] at h

theorem chained_clear (l : Roster F) : l.clear.Chained := by
  intro i c h
  simp [clear] at h

theorem first_size (l : Roster F) : l.first l.members.length = l := by
  simp [first]

/-- What joins a list later is not seen from its first members. -/
theorem first_append (l : Roster F) (cs : List (Component F)) {i : Nat}
    (h : i ≤ l.members.length) :
    ({ l with members := l.members ++ cs } : Roster F).first i = l.first i := by
  simp [first, List.take_append_of_le_length h]

/-- What holds of all members holds of the first ones. -/
theorem Joined.of_append {R : Component F → Roster F → Prop} {cs : List (Component F)}
    (h : ({ l with members := l.members ++ cs } : Roster F).Joined R) : l.Joined R := by
  intro i c hc
  have hi : i < l.members.length := (List.getElem?_eq_some_iff.mp hc).1
  rw [← first_append l cs (Nat.le_of_lt hi)]
  exact h i c (by rwa [List.getElem?_append_left hi])

/-- One component more has to stand in the relation to the list without it. -/
theorem joined_concat {R : Component F → Roster F → Prop} {c : Component F} :
    ({ l with members := l.members ++ [c] } : Roster F).Joined R ↔ l.Joined R ∧ R c l := by
  constructor
  · intro h
    constructor
    · exact h.of_append
    · have hlast := h l.members.length c List.getElem?_concat_length
      rwa [first_append l [c] (Nat.le_refl _), first_size] at hlast
  · rintro ⟨h, hc⟩ i c' hc'
    rcases Nat.lt_trichotomy i l.members.length with hi | rfl | hi
    · rw [List.getElem?_append_left hi] at hc'
      rw [first_append l [c] (Nat.le_of_lt hi)]
      exact h i c' hc'
    · rw [List.getElem?_concat_length] at hc'
      cases hc'
      rwa [first_append l [c] (Nat.le_refl _), first_size]
    · rw [List.getElem?_eq_none (by simp only [List.length_append, List.length_singleton]; omega)] at hc'
      cases hc'

/-- A list stays chained when a component joins it with the next id and link. -/
theorem Chained.concat (h : l.Chained) {c : Component F}
    (hid : c.id = some (F.nextId c.kind l.count)) (hlink : c.link = some l.nextLink) :
    ({ l with members := l.members ++ [c] } : Roster F).Chained :=
  joined_concat.mpr ⟨h, hid, hlink⟩

theorem append_eq_ok {c : Component F} :
    l.append c = .ok l' ↔
      c.link = none ∧ l.contains c.object = false ∧
        l' = { l with members := l.members ++ [c.attach (F.nextId c.kind l.count) l.nextLink] } := by
  rw [append]
  split
  · next h =>
    rw [Bool.or_eq_true, Option.isSome_iff_ne_none] at h
    constructor
    · intro h'
      cases h'
    · rintro ⟨hl, hc, -⟩
      rcases h with h | h
      · exact absurd hl h
      · rw [hc] at h
        cases h
  · next h =>
    simp only [Bool.or_eq_true, not_or, Bool.not_eq_true, Option.isSome_eq_false_iff,
      Option.isNone_iff_eq_none] at h
    simp [h.1, h.2, eq_comm]

theorem Chained.append {c : Component F} (h : l.Chained) (ha : l.append c = .ok l') :
    l'.Chained := by
  obtain ⟨-, -, rfl⟩ := append_eq_ok.mp ha
  exact h.concat rfl rfl

/-- Whether a list is chained depends on the places of its members only. -/
theorem Chained.akin (hc : l.Chained) (h : List.Forall₂ Component.Akin l.members l'.members) :
    l'.Chained := by
  have hmap : ∀ {β : Type} (f : Component F → β), (∀ c c', c.Akin c' → f c' = f c) → ∀ i,
      (l'.first i).members.map f = (l.first i).members.map f := by
    intro β f hf i
    have hsame : ∀ {cs cs' : List (Component F)}, List.Forall₂ Component.Akin cs cs' →
        cs'.map f = cs.map f := by
      intro cs cs' hcs
      induction hcs with
      | nil => rfl
      | cons hc _ ih => rw [List.map_cons, List.map_cons, hf _ _ hc, ih]
    exact hsame (List.forall₂_take i h)
  intro i c' hc'
  have hi : i < l'.members.length := (List.getElem?_eq_some_iff.mp hc').1
  have hi' : i < l.members.length := h.length_eq ▸ hi
  have hakin := (List.forall₂_iff_get.mp h).2 i hi' hi
  obtain ⟨hid, hlink⟩ := hc i _ (List.getElem?_eq_getElem hi')
  rw [List.getElem?_eq_getElem hi, Option.some.injEq] at hc'
  simp only [List.get_eq_getElem] at hakin
  rw [count_congr (hmap Component.id (fun _ _ hr => hr.id) i),
    nextLink_congr (hmap Component.object (fun _ _ hr => hr.object) i), ← hc', hakin.id, hakin.kind,
    hakin.link]
  exact ⟨hid, hlink⟩

/-- Who joins after another is linked to the one before. -/
theorem nextLink_first_succ {i : Nat} {c : Component F} (h : l.members[i]? = some c) :
    (l.first (i + 1)).nextLink = .next c.object := by
  have hlast : (l.first (i + 1)).head? = some c := by
    rw [head?, first, List.take_add_one, h, Option.toList_some, List.getLast?_concat]
  rw [nextLink, hlast]

/-! ### Joining again -/

/-- Components join a list one after the other. -/
def joinAll : Roster F → List (Component F) → Except ComponentError (Roster F)
  | l, [] => .ok l
  | l, c :: cs => do joinAll (← l.append c) cs

/-- Joining the members behind the first `i` to those gives the list. -/
theorem Chained.joinAll_drop (h : l.Chained) (hn : (l.members.map Component.object).Nodup) {i : Nat}
    (hi : i ≤ l.members.length) :
    (l.first i).joinAll ((l.members.drop i).map Component.detach) = .ok l := by
  -- on how many members are still to join
  induction hk : l.members.length - i generalizing i with
  | zero =>
      obtain rfl : i = l.members.length := by omega
      simp [joinAll, first_size]
  | succ k ih =>
      have hlt : i < l.members.length := by omega
      obtain ⟨hid, hlink⟩ := h i _ (List.getElem?_eq_getElem hlt)
      have hnot : (l.first i).contains l.members[i].object = false := by
        rw [contains, List.any_eq_false]
        intro c hc
        obtain ⟨j, hj, rfl⟩ := List.mem_take_iff_getElem.mp hc
        have hji : j < i := by omega
        simp only [decide_eq_true_eq]
        intro e
        have hne := List.pairwise_iff_getElem.mp hn j i (by rw [List.length_map]; omega)
          (by rwa [List.length_map]) (by omega)
        simp only [List.getElem_map] at hne
        exact hne e
      have hstep : (l.first i).append l.members[i].detach = .ok (l.first (i + 1)) := by
        refine append_eq_ok.mpr ⟨rfl, hnot, ?_⟩
        have hc : l.members[i].detach.attach (F.nextId l.members[i].kind (l.first i).count)
            (l.first i).nextLink = l.members[i] := by
          rw [Component.attach, Component.detach, ← hid, ← hlink]
        rw [show l.members[i].detach.kind = l.members[i].kind from rfl, hc]
        simp only [first, List.take_add_one, List.getElem?_eq_getElem hlt, Option.toList_some]
      rw [List.drop_eq_getElem_cons hlt, List.map_cons, joinAll, hstep]
      exact ih (by omega) (by omega)

/-- **A chained list is what its members make of an empty one**, joining it in the same order. -/
theorem Chained.joinAll_eq (h : l.Chained) (hn : (l.members.map Component.object).Nodup) :
    ({ l with members := [] } : Roster F).joinAll (l.members.map Component.detach) = .ok l := by
  simpa [first] using h.joinAll_drop hn (Nat.zero_le _)

/-! ### Behaviors at work -/

/-- Two lists that differ in the parameters of their members only. -/
structure Retuned (l l' : Roster F) : Prop where
  object : l'.object = l.object
  place : l'.place = l.place
  version : l'.version = l.version
  members : List.Forall₂ Component.Retuned l.members l'.members

theorem Retuned.refl (l : Roster F) : l.Retuned l :=
  ⟨rfl, rfl, rfl, List.forall₂_same.mpr fun c _ => .refl c⟩

theorem Retuned.map_members {β : Type} (h : l.Retuned l') {f : Component F → β}
    (hf : ∀ c params, f { c with params } = f c) : l'.members.map f = l.members.map f := by
  have hmap : ∀ {cs cs' : List (Component F)}, List.Forall₂ Component.Retuned cs cs' →
      cs'.map f = cs.map f := by
    intro cs cs' hcs
    induction hcs with
    | nil => rfl
    | cons hc _ ih =>
        obtain ⟨params, rfl⟩ := hc
        rw [List.map_cons, List.map_cons, hf, ih]
  exact hmap h.members

theorem Chained.retuned (hc : l.Chained) (h : l.Retuned l') : l'.Chained :=
  hc.akin (h.members.imp fun _ _ hr => hr.akin)

theorem updateParams_retuned (l : Roster F) (object : ObjectId) (f : F.Params → F.Params) :
    l.Retuned (l.updateParams object f) := by
  refine ⟨rfl, rfl, rfl, ?_⟩
  rw [updateParams, List.forall₂_map_right_iff, List.forall₂_same]
  intro c _
  split
  · exact ⟨_, rfl⟩
  · exact .refl c

theorem interact_retuned {l l' : Roster .boundary} {id : ComponentId} {hit : Hit}
    {species species' : SpeciesList} {d : Disposition}
    (h : l.interact id hit species = .ok (d, l', species')) : l.Retuned l' := by
  rw [interact] at h
  split at h
  · cases h
    exact .refl l
  · split at h
    · cases h
      exact .refl l
    · split at h
      · cases h
      · cases h
        exact updateParams_retuned l _ _

theorem collide_retuned (l : Roster .collision) (species : SpeciesList) :
    l.Retuned (l.collide species).1 :=
  ⟨rfl, rfl, rfl, Component.runEach_retuned Component.collide_retuned l.members species⟩

theorem emit_retuned (l : Roster .emitter) (species : SpeciesList) :
    l.Retuned (l.emit species).1 :=
  ⟨rfl, rfl, rfl, Component.runEach_retuned Component.emit_retuned l.members species⟩

end Roster

end ParticleSim
