import ParticleSim.Proofs.Roster.Numbering

/-!
# Rosters — What becomes of a list

Between teardowns a list only grows: its members stay in their places, the same up to their
parameters, and every component that joins is one more (`Roster.Became`).  Two things are read off
this.  A list of the same version and count as before, after fewer than `2 ^ 64` teardowns, has not
been changed (`Roster.Became.unchanged_iff`); and a member is found until the first teardown
(`Roster.Became.get?_kept`).
-/

namespace ParticleSim

/-! ### Histories -/

/-- What happens to the lists of a process and to the views of them. -/
inductive ListEvent where
  /-- A component joined the list. -/
  | joined (place : ListInstance)
  /-- The list was torn down. -/
  | cleared (place : ListInstance)
  /-- The `n`-th view of a family was brought up to date with the list. -/
  | looked (F : Family) (n : Nat) (place : ListInstance)
  /-- The `n`-th view of a family was told to look again. -/
  | dropped (F : Family) (n : Nat)
deriving DecidableEq

/-- What has happened, the latest first. -/
abbrev History := List ListEvent

namespace History

/-- How many components have joined a list. -/
def joins (t : History) (place : ListInstance) : Nat := t.count (.joined place)

/-- How often a list has been torn down. -/
def clears (t : History) (place : ListInstance) : Nat := t.count (.cleared place)

/-- Nothing has happened to a list. -/
def Quiet (t : History) (place : ListInstance) : Prop :=
  ListEvent.joined place ∉ t ∧ ListEvent.cleared place ∉ t

variable {t t' : History} {place : ListInstance}

theorem clears_append : (t ++ t').clears place = t.clears place + t'.clears place :=
  List.count_append

theorem joins_append : (t ++ t').joins place = t.joins place + t'.joins place :=
  List.count_append

theorem clears_eq_zero : t.clears place = 0 ↔ ListEvent.cleared place ∉ t := List.count_eq_zero

theorem joins_eq_zero : t.joins place = 0 ↔ ListEvent.joined place ∉ t := List.count_eq_zero

theorem quiet_iff : t.Quiet place ↔ t.joins place = 0 ∧ t.clears place = 0 := by
  rw [Quiet, joins_eq_zero, clears_eq_zero]

end History

namespace Component

variable {F : Family} {c c' c'' : Component F}

theorem Retuned.trans (h : c.Retuned c') (h' : c'.Retuned c'') : c.Retuned c'' := by
  obtain ⟨params, rfl⟩ := h
  obtain ⟨params', rfl⟩ := h'
  exact ⟨params', rfl⟩

theorem Retuned.object_eq (h : c.Retuned c') : c'.object = c.object := by
  obtain ⟨params, rfl⟩ := h
  rfl

theorem Retuned.name_eq (h : c.Retuned c') : c'.name = c.name := by
  obtain ⟨params, rfl⟩ := h
  rfl

end Component

namespace Roster

variable {F : Family} {l l' l'' : Roster F} {t t' : History}

theorem Retuned.trans (h : l.Retuned l')
    (h' : l'.Retuned l'') : l.Retuned l'' := by
  have hmembers {cs cs' cs'' : List (Component F)} (hcs : List.Forall₂ Component.Retuned cs cs')
      (hcs' : List.Forall₂ Component.Retuned cs' cs'') :
      List.Forall₂ Component.Retuned cs cs'' := by
    induction hcs generalizing cs'' with
    | nil => cases hcs'; exact .nil
    | cons hc _ ih =>
        cases hcs' with
        | cons hc' hcs' => exact .cons (hc.trans hc') (ih hcs')
  exact ⟨h'.object.trans h.object, h'.place.trans h.place, h'.version.trans h.version,
    hmembers h.members h'.members⟩

/-- What a list is after what has happened.  Without a teardown its members are where they were. -/
structure Became (l : Roster F) (t : History) (l' : Roster F) : Prop where
  place : l'.place = l.place
  version : l'.version.val = l.version.val + .ofNat (t.clears l.place)
  size : ListEvent.cleared l.place ∉ t → l'.size = l.size + t.joins l.place
  kept : ListEvent.cleared l.place ∉ t → ∀ (i : Nat) (c : Component F), l.members[i]? = some c →
    ∃ c', l'.members[i]? = some c' ∧ c.Retuned c'
  intact : l.Intact → l'.Intact

namespace Became

/-! ### One event -/

/-- Whatever happens elsewhere does not change a list. -/
theorem of_quiet (h : t.Quiet l.place) : l.Became t l := by
  obtain ⟨hjoins, hclears⟩ := History.quiet_iff.mp h
  refine ⟨rfl, ?_, fun _ => ?_, fun _ i c hc => ⟨c, hc, .refl c⟩, id⟩
  · simp [hclears]
  · rw [hjoins, Nat.add_zero]

/-- Behaviors keep the members in their places. -/
theorem of_retuned (hr : l.Retuned l') (h : t.Quiet l.place) : l.Became t l' := by
  obtain ⟨hjoins, hclears⟩ := History.quiet_iff.mp h
  refine ⟨hr.place, ?_, fun _ => ?_, fun _ i c hc => ?_, fun h => h.retuned hr⟩
  · simp [hr.version, hclears]
  · rw [hjoins, Nat.add_zero]
    exact hr.members.length_eq.symm
  · have hi := (List.getElem?_eq_some_iff.mp hc).1
    have hi' : i < l'.members.length := hr.members.length_eq ▸ hi
    refine ⟨_, List.getElem?_eq_getElem hi', ?_⟩
    have hget := (List.forall₂_iff_get.mp hr.members).2 i hi hi'
    rw [List.getElem?_eq_getElem hi, Option.some.injEq] at hc
    exact hc ▸ hget

/-- A component that joins is one more. -/
theorem of_append {c : Component F} (ha : l.append c = .ok l') :
    l.Became [.joined l.place] l' := by
  have hjoins : History.joins [.joined l.place] l.place = 1 := List.count_singleton_self
  have hclears : History.clears [.joined l.place] l.place = 0 :=
    History.clears_eq_zero.mpr (by simp)
  refine ⟨?_, ?_, fun _ => ?_, fun _ i c hc => ⟨c, ?_, .refl c⟩, fun h => h.append ha⟩ <;>
    obtain ⟨-, -, rfl⟩ := append_eq_ok.mp ha
  · rfl
  · simp [hclears]
  · simp [Roster.size, hjoins]
  · rw [List.getElem?_append_left (List.getElem?_eq_some_iff.mp hc).1]
    exact hc

/-- A teardown is one version more. -/
theorem of_clear (l : Roster F) : l.Became [.cleared l.place] l.clear := by
  have hclears : History.clears [.cleared l.place] l.place = 1 := List.count_singleton_self
  refine ⟨rfl, ?_, fun h => absurd List.mem_cons_self h, fun h => absurd List.mem_cons_self h,
    fun _ => intact_clear l⟩
  rw [hclears]
  rfl

/-! ### Any number of events -/

theorem trans (h : l.Became t l') (h' : l'.Became t' l'') : l.Became (t' ++ t) l'' := by
  have hquiet (hn : ListEvent.cleared l.place ∉ t' ++ t) :
      ListEvent.cleared l.place ∉ t ∧ ListEvent.cleared l'.place ∉ t' := by
    rw [List.mem_append, not_or] at hn
    exact ⟨hn.2, h.place ▸ hn.1⟩
  refine ⟨h'.place.trans h.place, ?_, fun hn => ?_, fun hn i c hc => ?_,
    fun hl => h'.intact (h.intact hl)⟩
  · rw [h'.version, h.version, h.place, History.clears_append, UInt64.ofNat_add]
    grind
  · obtain ⟨hn, hn'⟩ := hquiet hn
    rw [h'.size hn', h.size hn, h.place, History.joins_append]
    omega
  · obtain ⟨hn, hn'⟩ := hquiet hn
    obtain ⟨c', hc', hr⟩ := h.kept hn i c hc
    obtain ⟨c'', hc'', hr'⟩ := h'.kept hn' i c' hc'
    exact ⟨c'', hc'', hr.trans hr'⟩

/-- Fewer than `2 ^ 64` teardowns show in the version. -/
theorem version_eq_iff (h : l.Became t l') (few : t.clears l.place < UInt64.size) :
    l'.version = l.version ↔ ListEvent.cleared l.place ∉ t := by
  rw [← History.clears_eq_zero]
  constructor
  · intro hv
    have hval : l.version.val = l.version.val + .ofNat (t.clears l.place) := by
      rw [← h.version, hv]
    have hzero : UInt64.ofNat (t.clears l.place) = 0 := by grind
    have hnat := congrArg UInt64.toNat hzero
    rwa [UInt64.toNat_ofNat_of_lt' few] at hnat
  · intro hzero
    have hval := h.version
    rw [hzero] at hval
    exact congrArg ListVersion.mk (hval.trans (UInt64.add_zero _))

/-- **A list whose version and count are as before has not been changed.** -/
theorem unchanged_iff (h : l.Became t l') (hl : l.Intact) (few : t.clears l.place < UInt64.size) :
    l'.version = l.version ∧ l'.count = l.count ↔ t.Quiet l.place := by
  rw [h.version_eq_iff few, hl.count_eq_size, (h.intact hl).count_eq_size, History.Quiet, and_comm]
  refine and_congr_left fun hn => ?_
  rw [h.size hn, ← History.joins_eq_zero]
  omega

/-- What is read off the members one by one, but not off their parameters, is as it was when nothing
has happened to the list. -/
theorem map_members (h : l.Became t l') (hq : t.Quiet l.place) {β : Type} {f : Component F → β}
    (hf : ∀ c c', c.Retuned c' → f c' = f c) : l'.members.map f = l.members.map f := by
  have hsize : l'.members.length = l.members.length := by
    have hs := h.size hq.2
    rwa [(History.quiet_iff.mp hq).1, Nat.add_zero] at hs
  refine List.ext_getElem (by simpa using hsize) fun i hi' hi => ?_
  rw [List.length_map] at hi hi'
  obtain ⟨c', hc', hr⟩ := h.kept hq.2 i _ (List.getElem?_eq_getElem hi)
  rw [List.getElem?_eq_getElem hi', Option.some.injEq] at hc'
  rw [List.getElem_map, List.getElem_map, hc', hf _ _ hr]

/-- **A member is found until the first teardown**, the same up to its parameters. -/
theorem get?_kept (h : l.Became t l') (hl : l.Intact) (hn : ListEvent.cleared l.place ∉ t)
    {c : Component F} (hc : c ∈ l.members) : ∃ c', l'.get? c.object = some c' ∧ c.Retuned c' := by
  obtain ⟨i, hi, rfl⟩ := List.mem_iff_getElem.mp hc
  obtain ⟨c', hc', hr⟩ := h.kept hn i _ (List.getElem?_eq_getElem hi)
  exact ⟨c', (h.intact hl).get?_eq_some.mpr ⟨List.mem_of_getElem? hc', hr.object_eq⟩, hr⟩

end Became

end Roster

end ParticleSim
