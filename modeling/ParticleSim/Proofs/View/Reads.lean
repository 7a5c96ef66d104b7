import ParticleSim.RosterView
import ParticleSim.Proofs.Simulation.Courses

/-!
# Views — What a view shows

A view that was just made of a list shows it as it is (`RosterView.ofList_shows`).  It still does so
later when its stamp matches, because the stamp tells every change of the list
(`Roster.Became.stale_iff`, `Roster.Became.refresh_eq`).  A handle names one member, and resolves to
it until the list is torn down (`Roster.Became.resolve_ofList`).
-/

namespace ParticleSim

/-! ### Histories of views -/

/-- Whether an event brings a view up to date or tells it to look again. -/
def ListEvent.ofView (F : Family) (n : Nat) : ListEvent → Bool
  | looked G m _ | dropped G m => G = F ∧ m = n
  | joined _ | cleared _ => false

namespace History

/-- What has happened since a view was brought up to date or told to look again. -/
def since (t : History) (F : Family) (n : Nat) : History := t.takeWhile fun e => !e.ofView F n

/-- The list that a view shows, if it was brought up to date and not told to look again. -/
def seen? (t : History) (F : Family) (n : Nat) : Option ListInstance :=
  match t.find? (·.ofView F n) with
  | some (.looked _ _ place) => some place
  | _ => none

variable {t t' : History} {F : Family} {n : Nat}

theorem since_append (h : ∀ e ∈ t, e.ofView F n = false) :
    (t ++ t').since F n = t ++ t'.since F n :=
  List.takeWhile_append_of_pos fun e he => by rw [h e he]; rfl

theorem seen?_append (h : ∀ e ∈ t, e.ofView F n = false) :
    (t ++ t').seen? F n = t'.seen? F n := by
  have hnone : t.find? (·.ofView F n) = none :=
    List.find?_eq_none.mpr fun e he => by rw [h e he]; exact Bool.false_ne_true
  rw [seen?, seen?, List.find?_append, hnone, Option.none_or]

/-- No list has been torn down as often as `2 ^ 64` times. -/
def Few (t : History) : Prop := ∀ place, t.clears place < UInt64.size

theorem few_of_length_lt (h : t.length < UInt64.size) : t.Few := fun _ =>
  Nat.lt_of_le_of_lt List.count_le_length h

theorem Few.later (h : Few (t ++ t')) : t.Few := fun place =>
  Nat.lt_of_le_of_lt (by rw [clears_append]; exact Nat.le_add_right _ _) (h place)

theorem Few.earlier (h : Few (t ++ t')) : t'.Few := fun place =>
  Nat.lt_of_le_of_lt (by rw [clears_append]; exact Nat.le_add_left _ _) (h place)

theorem Few.since (h : t.Few) (F : Family) (n : Nat) : (t.since F n).Few := fun place =>
  Nat.lt_of_le_of_lt ((List.takeWhile_sublist _).count_le _) (h place)

end History

variable {F : Family} {l l' : Roster F} {t : History}

/-! ### Reads -/

namespace RosterView

/-- Every read of a view answers as a walk through the members does, in the order in which they
joined. -/
structure Shows (v : RosterView F) (l : Roster F) : Prop where
  size : v.size = l.members.length
  nth : ∀ i, v.nth i =
    match l.members[i]? with
    | some c => .ok (.ofList l c.object)
    | none => .error (.index i l.members.length)
  get : ∀ name, v.get name =
    match l.members.find? (·.name = name) with
    | some c => .ok (.ofList l c.object)
    | none => .error (.key name)
  contains : ∀ name, v.contains name = l.members.any (·.name = name)
  names : v.names = l.members.map Component.name
  pairs : v.pairs = l.members.map fun c => (c.name, .ofList l c.object)
  head : v.head? = l.members.getLast?.map fun c => .ofList l c.object
  render : v.render = "[" ++ ", ".intercalate (l.members.map fun c => "'" ++ c.name ++ "'") ++ "]"

/-- What stands beside the first match in a list of images. -/
theorem findIdx?_bind_getElem? {α β γ : Type} (cs : List α) (f : α → β) (g : α → γ)
    (p : β → Bool) :
    ((cs.map f).findIdx? p).bind ((cs.map g)[·]?) = (cs.find? fun c => p (f c)).map g := by
  induction cs with
  | nil => rfl
  | cons c cs ih =>
      rw [List.map_cons, List.map_cons, List.findIdx?_cons, List.find?_cons]
      cases p (f c) with
      | true => rfl
      | false =>
          rw [← ih]
          cases (cs.map f).findIdx? p <;> rfl

/-- **A view that was just made of a list shows it.** -/
theorem ofList_shows (l : Roster F) : (ofList l).Shows l where
  size := List.length_map _
  nth i := by
    simp only [nth, ofList, List.getElem?_map, List.length_map]
    cases l.members[i]? <;> rfl
  get name := by
    simp only [get, ofList, Roster.names]
    rw [findIdx?_bind_getElem?]
    cases l.members.find? (·.name = name) <;> rfl
  contains name := by
    rw [Bool.eq_iff_iff]
    simp [contains, ofList, Roster.names]
  names := rfl
  pairs := List.zip_map'
  head := List.getLast?_map
  render := by
    simp only [render, ofList, Roster.names, List.map_map]
    rfl

/-- The handles that a view gives out. -/
inductive Gives (v : RosterView F) (h : Handle F) : Prop where
  | nth {i : Nat} (read : v.nth i = .ok h)
  | get {name : String} (read : v.get name = .ok h)
  | pairs {name : String} (read : (name, h) ∈ v.pairs)
  | head (read : v.head? = some h)

/-- A handle that a view gives out is one of a member of the list it shows. -/
theorem Shows.exists_member {v : RosterView F} (hv : v.Shows l) {h : Handle F} (hg : v.Gives h) :
    ∃ c ∈ l.members, h = .ofList l c.object := by
  cases hg with
  | @nth i read =>
      rw [hv.nth] at read
      split at read
      · next c hc => exact ⟨c, List.mem_of_getElem? hc, (Except.ok.inj read).symm⟩
      · cases read
  | @get name read =>
      rw [hv.get] at read
      split at read
      · next c hc => exact ⟨c, List.mem_of_find?_eq_some hc, (Except.ok.inj read).symm⟩
      · cases read
  | pairs read =>
      rw [hv.pairs, List.mem_map] at read
      obtain ⟨c, hc, he⟩ := read
      exact ⟨c, hc, (Prod.mk.inj he).2.symm⟩
  | head read =>
      rw [hv.head, Option.map_eq_some_iff] at read
      obtain ⟨c, hc, rfl⟩ := read
      exact ⟨c, List.mem_of_getLast? hc, rfl⟩

/-! ### Stamps -/

theorem stale_ofList_iff :
    (ofList l).stale l' = true ↔
      ¬ (l'.place = l.place ∧ l'.version = l.version ∧ l'.count = l.count) := by
  simp only [stale, ofList, Stamp.ofList, decide_eq_true_eq, ne_eq, Option.some.injEq,
    Stamp.mk.injEq]
  grind

theorem refresh_of_stale {v : RosterView F} (h : v.stale l = true) : v.refresh l = ofList l := by
  rw [refresh, if_pos h]

theorem refresh_of_not_stale {v : RosterView F} (h : ¬ v.stale l = true) : v.refresh l = v := by
  rw [refresh, if_neg h]

theorem stale_of_stamp_none {v : RosterView F} (h : v.stamp = none) : v.stale l = true := by
  simp [stale, h]

end RosterView

namespace Roster.Became

/-- A view of a list is a view of what the list becomes while nothing happens to it. -/
theorem ofList_eq (h : l.Became t l') (hl : l.Intact) (hq : t.Quiet l.place) :
    RosterView.ofList l' = RosterView.ofList l := by
  have few : t.clears l.place < UInt64.size := by
    rw [(History.quiet_iff.mp hq).2]
    decide
  obtain ⟨hversion, hcount⟩ := (h.unchanged_iff hl few).mpr hq
  have hnames : l'.names = l.names := h.map_members hq fun _ _ hr => hr.name_eq
  have hhandles : (l'.members.map fun c => Handle.ofList l' c.object) =
      l.members.map fun c => Handle.ofList l c.object := by
    simp only [Handle.ofList, h.place, hversion]
    exact h.map_members hq fun _ _ hr => by rw [hr.object_eq]
  simp only [RosterView.ofList, hnames, hhandles, Stamp.ofList, h.place, hversion, hcount]

/-- **A view of a list is stale when the list has been appended to or torn down since**, and only
then. -/
theorem stale_iff (h : l.Became t l') (hl : l.Intact) (few : t.clears l.place < UInt64.size) :
    (RosterView.ofList l).stale l' = true ↔
      ListEvent.joined l.place ∈ t ∨ ListEvent.cleared l.place ∈ t := by
  rw [RosterView.stale_ofList_iff, and_iff_right h.place, h.unchanged_iff hl few, History.Quiet,
    not_and_or, not_not, not_not]

/-- **Bringing a view up to date makes it a view of the list as it is.** -/
theorem refresh_eq (h : l.Became t l') (hl : l.Intact) (few : t.clears l.place < UInt64.size) :
    (RosterView.ofList l).refresh l' = .ofList l' := by
  by_cases hs : (RosterView.ofList l).stale l' = true
  · exact RosterView.refresh_of_stale hs
  · rw [RosterView.refresh_of_not_stale hs]
    rw [h.stale_iff hl few, not_or] at hs
    exact (h.ofList_eq hl hs).symm

end Roster.Became

/-! ### Handles -/

namespace Handle

theorem resolve_of_ne {h : Handle F} (hne : ¬ (l.place = h.place ∧ l.version = h.version)) :
    h.resolve l = .error (.stale h.object) := by
  rw [resolve, if_neg hne]

end Handle

/-- **A handle resolves until the list is torn down**, to the member as it was up to its
parameters. -/
theorem Roster.Became.resolve_ofList (h : l.Became t l') (hl : l.Intact)
    (few : t.clears l.place < UInt64.size) {c : Component F} (hc : c ∈ l.members) :
    (ListEvent.cleared l.place ∉ t →
      ∃ c', (Handle.ofList l c.object).resolve l' = .ok c' ∧ c.Retuned c') ∧
    (ListEvent.cleared l.place ∈ t →
      (Handle.ofList l c.object).resolve l' = .error (.stale c.object)) := by
  constructor
  · intro hn
    obtain ⟨c', hget, hr⟩ := h.get?_kept hl hn hc
    refine ⟨c', ?_, hr⟩
    rw [Handle.resolve, if_pos ⟨h.place, (h.version_eq_iff few).mpr hn⟩]
    simp only [Handle.ofList, hget]
  · intro hm
    exact Handle.resolve_of_ne fun he => (h.version_eq_iff few).mp he.2 hm

end ParticleSim
