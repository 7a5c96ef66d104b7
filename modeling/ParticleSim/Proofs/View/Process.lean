import ParticleSim.Proofs.View.Reads

/-!
# Views — Views and lists over time

A process has simulations, and views that look now at one list and now at another (`Process`).
Simulations enter it with lists at new places, lists change, views are brought up to date or told to
look again (`Process.Move`).  Since no two lists are ever at one place (`Process.Apart`), every list
is what the events at its place have made of the list that was there before (`Process.Tracks`), and
every view is that of a list as it was when the view looked last (`Process.Kept`).
-/

namespace ParticleSim

/-- The simulations of a process and the views of their lists. -/
structure Process where
  simulations : List Simulation
  /-- The views of each family. -/
  views : (F : Family) → Nat → RosterView F
  /-- The list instances that are left. -/
  supply : InstanceSupply

namespace Process

/-- A process without simulations, none of whose views has looked at a list. -/
def start (supply : InstanceSupply) : Process := ⟨[], fun _ _ => .empty, supply⟩

/-- Exchange a view. -/
def setView (w : Process) (F : Family) (n : Nat) (v : RosterView F) : Process :=
  { w with views := Function.update w.views F (Function.update (w.views F) n v) }

variable {w w' w'' : Process} {t t' : History} {F : Family} {n : Nat} {s s' : Simulation}

@[simp] theorem views_setView_self (v : RosterView F) : (w.setView F n v).views F n = v := by
  simp [setView]

theorem views_setView_of_ne (v : RosterView F) {G : Family} {m : Nat} (h : ¬ (F = G ∧ n = m)) :
    (w.setView F n v).views G m = w.views G m := by
  by_cases hG : G = F
  · subst hG
    have hm : m ≠ n := fun e => h ⟨rfl, e.symm⟩
    simp only [setView, Function.update_self, Function.update_of_ne hm]
  · simp only [setView, Function.update_of_ne hG]

/-- What can happen to a process at once. -/
inductive Move : Process → History → Process → Prop where
  /-- A simulation enters with lists of its own. -/
  | entered {w : Process} {s : Simulation} (intact : ∀ F, (s.list F).Intact)
      (places : s.places = [⟨w.supply.next⟩, ⟨w.supply.next + 1⟩, ⟨w.supply.next + 2⟩]) :
      Move w [] ⟨s :: w.simulations, w.views, ⟨w.supply.next + 3⟩⟩
  /-- List instances are used up. -/
  | spent {w : Process} {next : Nat} (le : w.supply.next ≤ next) :
      Move w [] { w with supply := ⟨next⟩ }
  /-- The lists of a simulation change. -/
  | changed {before after : List Simulation} {s s' : Simulation} {t : History}
      {views : (F : Family) → Nat → RosterView F} {supply : InstanceSupply}
      (course : s.Course t s') :
      Move ⟨before ++ s :: after, views, supply⟩ t ⟨before ++ s' :: after, views, supply⟩
  /-- A view is brought up to date with a list. -/
  | looked {w : Process} {s : Simulation} (held : s ∈ w.simulations) (F : Family) (n : Nat) :
      Move w [.looked F n (s.list F).place] (w.setView F n ((w.views F n).refresh (s.list F)))
  /-- A view is told to look again. -/
  | dropped {w : Process} (F : Family) (n : Nat) :
      Move w [.dropped F n] (w.setView F n { w.views F n with stamp := none })

/-- One move after the other. -/
inductive Moves (w : Process) : History → Process → Prop where
  | refl : Moves w [] w
  | more {t t' : History} {w' w'' : Process} (before : Moves w t w') (move : Move w' t' w'') :
      Moves w (t' ++ t) w''

theorem Moves.trans (h : Moves w t w') (h' : Moves w' t' w'') : Moves w (t' ++ t) w'' := by
  induction h' with
  | refl => exact h
  | more _ move ih =>
      rw [List.append_assoc]
      exact .more ih move

theorem Move.moves (h : Move w t w') : Moves w t w' := by
  have h' := Moves.more .refl h
  rwa [List.append_nil] at h'

/-! ### Places -/

/-- No two lists are at one place, and no list is where new ones will be. -/
structure Apart (w : Process) : Prop where
  nodup : (w.simulations.flatMap Simulation.places).Nodup
  below : ∀ s ∈ w.simulations, ∀ place ∈ s.places, place.serial < w.supply.next

theorem apart_start (supply : InstanceSupply) : (start supply).Apart :=
  ⟨List.nodup_nil, fun _ hs => absurd hs List.not_mem_nil⟩

namespace Apart

theorem nodup_places (h : w.Apart) (hs : s ∈ w.simulations) : s.places.Nodup :=
  (List.nodup_flatMap.mp h.nodup).1 s hs

theorem place_lt (h : w.Apart) (hs : s ∈ w.simulations) (F : Family) :
    (s.list F).place.serial < w.supply.next :=
  h.below s hs _ (s.place_mem_places F)

/-- What is at a place of one simulation is at none of another. -/
theorem not_mem_places {before after : List Simulation}
    (h : (before ++ s :: after).flatMap Simulation.places |>.Nodup) (hs' : s' ∈ before ++ after)
    {place : ListInstance} (hp : place ∈ s'.places) : place ∉ s.places := by
  have hn := (List.perm_middle.flatMap_right Simulation.places).nodup h
  rw [List.flatMap_cons, List.nodup_append] at hn
  exact fun hp' => hn.2.2 place hp' place (List.mem_flatMap.mpr ⟨s', hs', hp⟩) rfl

/-- One place, one simulation. -/
theorem eq_of_place_eq (h : w.Apart) (hs : s ∈ w.simulations) (hs' : s' ∈ w.simulations)
    (hp : (s'.list F).place = (s.list F).place) : s' = s := by
  obtain ⟨before, after, he⟩ := List.append_of_mem hs
  have hn := he ▸ h.nodup
  rw [he, List.perm_middle.mem_iff, List.mem_cons] at hs'
  refine hs'.resolve_right fun hs' => ?_
  exact not_mem_places hn hs' (s'.place_mem_places F) (hp ▸ s.place_mem_places F)

end Apart

theorem Move.apart (h : Move w t w') (hw : w.Apart) : w'.Apart := by
  cases h with
  | @entered _ s intact places =>
      refine ⟨?_, ?_⟩
      · rw [List.flatMap_cons, List.nodup_append, places]
        refine ⟨by simp, hw.nodup, ?_⟩
        rintro place hp place' hp' rfl
        obtain ⟨s', hs', hp'⟩ := List.mem_flatMap.mp hp'
        have hlt := hw.below s' hs' place hp'
        simp only [List.mem_cons, List.not_mem_nil, or_false] at hp
        rcases hp with rfl | rfl | rfl <;> simp only at hlt <;> omega
      · intro s' hs' place hp
        rcases List.mem_cons.mp hs' with rfl | hs'
        · rw [places] at hp
          simp only [List.mem_cons, List.not_mem_nil, or_false] at hp
          rcases hp with rfl | rfl | rfl <;> simp only <;> omega
        · exact Nat.lt_of_lt_of_le (hw.below s' hs' place hp) (Nat.le_add_right _ 3)
  | spent le =>
      exact ⟨hw.nodup, fun s hs place hp => Nat.lt_of_lt_of_le (hw.below s hs place hp) le⟩
  | @changed before after s s' t views supply course =>
      have hplaces := (course.became (hw.nodup_places (by simp))).places_eq
      refine ⟨?_, ?_⟩
      · have hn := hw.nodup
        simpa only [List.flatMap_append, List.flatMap_cons, hplaces] using hn
      · intro s₂ hs₂ place hp
        rw [List.perm_middle.mem_iff, List.mem_cons] at hs₂
        rcases hs₂ with rfl | hs₂
        · exact hw.below s (by simp) place (hplaces ▸ hp)
        · refine hw.below s₂ ?_ place hp
          exact List.perm_middle.mem_iff.mpr (List.mem_cons_of_mem s hs₂)
  | looked held F n => exact ⟨hw.nodup, hw.below⟩
  | dropped F n => exact ⟨hw.nodup, hw.below⟩

theorem Moves.apart (h : Moves w t w') (hw : w.Apart) : w'.Apart := by
  induction h with
  | refl => exact hw
  | more _ move ih => exact move.apart ih

/-! ### Lists over time -/

/-- Every list at the place of `l` is what has become of `l`. -/
structure Tracks (w : Process) (l : Roster F) (t : History) : Prop where
  below : l.place.serial < w.supply.next
  became : ∀ s ∈ w.simulations, (s.list F).place = l.place → l.Became t (s.list F)

theorem Apart.tracks (h : w.Apart) (hs : s ∈ w.simulations) (F : Family) :
    w.Tracks (s.list F) [] := by
  refine ⟨h.place_lt hs F, fun s' hs' hp => ?_⟩
  rw [h.eq_of_place_eq hs hs' hp]
  exact .of_quiet (by simp [History.Quiet])

theorem Move.tracks (h : Move w t' w') (hw : w.Apart) {l : Roster F} (hl : w.Tracks l t) :
    w'.Tracks l (t' ++ t) := by
  -- an event at no list leaves what was tracked as it is
  have hquiet {t' : History} (hq : t'.Quiet l.place) {s : Simulation} (hs : s ∈ w.simulations)
      (hp : (s.list F).place = l.place) : l.Became (t' ++ t) (s.list F) :=
    (hl.became s hs hp).trans (.of_quiet (hp ▸ hq))
  cases h with
  | @entered _ s intact places =>
      refine ⟨Nat.lt_of_lt_of_le hl.below (Nat.le_add_right _ 3), fun s' hs' hp => ?_⟩
      rcases List.mem_cons.mp hs' with rfl | hs'
      · have hnew := s'.place_mem_places F
        have hlt := hl.below
        rw [places, hp] at hnew
        simp only [List.mem_cons, List.not_mem_nil, or_false] at hnew
        rcases hnew with h | h | h <;> rw [h] at hlt <;> simp only at hlt <;> omega
      · exact hl.became s' hs' hp
  | spent le => exact ⟨Nat.lt_of_lt_of_le hl.below le, hl.became⟩
  | @changed before after s s' t' views supply course =>
      have hbecame := course.became (hw.nodup_places (by simp))
      refine ⟨hl.below, fun s₂ hs₂ hp => ?_⟩
      rw [List.perm_middle.mem_iff, List.mem_cons] at hs₂
      rcases hs₂ with rfl | hs₂
      · have hlist := hbecame.lists F
        exact (hl.became s (by simp) (hlist.place.symm.trans hp)).trans hlist
      · refine hquiet (hbecame.elsewhere _ ?_) ?_ hp
        · exact hp ▸ Apart.not_mem_places hw.nodup hs₂ (s₂.place_mem_places F)
        · exact List.perm_middle.mem_iff.mpr (List.mem_cons_of_mem s hs₂)
  | looked held G m => exact ⟨hl.below, fun s hs hp => hquiet (by simp [History.Quiet]) hs hp⟩
  | dropped G m => exact ⟨hl.below, fun s hs hp => hquiet (by simp [History.Quiet]) hs hp⟩

/-- **Every list is what has become of the one that was at its place.** -/
theorem Moves.tracks (h : Moves w t' w') (hw : w.Apart) {l : Roster F} (hl : w.Tracks l t) :
    w'.Tracks l (t' ++ t) := by
  induction h with
  | refl => exact hl
  | more before move ih =>
      rw [List.append_assoc]
      exact move.tracks (before.apart hw) ih

theorem Move.intact (h : Move w t w') (hw : ∀ s ∈ w.simulations, ∀ F, (s.list F).Intact)
    (ha : w.Apart) : ∀ s ∈ w'.simulations, ∀ F, (s.list F).Intact := by
  cases h with
  | entered intact _ => exact List.forall_mem_cons.mpr ⟨intact, hw⟩
  | spent _ => exact hw
  | @changed before after s s' t views supply course =>
      have hbecame := course.became (ha.nodup_places (by simp))
      intro s₂ hs₂ F
      rw [List.perm_middle.mem_iff, List.mem_cons] at hs₂
      rcases hs₂ with rfl | hs₂
      · exact (hbecame.lists F).intact (hw s (by simp) F)
      · exact hw s₂ (List.perm_middle.mem_iff.mpr (List.mem_cons_of_mem s hs₂)) F
  | looked _ _ _ => exact hw
  | dropped _ _ => exact hw

/-! ### Views over time -/

/-- Lists are intact, and each view is that of a list as it was when the view looked last, or looks
again next time. -/
structure Kept (w : Process) (t : History) : Prop where
  apart : w.Apart
  intact : ∀ s ∈ w.simulations, ∀ F, (s.list F).Intact
  unseen : ∀ F n, t.seen? F n = none → (w.views F n).stamp = none
  seen : ∀ F n place, t.seen? F n = some place → ∃ l : Roster F, l.place = place ∧ l.Intact ∧
    w.views F n = .ofList l ∧ w.Tracks l (t.since F n)

theorem kept_start (supply : InstanceSupply) : (start supply).Kept [] where
  apart := apart_start supply
  intact _ hs := absurd hs List.not_mem_nil
  unseen _ _ _ := rfl
  seen _ _ _ h := nomatch h

namespace Kept

section

variable (h : w.Kept t) (few : t.Few) (hs : s ∈ w.simulations)
include h few hs

/-- **A view is stale exactly when it has something to catch up with.** -/
theorem stale_iff (F : Family) (n : Nat) :
    (w.views F n).stale (s.list F) = true ↔ t.seen? F n ≠ some (s.list F).place ∨
      ListEvent.joined (s.list F).place ∈ t.since F n ∨
      ListEvent.cleared (s.list F).place ∈ t.since F n := by
  cases hseen : t.seen? F n with
  | none => simp [RosterView.stale_of_stamp_none (h.unseen F n hseen)]
  | some place =>
      obtain ⟨l, rfl, hl, hv, htracks⟩ := h.seen F n place hseen
      rw [hv]
      by_cases hp : (s.list F).place = l.place
      · rw [(htracks.became s hs hp).stale_iff hl (few.since F n _), hp]
        simp
      · have hne : some l.place ≠ some (s.list F).place := fun e => hp (Option.some.inj e).symm
        simp [RosterView.stale_ofList_iff, hp, hne]

/-- **A view that is brought up to date is one of the list as it is.** -/
theorem refresh_eq (F : Family) (n : Nat) :
    (w.views F n).refresh (s.list F) = .ofList (s.list F) := by
  by_cases hstale : (w.views F n).stale (s.list F) = true
  · exact RosterView.refresh_of_stale hstale
  · have hfresh := hstale
    rw [h.stale_iff few hs, not_or, not_not] at hfresh
    obtain ⟨l, hp, hl, hv, htracks⟩ := h.seen F n _ hfresh.1
    rw [hv]
    exact (htracks.became s hs hp.symm).refresh_eq hl (few.since F n _)

end

/-- Views are kept while nothing happens to them. -/
theorem of_blind (h : w.Kept t) (hm : Move w t' w') (hv : w'.views = w.views)
    (hb : ∀ e ∈ t', ∀ F n, e.ofView F n = false) : w'.Kept (t' ++ t) where
  apart := hm.apart h.apart
  intact := hm.intact h.intact h.apart
  unseen F n hseen := by
    rw [History.seen?_append fun e he => hb e he F n] at hseen
    rw [hv]
    exact h.unseen F n hseen
  seen F n place hseen := by
    have hb' := fun e he => hb e he F n
    rw [History.seen?_append hb'] at hseen
    obtain ⟨l, hp, hl, hview, htracks⟩ := h.seen F n place hseen
    rw [hv, History.since_append hb']
    exact ⟨l, hp, hl, hview, hm.tracks h.apart htracks⟩

/-- Other views are kept when one view looks or is told to. -/
theorem of_setView (h : w.Kept t) {e : ListEvent} {v : RosterView F}
    (hm : Move w [e] (w.setView F n v)) (hv : ∀ G m, e.ofView G m = true ↔ F = G ∧ n = m)
    (hunseen : History.seen? (e :: t) F n = none → v.stamp = none)
    (hseen : ∀ place, History.seen? (e :: t) F n = some place → ∃ l : Roster F, l.place = place ∧
      l.Intact ∧ v = .ofList l ∧ w.Tracks l []) :
    (w.setView F n v).Kept (e :: t) where
  apart := hm.apart h.apart
  intact := h.intact
  unseen G m hnone := by
    by_cases hG : F = G ∧ n = m
    · obtain ⟨rfl, rfl⟩ := hG
      rw [views_setView_self]
      exact hunseen hnone
    · have hb : ∀ e' ∈ [e], e'.ofView G m = false := by
        simpa using fun he => hG ((hv G m).mp he)
      rw [views_setView_of_ne _ hG]
      exact h.unseen G m (History.seen?_append hb ▸ hnone)
  seen G m place hsome := by
    by_cases hG : F = G ∧ n = m
    · obtain ⟨rfl, rfl⟩ := hG
      have hsince : History.since (e :: t) F n = [] := by
        rw [History.since, List.takeWhile_cons_of_neg]
        simp [(hv F n).mpr ⟨rfl, rfl⟩]
      obtain ⟨l, hp, hl, hview, htracks⟩ := hseen place hsome
      rw [views_setView_self, hsince]
      exact ⟨l, hp, hl, hview, htracks.below, htracks.became⟩
    · have hb : ∀ e' ∈ [e], e'.ofView G m = false := by
        simpa using fun he => hG ((hv G m).mp he)
      rw [views_setView_of_ne _ hG]
      obtain ⟨l, hp, hl, hview, htracks⟩ := h.seen G m place (History.seen?_append hb ▸ hsome)
      refine ⟨l, hp, hl, hview, ?_⟩
      rw [show e :: t = [e] ++ t from rfl, History.since_append hb]
      exact hm.tracks h.apart htracks

end Kept

/-- The events of a simulation bring no view up to date. -/
theorem ofView_of_course (h : s.Course t s') : ∀ e ∈ t, ∀ F n, e.ofView F n = false := by
  induction h with
  | retuned _ => simp
  | joined _ _ => simp [ListEvent.ofView]
  | cleared _ _ => simp [ListEvent.ofView]
  | trans _ _ ih ih' =>
      intro e he
      exact (List.mem_append.mp he).elim (ih' e) (ih e)

theorem Move.kept (hm : Move w t' w') (h : w.Kept t) (few : t.Few) : w'.Kept (t' ++ t) := by
  cases hm with
  | entered intact places => exact h.of_blind (.entered intact places) rfl (by simp)
  | spent le => exact h.of_blind (.spent le) rfl (by simp)
  | changed course => exact h.of_blind (.changed course) rfl (ofView_of_course course)
  | @looked _ s held F n =>
      have hseen : History.seen? (.looked F n (s.list F).place :: t) F n =
          some (s.list F).place := by
        simp [History.seen?, ListEvent.ofView]
      refine h.of_setView (.looked held F n) (fun G m => by simp [ListEvent.ofView])
        (fun hnone => by rw [hseen] at hnone; cases hnone) fun place hsome => ?_
      rw [hseen, Option.some.injEq] at hsome
      subst hsome
      exact ⟨s.list F, rfl, h.intact s held F, h.refresh_eq few held F n,
        h.apart.tracks held F⟩
  | dropped F n =>
      have hseen : History.seen? (.dropped F n :: t) F n = none := by
        simp [History.seen?, ListEvent.ofView]
      exact h.of_setView (.dropped F n) (fun G m => by simp [ListEvent.ofView]) (fun _ => rfl)
        fun place hsome => by rw [hseen] at hsome; cases hsome

/-- **Views are kept** whatever happens, as long as there are few teardowns. -/
theorem Moves.kept (hm : Moves w t' w') (h : w.Kept t) (few : (t' ++ t).Few) :
    w'.Kept (t' ++ t) := by
  induction hm with
  | refl => exact h
  | more _ move ih =>
      rw [List.append_assoc] at few ⊢
      exact move.kept (ih few.earlier) few.earlier

end Process

end ParticleSim
