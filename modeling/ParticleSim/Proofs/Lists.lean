import Mathlib.Data.List.Nodup
import Mathlib.Data.List.Perm.Basic

/-!
# Collections — Lists side by side

When two lists correspond member by member, each member of one has a counterpart in the other
(`exists_of_forall₂`, `exists_forall₂_iff`); and a list that is a rearranged image is the image of
something rearranged (`exists_map_of_perm`).  In a list whose members differ in a key, a key finds
the member that has it (`find?_key_eq_some`).
-/

namespace ParticleSim

/-- A member of a list that corresponds to another has a counterpart there. -/
theorem exists_of_forall₂ {α β : Type} {R : α → β → Prop} {l : List α} {l' : List β}
    (h : List.Forall₂ R l l') {b : β} (hb : b ∈ l') : ∃ a ∈ l, R a b := by
  induction h with
  | nil => cases hb
  | cons hr _ ih =>
      rcases List.mem_cons.mp hb with rfl | hb
      · exact ⟨_, List.mem_cons_self, hr⟩
      · obtain ⟨a, ha, hr⟩ := ih hb
        exact ⟨a, List.mem_cons_of_mem _ ha, hr⟩

/-- A list corresponds to another one when each of its members has a counterpart. -/
theorem exists_forall₂_iff {α β : Type} {R : α → β → Prop} {l : List α} :
    (∃ l', List.Forall₂ R l l') ↔ ∀ a ∈ l, ∃ b, R a b := by
  induction l with
  | nil => exact ⟨fun _ a ha => (List.not_mem_nil ha).elim, fun _ => ⟨[], .nil⟩⟩
  | cons a l ih =>
      rw [List.forall_mem_cons, ← ih]
      constructor
      · rintro ⟨_, h⟩
        cases h with
        | cons hr h => exact ⟨⟨_, hr⟩, _, h⟩
      · rintro ⟨⟨b, hr⟩, l', h⟩
        exact ⟨b :: l', .cons hr h⟩

theorem forall₂_congr {α β : Type} {R S : α → β → Prop} {l : List α}
    (h : ∀ a ∈ l, ∀ b, R a b ↔ S a b) {l' : List β} :
    List.Forall₂ R l l' ↔ List.Forall₂ S l l' := by
  induction l generalizing l' with
  | nil => simp
  | cons a l ih =>
      obtain ⟨ha, hl⟩ := List.forall_mem_cons.mp h
      simp only [List.forall₂_cons_left_iff, ha, ih hl]

/-- A relation that is a function on a list, as far as it is defined. -/
theorem forall₂_iff_map {α β : Type} {R : α → β → Prop} {P : α → Prop} {f : α → β} {l : List α}
    (h : ∀ a ∈ l, ∀ b, R a b ↔ P a ∧ b = f a) {l' : List β} :
    List.Forall₂ R l l' ↔ (∀ a ∈ l, P a) ∧ l' = l.map f := by
  induction l generalizing l' with
  | nil => simp
  | cons a l ih =>
      obtain ⟨ha, hl⟩ := List.forall_mem_cons.mp h
      rw [List.forall₂_cons_left_iff, List.forall_mem_cons]
      constructor
      · rintro ⟨b, l', hb, hl', rfl⟩
        obtain ⟨hp, rfl⟩ := (ha b).mp hb
        obtain ⟨hps, rfl⟩ := (ih hl).mp hl'
        exact ⟨⟨hp, hps⟩, rfl⟩
      · rintro ⟨⟨hp, hps⟩, rfl⟩
        exact ⟨f a, l.map f, (ha _).mpr ⟨hp, rfl⟩, (ih hl).mpr ⟨hps, rfl⟩, rfl⟩

/-- What is rearranged of an image comes from something rearranged. -/
theorem exists_map_of_perm {α β : Type} {f : β → α} {l : List α} {l' : List β}
    (h : l.Perm (l'.map f)) : ∃ l'' : List β, l''.Perm l' ∧ l = l''.map f := by
  have hmap : List.Forall₂ (fun a b => a = f b) (l'.map f) l' :=
    List.forall₂_map_left_iff.mpr (List.forall₂_same.mpr fun _ _ => rfl)
  obtain ⟨l'', hl, hperm⟩ := List.perm_comp_forall₂ h hmap
  refine ⟨l'', hperm, ?_⟩
  clear hmap hperm h
  induction hl with
  | nil => rfl
  | cons ha _ ih => rw [ha, ih, List.map_cons]

/-- A key finds the member that has it, when no two have it. -/
theorem find?_key_eq_some {α κ : Type} [DecidableEq κ] {f : α → κ} {l : List α}
    (hn : (l.map f).Nodup) {k : κ} {a : α} :
    l.find? (fun b => f b = k) = some a ↔ a ∈ l ∧ f a = k := by
  constructor
  · intro h
    exact ⟨List.mem_of_find?_eq_some h, by simpa using List.find?_some h⟩
  · rintro ⟨ha, rfl⟩
    cases h : l.find? fun b => f b = f a with
    | none => simpa using List.find?_eq_none.mp h a ha
    | some b =>
        have hkey : f b = f a := by simpa using List.find?_some h
        rw [List.inj_on_of_nodup_map hn (List.mem_of_find?_eq_some h) ha hkey]

end ParticleSim
