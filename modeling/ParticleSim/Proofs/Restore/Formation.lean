import ParticleSim.Proofs.Restore.Assembly
import ParticleSim.Proofs.Roster.Numbering

/-!
# Restores — Lists that there can be

A list starts out empty or comes out of a table of staged objects, and then components are offered
to it and it is torn down (`Roster.Formed`).  Whatever the table claimed about ids and links, the
list is intact (`Roster.Formed.intact`), and so is all that is read off it
(`Roster.Formed.in_sequence`).
-/

namespace ParticleSim

namespace Roster

variable {F : Family} {l : Roster F}

/-- The list after a component was offered to it; one that is refused changes nothing. -/
def offer (l : Roster F) (c : Component F) : Roster F :=
  match l.append c with
  | .ok l' => l'
  | .error _ => l

/-- The lists that there can be: empty ones, ones that are taken out of a table whose objects have
connected, after anything else was, and what becomes of them. -/
inductive Formed : Roster F → Prop where
  | empty (object : ObjectId) (place : ListInstance) : Formed (empty object place)
  | restored {st st' rest : Staging Staged} {taken : List ObjectId} {object : ObjectId}
      {place : ListInstance} {l : Roster F} (fresh : st.Fresh)
      (connected : Staging.connectAll Staged.connect st = .ok () st') (once : taken.Nodup)
      (took : Simulation.takeList F object place (st'.without taken) = .ok l rest) : Formed l
  | offered {l : Roster F} (before : Formed l) (c : Component F) : Formed (l.offer c)
  | cleared {l : Roster F} (before : Formed l) : Formed l.clear

theorem Intact.offer (h : l.Intact) (c : Component F) : (l.offer c).Intact := by
  rw [Roster.offer]
  split
  · next ha => exact h.append ha
  · exact h

/-- **Every list that there can be is intact.** -/
theorem Formed.intact (h : l.Formed) : l.Intact := by
  induction h with
  | empty object place => exact intact_empty object place
  | restored fresh connected once took =>
      obtain ⟨-, -, hheld, hnodup, -⟩ := (Simulation.takeList_eq_ok fresh connected once).mp took
      exact ⟨hheld.chained, ((List.nodup_append.mp hnodup).2.1).of_cons⟩
  | offered _ c ih => exact ih.offer c
  | cleared _ _ => exact intact_clear _

/-- **Links, ids and count agree with the members** of every list that there can be.  The links from
the head lead past every member once, the last to join first, and end; each member has the id of the
place at which it joined; ids that are not reserved are distinct; and the count, which a boundary
list reads off its head, has been the number of members whenever one joined and still is. -/
theorem Formed.in_sequence (h : l.Formed) :
    (∀ cs, l.Follows l.nextLink cs ↔ cs = l.members.reverse) ∧ l.members.reverse.Nodup ∧
    (∀ (i : Nat) (c : Component F), l.members[i]? = some c →
      c.id = some ⟨.ofInt (F.idAt c.kind i)⟩) ∧
    (∀ (i j : Nat) (c c' : Component F) (id : ComponentId), l.members[i]? = some c →
      l.members[j]? = some c' → c.id = some id → c'.id = some id →
      F.builtinById? id = none → i = j) ∧
    (∀ i, (l.first i).count = (l.first i).size) ∧ l.count = l.size :=
  ⟨fun _ => h.intact.follows_iff, List.nodup_reverse.mpr h.intact.nodup.of_map,
    fun _ _ => h.intact.id_eq, fun _ _ _ _ _ => h.intact.place_unique,
    fun i => (h.intact.first i).count_eq_size, h.intact.count_eq_size⟩

/-- A boundary condition that was the first to join. -/
def sampleTally : Component .boundary :=
  ⟨⟨3⟩, "tally", some ⟨-3⟩, .absorbTally, .tally [], none, some .last⟩

/-- One with a reserved id that joined next. -/
def sampleMirror : Component .boundary :=
  ⟨⟨5⟩, "mirror", some reflectId, .reflect, .none, none, some (.next ⟨3⟩)⟩

/-- The record of their list. -/
def sampleRecord : RosterRecord .boundary := ⟨⟨1⟩, 2, ⟨7⟩, some ⟨5⟩, []⟩

def sampleStaging : Staging Staged :=
  ⟨.ofList
    [(⟨3⟩, ⟨"particle_bc", some (.component .boundary sampleTally)⟩),
      (⟨1⟩, ⟨"particle_bc_list", some (.roster .boundary sampleRecord)⟩),
      (⟨5⟩, ⟨"particle_bc", some (.component .boundary sampleMirror)⟩)]⟩

/-- Their list. -/
def sampleRoster : Roster .boundary := ⟨⟨1⟩, ⟨4⟩, [sampleTally, sampleMirror], ⟨7⟩⟩

/-- The list is restored; then a component joins it, and one that is a member already does not. -/
theorem Formed.in_sequence_restored :
    ((sampleRoster.offer (.unlinked ⟨8⟩ "reflux" .maxwellianReflux .none none)).offer
      sampleTally).count = 3 := by
  have fresh : sampleStaging.Fresh := by
    intro e he
    have he' : e ∈ [_, _, _] := he
    simp only [List.mem_cons, List.not_mem_nil, or_false] at he'
    rcases he' with rfl | rfl | rfl
    · exact ⟨.component .boundary sampleTally, rfl, rfl⟩
    · exact ⟨.roster .boundary sampleRecord, rfl, rfl, rfl⟩
    · exact ⟨.component .boundary sampleMirror, rfl, rfl⟩
  have formed : sampleRoster.Formed :=
    @Formed.restored .boundary sampleStaging _ _ [] ⟨1⟩ ⟨4⟩ sampleRoster fresh rfl
      List.nodup_nil rfl
  exact (((formed.offered _).offered sampleTally).in_sequence).2.2.2.2.2

end Roster

end ParticleSim
