import ParticleSim.Proofs.Restore.Formation

/-!
# Rosters — Who answers a hit

A hit names the boundary condition that decides it by its id.  There are two ways to look an id up,
one that finds the built-in variants first and one among the members alone, and a hit takes the
second after it has decided the two reserved ids itself.  In an intact list both come to the same.

* `Roster.Intact.findById?_eq`: an id from `-3` down finds the member at its place, unless that one
  has a reserved id.
* `Roster.Intact.interact_of_member`: a hit runs the member that is found on its own parameters, and
  changes no other.
* `Roster.Formed.dispatch_agrees`: this for every list that there can be.
-/

namespace ParticleSim

/-- Only the reserved ids belong to built-in variants. -/
theorem Family.builtinById?_boundary {id : ComponentId} :
    Family.boundary.builtinById? id = none ↔ id ≠ reflectId ∧ id ≠ absorbId := by
  rw [builtinById?, List.find?_eq_none]
  simp [builtins, eq_comm]

/-- An id from `-3` down is not reserved. -/
theorem ComponentId.not_reserved {id : ComponentId} {i : Nat} (h : id.val.toInt = -(3 + i)) :
    id ≠ reflectId ∧ id ≠ absorbId := by
  constructor <;> rintro rfl
  · have hval : reflectId.val.toInt = -1 := rfl
    omega
  · have hval : absorbId.val.toInt = -2 := rfl
    omega

namespace Roster

section Lookup

variable {F : Family} {l : Roster F} {c : Component F} {id : ComponentId}

theorem findById?_of_free (l : Roster F) (h : F.builtinById? id = none) :
    l.findById? id = (l.memberById? id).map .member := by
  rw [findById?, h]

/-- **An id that is not reserved finds the member that has it.** -/
theorem Intact.memberById?_eq_some (h : l.Intact) (hfree : F.builtinById? id = none) :
    l.memberById? id = some c ↔ c ∈ l.members ∧ c.id = some id := by
  rw [memberById?]
  constructor
  · intro hf
    exact ⟨List.mem_reverse.mp (List.mem_of_find?_eq_some hf), by simpa using List.find?_some hf⟩
  · rintro ⟨hc, hid⟩
    cases hf : l.native.find? (·.id = some id) with
    | none => simpa [hid] using List.find?_eq_none.mp hf c (List.mem_reverse.mpr hc)
    | some c' =>
        have hid' : c'.id = some id := by simpa using List.find?_some hf
        obtain ⟨i, hi⟩ := List.mem_iff_getElem?.mp hc
        obtain ⟨j, hj⟩ := List.mem_iff_getElem?.mp
          (List.mem_reverse.mp (List.mem_of_find?_eq_some hf))
        obtain rfl := h.place_unique hi hj hid hid' hfree
        exact hj.symm.trans hi

end Lookup

variable {l : Roster .boundary} {c : Component .boundary} {id : ComponentId} {i : Nat}

/-! ### Lookup -/

/-- A member has the id that belongs to the `i`-th place exactly when it is there and its own id is
not a reserved one. -/
theorem Intact.id_eq_iff (h : l.Intact) {j : Nat} (hc : l.members[j]? = some c)
    (hid : id.val.toInt = -(3 + i)) :
    c.id = some id ↔ j = i ∧ c.kind ≠ .reflect ∧ c.kind ≠ .absorb := by
  have hlt : i < UInt64.size := by
    have hle := id.val.le_toInt
    rw [UInt64.size]
    omega
  have hplace : id = Family.boundary.nextId .unknown i := by
    rw [Family.nextId_eq_idAt]
    exact congrArg ComponentId.mk (by rw [← id.val.ofInt_toInt, hid]; rfl)
  obtain ⟨hreflect, habsorb⟩ := ComponentId.not_reserved hid
  rw [h.id_eq_nextId hc, Option.some.injEq]
  constructor
  · intro hnext
    have hfree : Family.boundary.builtinById? (Family.boundary.nextId c.kind j) = none := by
      rw [hnext]
      exact Family.builtinById?_boundary.mpr ⟨hreflect, habsorb⟩
    refine ⟨Family.nextId_inj (h.lt_of_getElem? hc) hlt (hnext.trans hplace) hfree, ?_, ?_⟩ <;>
      intro hk <;> rw [hk] at hnext
    · exact hreflect hnext.symm
    · exact habsorb hnext.symm
  · rintro ⟨rfl, hkr, hka⟩
    rw [hplace]
    cases hk : c.kind
    case reflect => exact absurd hk hkr
    case absorb => exact absurd hk hka
    all_goals rfl

/-- **An id from `-3` down finds the member at its place**, unless that one has a reserved id. -/
theorem Intact.findById?_eq (h : l.Intact) (hid : id.val.toInt = -(3 + i)) :
    l.findById? id =
      (l.members[i]?.filter fun c => c.kind ≠ .reflect ∧ c.kind ≠ .absorb).map .member := by
  have hfree := Family.builtinById?_boundary.mpr (ComponentId.not_reserved hid)
  rw [findById?_of_free l hfree]
  refine congrArg (Option.map Lookup.member) (Option.ext fun c => ?_)
  rw [h.memberById?_eq_some hfree, Option.filter_eq_some_iff, decide_eq_true_iff]
  constructor
  · rintro ⟨hc, hcid⟩
    obtain ⟨j, hj⟩ := List.mem_iff_getElem?.mp hc
    obtain ⟨rfl, hkind⟩ := (h.id_eq_iff hj hid).mp hcid
    exact ⟨hj, hkind⟩
  · rintro ⟨hc, hkind⟩
    exact ⟨List.mem_of_getElem? hc, (h.id_eq_iff hc hid).mpr ⟨rfl, hkind⟩⟩

/-! ### Hits -/

theorem interact_reflectId (l : Roster .boundary) (hit : Hit) (species : SpeciesList) :
    l.interact reflectId hit species = .ok (.reflected, l, species) :=
  rfl

theorem interact_absorbId (l : Roster .boundary) (hit : Hit) (species : SpeciesList) :
    l.interact absorbId hit species = .ok (.absorbed, l, (hit.absorb species).2) :=
  rfl

/-- **A hit at an id that is not reserved runs the member that has it**, on its own parameters. -/
theorem Intact.interact_of_member (h : l.Intact) (hfree : Family.boundary.builtinById? id = none)
    (hc : l.members[i]? = some c) (hid : c.id = some id) (hit : Hit) (species : SpeciesList) :
    l.interact id hit species =
      .ok ((c.interact hit species).1,
        { l with members := l.members.set i { c with params := (c.interact hit species).2.1 } },
        (c.interact hit species).2.2) := by
  obtain ⟨hreflect, habsorb⟩ := Family.builtinById?_boundary.mp hfree
  have hfound := (h.memberById?_eq_some hfree).mpr ⟨List.mem_of_getElem? hc, hid⟩
  rw [interact, if_neg hreflect, if_neg habsorb, hfound]
  simp only
  rw [h.updateParams_eq hc]

/-- **A hit fails exactly when its id finds nothing.** -/
theorem interact_eq_error {hit : Hit} {species : SpeciesList} {e : LookupError} :
    l.interact id hit species = .error e ↔ e = .id id ∧ l.findById? id = none := by
  by_cases hreflect : id = reflectId
  · subst hreflect
    simp [interact_reflectId, findById?, show Family.boundary.builtinById? reflectId = some _ from rfl]
  by_cases habsorb : id = absorbId
  · subst habsorb
    simp [interact_absorbId, findById?, show Family.boundary.builtinById? absorbId = some _ from rfl]
  rw [interact, if_neg hreflect, if_neg habsorb,
    findById?_of_free l (Family.builtinById?_boundary.mpr ⟨hreflect, habsorb⟩)]
  cases l.memberById? id with
  | none => simp [eq_comm]
  | some c => simp

/-- A member whose id is not reserved is not of a kind that has one. -/
theorem Intact.kind_of_free (h : l.Intact) (hfree : Family.boundary.builtinById? id = none)
    (hc : l.members[i]? = some c) (hid : c.id = some id) :
    c.kind ≠ .reflect ∧ c.kind ≠ .absorb := by
  obtain ⟨hreflect, habsorb⟩ := Family.builtinById?_boundary.mp hfree
  rw [h.id_eq_nextId hc, Option.some.injEq] at hid
  constructor <;> intro hk <;> rw [hk] at hid
  · exact hreflect hid.symm
  · exact habsorb hid.symm

end Roster

/-- A member whose id is not reserved does what its behavior does, and absorbs without one. -/
theorem Component.interact_of_free {c : Component .boundary} (hr : c.kind ≠ .reflect)
    (ha : c.kind ≠ .absorb) (hit : Hit) (species : SpeciesList) :
    c.interact hit species =
      match c.behavior with
      | some behavior => behavior.run c.params hit species
      | none => (.absorbed, c.params, (hit.absorb species).2) := by
  rw [interact]
  cases hk : c.kind
  case reflect => exact absurd hk hr
  case absorb => exact absurd hk ha
  all_goals cases c.behavior <;> rfl

namespace Roster

variable {l : Roster .boundary}

/-- **Lookup and dispatch agree** in every list of boundary conditions that there can be.  A hit
fails exactly when its id finds nothing, and then there is no new list.  The id `-(3 + i)` finds the
`i`-th member to join, unless there is none or its kind has a reserved id, and nothing otherwise.
At the reserved ids a hit is decided without looking at the members, whatever they are.  At any
other id that finds something, it finds a member; the hit runs the behavior of that one on its own
parameters and changes nothing else in the list, or is absorbed if it has none. -/
theorem Formed.dispatch_agrees (h : l.Formed) :
    (∀ id hit species e,
      l.interact id hit species = .error e ↔ e = .id id ∧ l.findById? id = none) ∧
    (∀ (id : ComponentId) (i : Nat), id.val.toInt = -(3 + i) →
      l.findById? id =
        (l.members[i]?.filter fun c => c.kind ≠ .reflect ∧ c.kind ≠ .absorb).map .member) ∧
    (∀ (l' : Roster .boundary) hit species,
      l'.interact reflectId hit species = .ok (.reflected, l', species) ∧
      l'.interact absorbId hit species = .ok (.absorbed, l', (hit.absorb species).2)) ∧
    ∀ id found, id ≠ reflectId → id ≠ absorbId → l.findById? id = some found →
      ∃ (i : Nat) (c : Component .boundary), found = .member c ∧ l.members[i]? = some c ∧
        (∀ behavior, c.behavior = some behavior → ∀ hit species,
          l.interact id hit species =
            .ok ((behavior.run c.params hit species).1,
              { l with members :=
                  l.members.set i { c with params := (behavior.run c.params hit species).2.1 } },
              (behavior.run c.params hit species).2.2)) ∧
        (c.behavior = none → ∀ hit species,
          l.interact id hit species = .ok (.absorbed, l, (hit.absorb species).2)) := by
  refine ⟨fun _ _ _ _ => interact_eq_error, fun _ _ => h.intact.findById?_eq,
    fun l' hit species => ⟨interact_reflectId l' hit species, interact_absorbId l' hit species⟩,
    fun id found hreflect habsorb hfound => ?_⟩
  have hfree := Family.builtinById?_boundary.mpr ⟨hreflect, habsorb⟩
  rw [findById?_of_free l hfree] at hfound
  obtain ⟨c, hc, rfl⟩ := Option.map_eq_some_iff.mp hfound
  obtain ⟨hmem, hid⟩ := (h.intact.memberById?_eq_some hfree).mp hc
  obtain ⟨i, hi⟩ := List.mem_iff_getElem?.mp hmem
  obtain ⟨hr, ha⟩ := h.intact.kind_of_free hfree hi hid
  have hrun := Component.interact_of_free hr ha
  refine ⟨i, c, rfl, hi, fun behavior hb hit species => ?_, fun hb hit species => ?_⟩
  · rw [hb] at hrun
    rw [h.intact.interact_of_member hfree hi hid, hrun]
  · have hsame : l.members.set i c = l.members := by
      obtain ⟨hlt, rfl⟩ := List.getElem?_eq_some_iff.mp hi
      exact List.set_getElem_self hlt
    rw [hb] at hrun
    rw [h.intact.interact_of_member hfree hi hid, hrun]
    simp only [hsame]

/-- A list in which a boundary condition that counts has joined one that reflects. -/
def mixedRoster : Roster .boundary :=
  ((empty ⟨2⟩ ⟨0⟩ : Roster .boundary).offer
      (.unlinked ⟨5⟩ "mirror" .reflect .none none)).offer
    (.unlinked ⟨6⟩ "tally" .absorbTally (.tally [0]) (some ⟨"absorb_tally", absorbTally⟩))

/-- The one that reflects leaves a gap: a hit at the id of its place fails. -/
theorem Formed.dispatch_agrees_mixed :
    mixedRoster.interact ⟨-3⟩ ⟨0, 0⟩ .empty = .error (.id ⟨-3⟩) := by
  have formed : mixedRoster.Formed := ((Formed.empty ⟨2⟩ ⟨0⟩).offered _).offered _
  obtain ⟨herror, hfind, -⟩ := formed.dispatch_agrees
  exact (herror ⟨-3⟩ ⟨0, 0⟩ .empty (.id ⟨-3⟩)).mpr ⟨rfl, hfind ⟨-3⟩ 0 (by decide)⟩

end Roster

end ParticleSim
