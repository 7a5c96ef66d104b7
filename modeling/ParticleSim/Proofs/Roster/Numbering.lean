import ParticleSim.Proofs.Lists
import ParticleSim.Proofs.Registry
import ParticleSim.Proofs.Roster.Chains
import Mathlib.Data.List.Induction

/-!
# Rosters — Numbers and links

In a list that is chained and holds no object twice (`Roster.Intact`), what is read off one member
agrees with what the whole list shows:

* the links from the head lead past every member once and end (`Roster.Intact.follows_iff`);
* the number that a boundary list reads off its head is the number of its members
  (`Roster.Intact.count_eq_size`), so every member has the id of its place (`Roster.Intact.id_eq`),
  and ids that are not reserved are distinct (`Roster.Intact.place_unique`).

No bound on the number of members is needed.  There are no more of them than identities, and up to
there the count survives that ids wrap.
-/

namespace ParticleSim

/-! ### Ids by place -/

/-- Numbers below `2 ^ 64` are told apart by the words they stand for. -/
theorem ofNat_inj_of_lt {n m : Nat} (hn : n < UInt64.size) (hm : m < UInt64.size)
    (h : Int64.ofNat n = Int64.ofNat m) : n = m := by
  have hwords : UInt64.ofNat n = UInt64.ofNat m := congrArg Int64.toUInt64 h
  rw [← UInt64.toNat_ofNat_of_lt' hn, hwords, UInt64.toNat_ofNat_of_lt' hm]

namespace Family

variable {F : Family}

/-- The id of a component that joins `n` others, as a number that does not wrap. -/
def idAt : (F : Family) → F.Kind → (n : Nat) → Int
  | boundary, .reflect, _ => -1
  | boundary, .absorb, _ => -2
  | boundary, _, n => -(3 + n)
  | collision, _, n => n
  | emitter, _, n => n

theorem nextId_eq_idAt (kind : F.Kind) (n : Nat) :
    F.nextId kind n = ⟨.ofInt (F.idAt kind n)⟩ := by
  have hdown : -3 - Int64.ofNat n = .ofInt (-(3 + n)) := by
    rw [Int64.ofInt_neg, Int64.ofInt_add, Int64.ofInt_eq_ofNat]
    grind
  cases F with
  | boundary =>
      cases kind
      case reflect | absorb => rfl
      all_goals exact congrArg ComponentId.mk hdown
  | collision => rfl
  | emitter => rfl

/-- An id that is not reserved tells how many components its owner has joined. -/
theorem nextId_inj {kind kind' : F.Kind} {n m : Nat} (hn : n < UInt64.size)
    (hm : m < UInt64.size) (h : F.nextId kind n = F.nextId kind' m)
    (hfree : F.builtinById? (F.nextId kind n) = none) : n = m := by
  have hup : (⟨.ofNat n⟩ : ComponentId) = ⟨.ofNat m⟩ → n = m :=
    fun h => ofNat_inj_of_lt hn hm (congrArg ComponentId.val h)
  have hdown : (⟨-3 - .ofNat n⟩ : ComponentId) = ⟨-3 - .ofNat m⟩ → n = m := by
    intro h
    have hval : -3 - Int64.ofNat n = -3 - Int64.ofNat m := congrArg ComponentId.val h
    exact ofNat_inj_of_lt hn hm (by grind)
  cases F with
  | boundary =>
      -- a reserved id belongs to a built-in variant
      have hfree' := h ▸ hfree
      cases kind
      case reflect | absorb => cases hfree
      all_goals
        cases kind'
        case reflect | absorb => cases hfree'
        all_goals exact hdown h
  | collision => exact hup h
  | emitter => exact hup h

end Family

namespace Roster

variable {F : Family} {l l' : Roster F}

/-! ### Counting -/

/-- What the id of a boundary condition that has joined `n` others says about their number. -/
theorem toNat_of_nextId {kind : BoundaryKind} {n : Nat} (hn : n < UInt64.size)
    (hle : (Family.nextId .boundary kind n).val ≤ -3) :
    (-(Family.nextId .boundary kind n).val - 2).toUInt64.toNat = n + 1 := by
  have hdown (hle : -3 - Int64.ofNat n ≤ -3) :
      (-(-3 - Int64.ofNat n) - 2).toUInt64.toNat = n + 1 := by
    -- the last id there is has wrapped to a reserved one
    have hne : n + 1 ≠ UInt64.size := by
      intro h
      obtain rfl : n = UInt64.size - 1 := by omega
      exact absurd hle (by decide)
    have hsucc : -(-3 - Int64.ofNat n) - 2 = Int64.ofNat (n + 1) := by
      rw [Int64.ofNat_add]
      grind
    rw [hsucc]
    exact UInt64.toNat_ofNat_of_lt' (by omega)
  cases kind
  case reflect => exact absurd hle (by decide : ¬ reflectId.val ≤ -3)
  case absorb => exact absurd hle (by decide : ¬ absorbId.val ≤ -3)
  all_goals exact hdown hle

/-- A component more is counted when it joins with the next id. -/
theorem count_concat {c : Component F} (hs : l.size < UInt64.size)
    (hid : c.id = some (F.nextId c.kind l.size)) :
    ({ l with members := l.members ++ [c] } : Roster F).count = l.size + 1 := by
  have hhead : ({ l with members := l.members ++ [c] } : Roster F).head? = some c :=
    List.getLast?_concat
  have hsize : ({ l with members := l.members ++ [c] } : Roster F).size = l.size + 1 :=
    List.length_append
  cases F with
  | boundary =>
      simp only [count, hhead, Option.bind_some, hid, hsize]
      split
      · next hle => exact toNat_of_nextId hs hle
      · rfl
  | collision => exact hsize
  | emitter => exact hsize

/-- **Counting from the head agrees with counting the members** of a list with ids in sequence. -/
theorem Numbered.count_eq_size (h : l.Numbered) (hs : l.size ≤ UInt64.size) : l.count = l.size := by
  obtain ⟨object, place, members, version⟩ := l
  -- the next id depends on the count before, so the induction takes members off at the head
  induction members using List.reverseRecOn with
  | nil => cases F <;> rfl
  | append_singleton members c ih =>
      obtain ⟨hbefore, hid⟩ := joined_concat (l := ⟨object, place, members, version⟩) |>.mp h
      have hsize : (⟨object, place, members, version⟩ : Roster F).size < UInt64.size := by
        simpa [size, Nat.succ_le_iff] using hs
      rw [ih hbefore (Nat.le_of_lt hsize)] at hid
      rw [count_concat hsize hid]
      simp only [size, List.length_append, List.length_singleton]

/-! ### Intact lists -/

/-- A chained list that holds no object twice. -/
structure Intact (l : Roster F) : Prop where
  chained : l.Chained
  nodup : (l.members.map Component.object).Nodup

theorem intact_empty (object : ObjectId) (place : ListInstance) :
    (empty object place : Roster F).Intact :=
  ⟨chained_empty object place, List.nodup_nil⟩

theorem intact_clear (l : Roster F) : l.clear.Intact := ⟨chained_clear l, List.nodup_nil⟩

namespace Intact

variable {c : Component F} {i : Nat}

/-- A list that takes a component in stays intact. -/
theorem append (h : l.Intact) (ha : l.append c = .ok l') : l'.Intact := by
  refine ⟨h.chained.append ha, ?_⟩
  obtain ⟨-, hnot, rfl⟩ := append_eq_ok.mp ha
  simp only [contains, List.any_eq_false, decide_eq_true_eq] at hnot
  rw [List.map_append, List.nodup_append]
  refine ⟨h.nodup, List.nodup_singleton _, ?_⟩
  intro object hm object' hc
  obtain ⟨c', hc', rfl⟩ := List.mem_map.mp hm
  rw [List.mem_singleton.mp hc]
  exact hnot c' hc'

theorem retuned (h : l.Intact) (hr : l.Retuned l') : l'.Intact :=
  ⟨h.chained.retuned hr, by rw [hr.map_members fun _ _ => rfl]; exact h.nodup⟩

/-- The first members of an intact list are an intact list. -/
theorem first (h : l.Intact) (i : Nat) : (l.first i).Intact := by
  have hl :
      ({ l.first i with members := (l.first i).members ++ l.members.drop i } : Roster F) = l := by
    simp [Roster.first]
  refine ⟨Joined.of_append (l := l.first i) (by rw [hl]; exact h.chained), ?_⟩
  exact h.nodup.sublist ((List.take_sublist i l.members).map _)

/-- There are no more members than identities. -/
theorem size_le (h : l.Intact) : l.size ≤ UInt64.size := by
  rw [size, ← List.length_map Component.object]
  exact length_le_of_nodup_ids h.nodup fun id _ => id.val.toNat_lt

/-- **The count is the number of members**, whatever kinds they are of. -/
theorem count_eq_size (h : l.Intact) : l.count = l.size :=
  (chained_iff.mp h.chained).1.count_eq_size h.size_le

theorem size_first (h : l.members[i]? = some c) : (l.first i).size = i := by
  have hi : i < l.members.length := (List.getElem?_eq_some_iff.mp h).1
  simp only [size, Roster.first, List.length_take]
  omega

theorem id_eq_nextId (h : l.Intact) (hc : l.members[i]? = some c) :
    c.id = some (F.nextId c.kind i) := by
  rw [(h.chained i c hc).1, (h.first i).count_eq_size, size_first hc]

/-- **The id of a member tells its place**, down from `-3` in a boundary list and up from `0` in the
others. -/
theorem id_eq (h : l.Intact) (hc : l.members[i]? = some c) :
    c.id = some ⟨.ofInt (F.idAt c.kind i)⟩ := by
  rw [h.id_eq_nextId hc, Family.nextId_eq_idAt]

theorem lt_of_getElem? (h : l.Intact) (hc : l.members[i]? = some c) : i < UInt64.size :=
  Nat.lt_of_lt_of_le (List.getElem?_eq_some_iff.mp hc).1 h.size_le

/-- **Ids that are not reserved are distinct.** -/
theorem place_unique (h : l.Intact) {j : Nat} {c' : Component F} {id : ComponentId}
    (hc : l.members[i]? = some c) (hc' : l.members[j]? = some c') (hid : c.id = some id)
    (hid' : c'.id = some id) (hfree : F.builtinById? id = none) : i = j := by
  rw [h.id_eq_nextId hc, Option.some.injEq] at hid
  rw [h.id_eq_nextId hc', Option.some.injEq] at hid'
  exact Family.nextId_inj (h.lt_of_getElem? hc) (h.lt_of_getElem? hc') (hid.trans hid'.symm)
    (hid ▸ hfree)

/-- A member is found under its identity. -/
theorem get?_eq_some (h : l.Intact) {object : ObjectId} :
    l.get? object = some c ↔ c ∈ l.members ∧ c.object = object :=
  find?_key_eq_some h.nodup

/-- Changing the parameters of a member changes it in its place, and no other. -/
theorem updateParams_eq (h : l.Intact) (hc : l.members[i]? = some c)
    (f : F.Params → F.Params) :
    l.updateParams c.object f =
      { l with members := l.members.set i { c with params := f c.params } } := by
  obtain ⟨hi, rfl⟩ := List.getElem?_eq_some_iff.mp hc
  have hmembers : (l.members.map fun c => if c.object = l.members[i].object then
      { c with params := f c.params } else c) =
      l.members.set i { l.members[i] with params := f l.members[i].params } := by
    refine List.ext_getElem (by simp) fun j hj hj' => ?_
    rw [List.length_map] at hj
    rw [List.getElem_map, List.getElem_set]
    by_cases hij : i = j
    · subst hij
      simp
    · have hne : l.members[j].object ≠ l.members[i].object := by
        have hi' : i < (l.members.map Component.object).length := by rwa [List.length_map]
        have hj' : j < (l.members.map Component.object).length := by rwa [List.length_map]
        have hinj : (l.members.map Component.object)[i] = (l.members.map Component.object)[j] ↔
            i = j := List.Nodup.getElem_inj_iff h.nodup
        rw [List.getElem_map, List.getElem_map] at hinj
        exact fun e => hij (hinj.mp e.symm)
      rw [if_neg hne, if_neg hij]
  rw [updateParams, hmembers]

end Intact

/-! ### Following links -/

/-- The links from `link` on lead past the given components, each of which the list holds, and then
end. -/
inductive Follows (l : Roster F) : Link → List (Component F) → Prop where
  | last : Follows l .last []
  | next {object : ObjectId} {c : Component F} {link : Link} {cs : List (Component F)}
      (found : l.get? object = some c) (linked : c.link = some link) (rest : Follows l link cs) :
      Follows l (.next object) (c :: cs)

/-- Links lead one way. -/
theorem Follows.unique {link : Link} {cs cs' : List (Component F)} (h : l.Follows link cs)
    (h' : l.Follows link cs') : cs = cs' := by
  induction h generalizing cs' with
  | last => cases h'; rfl
  | next found linked _ ih =>
      cases h' with
      | next found' linked' rest' =>
          rw [found, Option.some.injEq] at found'
          subst found'
          rw [linked, Option.some.injEq] at linked'
          subst linked'
          rw [ih rest']

namespace Intact

/-- The links from the member that joined `i`-th lead past those that joined before it. -/
theorem follows_first (h : l.Intact) {i : Nat} (hi : i ≤ l.members.length) :
    l.Follows (l.first i).nextLink (l.first i).native := by
  induction i with
  | zero => exact .last
  | succ i ih =>
      have hc := List.getElem?_eq_getElem (Nat.lt_of_succ_le hi)
      have hfound := h.get?_eq_some.mpr ⟨List.mem_of_getElem? hc, rfl⟩
      have hnative : (l.first (i + 1)).native = l.members[i] :: (l.first i).native := by
        simp only [native, Roster.first, List.take_add_one, hc, Option.toList_some,
          List.reverse_concat]
      rw [nextLink_first_succ hc, hnative]
      exact .next hfound (h.chained i _ hc).2 (ih (Nat.le_of_succ_le hi))

/-- **The links from the head lead past every member, the last to join first**, and past nothing
else. -/
theorem follows_iff (h : l.Intact) {cs : List (Component F)} :
    l.Follows l.nextLink cs ↔ cs = l.native := by
  have hall := h.follows_first (Nat.le_refl _)
  rw [first_size] at hall
  exact ⟨fun hcs => hcs.unique hall, fun hcs => hcs ▸ hall⟩

end Intact

end Roster

end ParticleSim
