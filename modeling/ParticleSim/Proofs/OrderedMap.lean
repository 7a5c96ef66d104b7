import ParticleSim.OrderedMap
import ParticleSim.Proofs.Lists
import Mathlib.Data.List.Induction

/-!
# Collections — Looking up in maps

What `find?` answers after a change of a map (`OrderedMap.find?_insert`,
`OrderedMap.find?_mapValues`), and that it answers with the pairs of the map and nothing else
(`OrderedMap.find?_eq_some`).  A map of given pairs has each key in the place of its first pair and
with the value of its last (`OrderedMap.keys_ofList`, `OrderedMap.find?_ofList`).
-/

namespace ParticleSim

namespace OrderedMap

variable {κ β γ : Type}

/-- A map is its pairs. -/
theorem ext {m n : OrderedMap κ β} (h : m.entries = n.entries) : m = n := by
  cases m; cases n; cases h; rfl

theorem mem_keys_of_mem {m : OrderedMap κ β} {k : κ} {v : β} (h : (k, v) ∈ m.entries) :
    k ∈ m.keys :=
  List.mem_map_of_mem h

variable [DecidableEq κ]

/-- In pairs without a repeated key, the first pair of a key is its only one. -/
theorem find?_fst_eq_some {l : List (κ × β)} (hn : (l.map Prod.fst).Nodup) {k : κ} {v : β} :
    (l.find? fun e => e.1 = k).map Prod.snd = some v ↔ (k, v) ∈ l := by
  rw [Option.map_eq_some_iff]
  constructor
  · rintro ⟨e, hf, rfl⟩
    obtain ⟨he, rfl⟩ := (find?_key_eq_some hn).mp hf
    exact he
  · exact fun h => ⟨(k, v), (find?_key_eq_some hn).mpr ⟨h, rfl⟩, rfl⟩

theorem find?_eq_some {m : OrderedMap κ β} {k : κ} {v : β} :
    m.find? k = some v ↔ (k, v) ∈ m.entries :=
  find?_fst_eq_some m.nodup

theorem find?_eq_none {m : OrderedMap κ β} {k : κ} : m.find? k = none ↔ k ∉ m.keys := by
  rw [← Option.not_isSome_iff_eq_none, isSome_find?, contains_iff]

theorem find?_mapValues (m : OrderedMap κ β) (f : κ → β → γ) (k : κ) :
    (m.mapValues f).find? k = (m.find? k).map (f k) := by
  obtain ⟨l, hn⟩ := m
  simp only [find?, mapValues]
  clear hn
  induction l with
  | nil => rfl
  | cons e l ih =>
      by_cases hk : e.1 = k
      · subst hk; simp
      · rw [List.map_cons, List.find?_cons_of_neg (by simpa using hk), ih,
          List.find?_cons_of_neg (by simpa using hk)]

theorem find?_modify (m : OrderedMap κ β) (k : κ) (f : β → β) (j : κ) :
    (m.modify k f).find? j = if j = k then (m.find? j).map f else m.find? j := by
  rw [modify, find?_mapValues]
  by_cases h : j = k <;> simp [h]

/-- A new key goes to the end with its value. -/
theorem entries_insert_of_not_mem {m : OrderedMap κ β} {k : κ} (v : β) (h : k ∉ m.keys) :
    (m.insert k v).entries = m.entries ++ [(k, v)] := by
  rw [insert, dif_neg (by rwa [contains_iff])]

theorem find?_insert (m : OrderedMap κ β) (k : κ) (v : β) (j : κ) :
    (m.insert k v).find? j = if j = k then some v else m.find? j := by
  by_cases hc : m.contains k = true
  · rw [insert, dif_pos hc, find?_modify]
    split
    · next h =>
      subst h
      obtain ⟨w, hw⟩ := Option.isSome_iff_exists.mp ((isSome_find? m j).trans hc)
      rw [hw]; rfl
    · rfl
  · have hk : k ∉ m.keys := fun h => hc (contains_iff.mpr h)
    simp only [find?, entries_insert_of_not_mem v hk, List.find?_append, Option.map_or]
    by_cases h : j = k
    · subst h
      rw [if_pos rfl]
      have hf : (m.entries.find? fun e => e.1 = j).map Prod.snd = none := find?_eq_none.mpr hk
      rw [hf]
      simp
    · rw [if_neg h, List.find?_cons_of_neg (by simpa using Ne.symm h)]
      simp

theorem find?_erase (m : OrderedMap κ β) (k j : κ) :
    (m.erase k).find? j = if j = k then none else m.find? j := by
  split
  · next h =>
    subst h
    rw [find?_eq_none, keys_erase, List.mem_filter]
    exact fun h => of_decide_eq_true h.2 rfl
  · next h =>
    refine Option.ext fun v => ?_
    rw [find?_eq_some, find?_eq_some, erase, List.mem_filter]
    exact and_iff_left (decide_eq_true h)

/-- A map is its keys in order and what they are bound to. -/
theorem ext_find? {m n : OrderedMap κ β} (hk : m.keys = n.keys)
    (hf : ∀ k, m.find? k = n.find? k) : m = n := by
  refine ext ?_
  have hlength : m.entries.length = n.entries.length := by
    simpa [keys] using congrArg List.length hk
  refine List.ext_getElem hlength fun i hi hi' => ?_
  have hfst : m.entries[i].1 = n.entries[i].1 := by
    have hkeys := List.getElem_of_eq hk (i := i) (by simpa [keys] using hi)
    simpa [keys] using hkeys
  have hm : m.find? m.entries[i].1 = some m.entries[i].2 := find?_eq_some.mpr (List.getElem_mem hi)
  have hn : n.find? n.entries[i].1 = some n.entries[i].2 := find?_eq_some.mpr (List.getElem_mem hi')
  rw [hf, hfst, hn] at hm
  exact Prod.ext hfst (Option.some.inj hm).symm

/-! ### Maps of given pairs -/

theorem ofList_concat (pairs : List (κ × β)) (e : κ × β) :
    ofList (pairs ++ [e]) = (ofList pairs).insert e.1 e.2 := by
  rw [ofList, List.foldl_append]
  rfl

/-- A key has the place of its first pair. -/
theorem keys_ofList (pairs : List (κ × β)) :
    (ofList pairs).keys = (pairs.map Prod.fst).eraseDups := by
  induction pairs using List.reverseRecOn with
  | nil => rfl
  | append_singleton pairs e ih =>
      rw [ofList_concat, keys_insert, ih, List.map_append, List.eraseDups_append]
      by_cases h : e.1 ∈ pairs.map Prod.fst
      · rw [if_pos (List.mem_eraseDups.mpr h)]
        simp [List.removeAll, h]
      · rw [if_neg fun hm => h (List.mem_eraseDups.mp hm)]
        simp [List.removeAll, List.eraseDups_cons, h]

/-- A key has the value of its last pair. -/
theorem find?_ofList (pairs : List (κ × β)) (k : κ) :
    (ofList pairs).find? k = (pairs.reverse.find? fun e => e.1 = k).map Prod.snd := by
  induction pairs using List.reverseRecOn with
  | nil => rfl
  | append_singleton pairs e ih =>
      rw [ofList_concat, find?_insert, List.reverse_append, List.reverse_singleton,
        List.singleton_append]
      by_cases h : k = e.1
      · subst h
        simp
      · rw [if_neg h, ih, List.find?_cons_of_neg (by simpa using Ne.symm h)]

end OrderedMap

end ParticleSim
