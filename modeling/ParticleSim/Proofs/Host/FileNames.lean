import ParticleSim.Host.Session
import Mathlib.Data.List.Nodup

/-!
# Host — Names of checkpoint files

A rank's file has the name that the ranks have in common with a dot and the rank's number behind
it, and while it is incomplete one more dot with the word `partial` (`dotted`).  Neither a number
nor the word has a dot in it, so the last dot tells where a name was extended, whatever dots, digits
and words it had before (`dotted_inj`).

* `rankPath_distinct`: ranks with one name in common never meet in a file, complete or not.
-/

namespace ParticleSim

/-- A name with an ending behind a dot. -/
def dotted (name ending : String) : String := name ++ "." ++ ending

theorem toList_dotted (name ending : String) :
    (dotted name ending).toList = name.toList ++ '.' :: ending.toList := by
  rw [dotted, String.toList_append, String.toList_append, List.append_assoc]
  rfl

theorem rankPath_eq_dotted (base : String) (rank : UInt32) :
    rankPath base rank = dotted base rank.toNat.repr :=
  rfl

theorem partialPath_eq_dotted (path : String) : partialPath path = dotted path "partial" := by
  rw [dotted, String.append_assoc]
  rfl

/-- Where a list begins with its last `a`, nothing comes before that `a`. -/
theorem eq_nil_of_cons_eq_append {α : Type} {a : α} {front back back' : List α} (h : a ∉ back)
    (heq : a :: back = front ++ a :: back') : front = [] ∧ back = back' := by
  cases front with
  | nil => exact ⟨rfl, (List.cons.inj heq).2⟩
  | cons _ front =>
      refine absurd ?_ h
      rw [(List.cons.inj heq).2]
      exact List.mem_append_right _ List.mem_cons_self

/-- Lists that are divided at their last `a` are divided in one way. -/
theorem append_cons_inj_of_last {α : Type} {a : α} {front front' back back' : List α}
    (hback : a ∉ back) (hback' : a ∉ back') :
    front ++ a :: back = front' ++ a :: back' ↔ front = front' ∧ back = back' := by
  refine ⟨fun h => ?_, fun ⟨hf, hb⟩ => hf ▸ hb ▸ rfl⟩
  -- of two fronts one begins the other
  rcases List.append_eq_append_iff.mp h with ⟨more, rfl, hmore⟩ | ⟨more, rfl, hmore⟩
  · obtain ⟨rfl, hb⟩ := eq_nil_of_cons_eq_append hback hmore
    exact ⟨(List.append_nil _).symm, hb⟩
  · obtain ⟨rfl, hb⟩ := eq_nil_of_cons_eq_append hback' hmore
    exact ⟨List.append_nil _, hb.symm⟩

/-- **The last dot divides a name.** -/
theorem dotted_inj {name name' ending ending' : String} (h : '.' ∉ ending.toList)
    (h' : '.' ∉ ending'.toList) :
    dotted name ending = dotted name' ending' ↔ name = name' ∧ ending = ending' := by
  rw [← String.toList_inj, toList_dotted, toList_dotted, append_cons_inj_of_last h h',
    String.toList_inj, String.toList_inj]

/-! ### Endings -/

/-- A number is written with digits. -/
theorem isDigit_of_mem_repr {n : Nat} {c : Char} (h : c ∈ n.repr.toList) : c.isDigit = true := by
  rw [Nat.repr_eq_ofList_toDigits, String.toList_ofList] at h
  exact Nat.isDigit_of_mem_toDigits (by decide) (by decide) h

/-- A number is read off its digits. -/
theorem ofDigitChars_repr (n : Nat) : Nat.ofDigitChars 10 n.repr.toList 0 = n := by
  rw [Nat.repr_eq_ofList_toDigits, String.toList_ofList, Nat.ofDigitChars_ten_toDigits]

theorem dot_not_mem_repr (n : Nat) : '.' ∉ n.repr.toList :=
  fun h => absurd (isDigit_of_mem_repr h) (by decide)

theorem dot_not_mem_partial : '.' ∉ "partial".toList := by decide

theorem partial_ne_repr (n : Nat) : "partial" ≠ n.repr := by
  intro h
  have hp : 'p' ∈ n.repr.toList := h ▸ by decide
  exact absurd (isDigit_of_mem_repr hp) (by decide)

/-! ### Names -/

theorem rankPath_inj {base base' : String} {rank rank' : UInt32} :
    rankPath base rank = rankPath base' rank' ↔ base = base' ∧ rank = rank' := by
  have hrank : rank.toNat.repr = rank'.toNat.repr ↔ rank = rank' := by
    refine ⟨fun h => UInt32.toNat_inj.mp ?_, fun h => h ▸ rfl⟩
    rw [← ofDigitChars_repr rank.toNat, h, ofDigitChars_repr]
  rw [rankPath_eq_dotted, rankPath_eq_dotted,
    dotted_inj (dot_not_mem_repr _) (dot_not_mem_repr _), hrank]

theorem partialPath_inj {path path' : String} :
    partialPath path = partialPath path' ↔ path = path' := by
  rw [partialPath_eq_dotted, partialPath_eq_dotted,
    dotted_inj dot_not_mem_partial dot_not_mem_partial]
  exact and_iff_left rfl

theorem partialPath_ne_rankPath (path base : String) (rank : UInt32) :
    partialPath path ≠ rankPath base rank := by
  rw [partialPath_eq_dotted, rankPath_eq_dotted]
  intro h
  exact partial_ne_repr _ ((dotted_inj dot_not_mem_partial (dot_not_mem_repr _)).mp h).2

/-- The names of a rank's file: when it is complete, and until then. -/
def fileNames (base : String) (rank : UInt32) : List String :=
  [rankPath base rank, partialPath (rankPath base rank)]

theorem nodup_fileNames (base : String) (rank : UInt32) : (fileNames base rank).Nodup := by
  rw [fileNames, List.nodup_cons, List.mem_singleton]
  exact ⟨(partialPath_ne_rankPath _ _ _).symm, List.nodup_singleton _⟩

/-- Two ranks have no name in common. -/
theorem disjoint_fileNames (base : String) {rank rank' : UInt32} (h : rank ≠ rank') :
    (fileNames base rank).Disjoint (fileNames base rank') := by
  have hpath : rankPath base rank ≠ rankPath base rank' := fun heq => h (rankPath_inj.mp heq).2
  intro name hname hname'
  simp only [fileNames, List.mem_cons, List.not_mem_nil, or_false] at hname hname'
  rcases hname with rfl | rfl <;> rcases hname' with heq | heq
  · exact hpath heq
  · exact partialPath_ne_rankPath _ _ _ heq.symm
  · exact partialPath_ne_rankPath _ _ _ heq
  · exact hpath (partialPath_inj.mp heq)

/-- The ranks of a world. -/
def worldRanks (world : UInt32) : List UInt32 := (List.range world.toNat).map UInt32.ofNat

theorem nodup_worldRanks (world : UInt32) : (worldRanks world).Nodup := by
  refine List.Nodup.map_on (fun n hn m hm heq => ?_) List.nodup_range
  have hword : ∀ k ∈ List.range world.toNat, k < UInt32.size := fun k hk =>
    Nat.lt_trans (List.mem_range.mp hk) world.toNat_lt
  rw [← UInt32.toNat_ofNat_of_lt' (hword n hn), ← UInt32.toNat_ofNat_of_lt' (hword m hm), heq]

/-- **Ranks never share a file.**  The name of a rank's file tells the rank and the name in common,
the name of an incomplete file tells the file, and no incomplete file has a name that a rank's file
can have.  So in a world of any size no two of the files that the ranks write have the same name,
whether they are complete or not. -/
theorem rankPath_distinct :
    (∀ base base' rank rank',
      rankPath base rank = rankPath base' rank' ↔ base = base' ∧ rank = rank') ∧
    (∀ path path', partialPath path = partialPath path' ↔ path = path') ∧
    (∀ path base rank, partialPath path ≠ rankPath base rank) ∧
    ∀ base world, ((worldRanks world).flatMap (fileNames base)).Nodup := by
  refine ⟨fun _ _ _ _ => rankPath_inj, fun _ _ => partialPath_inj, partialPath_ne_rankPath,
    fun base world => List.nodup_flatMap.mpr ⟨fun rank _ => nodup_fileNames base rank, ?_⟩⟩
  exact (nodup_worldRanks world).imp fun h => disjoint_fileNames base h

end ParticleSim
