import ParticleSim.Proofs.Checkpoint.Streams

/-!
# Checkpoint — The grammar of streams

What a reader of streams accepts, said without the reader: a header and as many items as it
announces, whose lengths fit their prefixes, whose identities are distinct and below the cursor, and
each of which the decoder of its tag takes to the last byte (`Stream.Grammatical`).

* `Stream.read_iff_grammatical`: such a header and such items, spelled in a row and followed by
  anything, are read as what they are; and nothing else is read.
-/

namespace ParticleSim

namespace Stream

variable {α : Type} {decoders : Decoders α} {h : Header} {staged : Staging α} {items : List Item}
  {objects : List α}

/-- The tag of an item has a decoder, which makes `a` of the record and leaves nothing of either
section. -/
def Item.TakenAs (decoders : Decoders α) (i : Item) (a : α) : Prop :=
  ∃ decode r', decoders.find? i.tag = some decode ∧
    decode (i.record.open i.object) = .ok a r' ∧ r'.blob = [] ∧ r'.fields = []

/-- The slot of an item and of what has been made of it. -/
def Item.slot (i : Item) (a : α) : ObjectId × Slot α := (i.object, ⟨i.tag, some a⟩)

/-- A header and items that make a stream, and the objects that the decoders make of the items. -/
structure Grammatical (decoders : Decoders α) (h : Header) (items : List Item) (objects : List α) :
    Prop where
  /-- The name of the producer fits its prefix. -/
  producer : (Text.encode h.origin.producer).length < UInt32.size
  /-- There are as many items as the header announces. -/
  count : items.length = h.count.toNat
  /-- Tags and sections fit their prefixes. -/
  fits : ∀ i ∈ items, i.Fits
  distinct : (items.map Item.object).Nodup
  below : ∀ i ∈ items, i.object.val < h.cursor
  /-- Every item is taken to the last byte. -/
  taken : List.Forall₂ (Item.TakenAs decoders) items objects

theorem Item.decodes_iff {i : Item} {e : ObjectId × Slot α} :
    i.Decodes decoders e ↔ ∃ a, i.TakenAs decoders a ∧ e = i.slot a := by
  simp only [Item.Decodes, decodeRecord_eq_ok, Item.TakenAs, Item.slot]
  constructor
  · rintro ⟨a, ⟨decode, hd, r', hr, hb, hf⟩, he⟩
    exact ⟨a, ⟨decode, r', hd, hr, hb, hf⟩, he⟩
  · rintro ⟨a, ⟨decode, r', hd, hr, hb, hf⟩, he⟩
    exact ⟨a, ⟨decode, hd, r', hr, hb, hf⟩, he⟩

/-- Slots come from items when there are objects that the items are taken as. -/
theorem forall₂_decodes_iff {entries : List (ObjectId × Slot α)} :
    List.Forall₂ (Item.Decodes decoders) items entries ↔
      ∃ objects, List.Forall₂ (Item.TakenAs decoders) items objects ∧
        entries = List.zipWith Item.slot items objects := by
  induction items generalizing entries with
  | nil =>
      constructor
      · rintro ⟨⟩
        exact ⟨[], .nil, rfl⟩
      · rintro ⟨objects, -, rfl⟩
        exact .nil
  | cons i items ih =>
      constructor
      · intro hd
        cases hd with
        | cons hi hrest =>
            obtain ⟨a, ha, rfl⟩ := Item.decodes_iff.mp hi
            obtain ⟨objects, ho, rfl⟩ := ih.mp hrest
            exact ⟨a :: objects, .cons ha ho, rfl⟩
      · rintro ⟨objects, ho, rfl⟩
        cases ho with
        | cons ha hrest =>
            exact .cons (Item.decodes_iff.mpr ⟨_, ha, rfl⟩) (ih.mpr ⟨_, hrest, rfl⟩)

theorem map_fst_slots (h : List.Forall₂ (Item.TakenAs decoders) items objects) :
    (List.zipWith Item.slot items objects).map Prod.fst = items.map Item.object := by
  induction h with
  | nil => rfl
  | cons _ _ ih => rw [List.zipWith_cons_cons, List.map_cons, List.map_cons, ih, Item.slot]

/-- **A reader of streams accepts exactly the grammar**: the input is a header, its items, the end
marker and the count once more, and what it leaves is what follows these.  The header is the one
that was spelled, and the slots are those of the items, in their order. -/
theorem read_iff_grammatical {input rest : Bytes} :
    read decoders input = .ok (h, staged) rest ↔
      ∃ items objects, Grammatical decoders h items objects ∧ input = spell h items ++ rest ∧
        staged.slots.entries = List.zipWith Item.slot items objects := by
  rw [read_eq_ok]
  constructor
  · rintro ⟨items, hw, hd, rfl⟩
    obtain ⟨objects, ho, he⟩ := forall₂_decodes_iff.mp hd
    have hdistinct := staged.slots.nodup
    rw [he, map_fst_slots ho] at hdistinct
    exact ⟨items, objects, ⟨hw.producer, hw.count, hw.fits, hdistinct, hw.below, ho⟩, rfl, he⟩
  · rintro ⟨items, objects, hg, rfl, he⟩
    exact ⟨items, ⟨hg.producer, hg.count, hg.fits, hg.below⟩,
      forall₂_decodes_iff.mpr ⟨objects, hg.taken, he⟩, rfl⟩

end Stream

end ParticleSim
