import ParticleSim.Checkpoint.Record
import ParticleSim.Proofs.Checkpoint.Words
import Mathlib.Tactic.Tauto

/-!
# Checkpoint — Records, read back

`r.Splits data r'` says that the sections of `r` begin with what `data` writes and go on as those of
`r'`.  A read of one datum succeeds exactly on a record that splits so (`RecordReader.u64_eq_ok`,
`RecordReader.pointer_eq_ok`, …); data in a row are read one after the other
(`OpenRecord.splits_append`).

A flag may be read from more than one byte, so a record that was read need not be the one that would
be written.  But it is as long: `r.Spends data r'` compares lengths only.
-/

namespace ParticleSim

/-- The length of a datum fits its prefix. -/
def Datum.Fits : Datum → Prop
  | text s => (Text.encode s).length < UInt32.size
  | bytes b => b.length < UInt32.size
  | symbol name => ∀ s ∈ name, (Text.encode s).length < UInt32.size
  | i32s values => values.length < UInt32.size
  | _ => True

/-- `data` stands at the front of both sections of `r`, and `r'` is what follows. -/
structure OpenRecord.Splits (r : OpenRecord) (data : List Datum) (r' : OpenRecord) : Prop where
  object : r.object = r'.object
  blob : r.blob = data.flatMap Datum.blob ++ r'.blob
  fields : r.fields = data.flatMap Datum.fields ++ r'.fields

/-- From `r` to `r'`, as many bytes of either section are taken as `data` writes. -/
structure OpenRecord.Spends (r : OpenRecord) (data : List Datum) (r' : OpenRecord) : Prop where
  object : r.object = r'.object
  blob : r.blob.length = (data.flatMap Datum.blob).length + r'.blob.length
  fields : r.fields.length = (data.flatMap Datum.fields).length + r'.fields.length

namespace OpenRecord

variable {r r₁ r' : OpenRecord} {data more : List Datum}

/-! ### Splitting -/

theorem splits_nil : r.Splits [] r' ↔ r = r' := by
  constructor
  · rintro ⟨ho, hb, hf⟩
    cases r; cases r'
    simp_all
  · rintro rfl
    exact ⟨rfl, rfl, rfl⟩

theorem splits_append :
    r.Splits (data ++ more) r' ↔ ∃ r₁, r.Splits data r₁ ∧ r₁.Splits more r' := by
  constructor
  · rintro ⟨ho, hb, hf⟩
    refine ⟨⟨r.object, more.flatMap Datum.blob ++ r'.blob, more.flatMap Datum.fields ++ r'.fields⟩,
      ⟨rfl, ?_, ?_⟩, ⟨ho, rfl, rfl⟩⟩
    · rw [hb, List.flatMap_append, List.append_assoc]
    · rw [hf, List.flatMap_append, List.append_assoc]
  · rintro ⟨r₁, ⟨ho, hb, hf⟩, ⟨ho', hb', hf'⟩⟩
    refine ⟨ho.trans ho', ?_, ?_⟩
    · rw [hb, hb', List.flatMap_append, List.append_assoc]
    · rw [hf, hf', List.flatMap_append, List.append_assoc]

theorem splits_cons {d : Datum} :
    r.Splits (d :: data) r' ↔ ∃ r₁, r.Splits [d] r₁ ∧ r₁.Splits data r' := by
  rw [← List.singleton_append]
  exact splits_append

/-- A record splits into its data and nothing. -/
theorem splits_ofData (object : ObjectId) (data : List Datum) :
    ((Record.ofData data).open object).Splits data ⟨object, [], []⟩ :=
  ⟨rfl, (List.append_nil _).symm, (List.append_nil _).symm⟩

theorem Splits.spends (h : r.Splits data r') : r.Spends data r' :=
  ⟨h.object, by rw [h.blob, List.length_append], by rw [h.fields, List.length_append]⟩

theorem Spends.trans (h : r.Spends data r₁) (h' : r₁.Spends more r') :
    r.Spends (data ++ more) r' := by
  refine ⟨h.object.trans h'.object, ?_, ?_⟩
  · rw [h.blob, h'.blob, List.flatMap_append, List.length_append, Nat.add_assoc]
  · rw [h.fields, h'.fields, List.flatMap_append, List.length_append, Nat.add_assoc]

/-- One byte is as long as another. -/
theorem Spends.flag {v : UInt8} (h : r.Spends [.u8 v] r') (w : UInt8) : r.Spends [.u8 w] r' :=
  ⟨h.object, h.blob, h.fields⟩

end OpenRecord

/-! ### Lengths -/

theorem Datum.fits_of_length_fields {d : Datum} (h : d.fields.length < UInt32.size) : d.Fits := by
  cases d with
  | text s => simp only [fields, Bytes.length_sized] at h; simp only [Fits]; omega
  | bytes b => simp only [fields, Bytes.length_sized] at h; simp only [Fits]; omega
  | symbol name =>
      rintro s rfl
      simp only [fields, optional, List.length_cons, Bytes.length_sized] at h
      omega
  | i32s values =>
      have hl : (values.flatMap fun v => Bytes.ofU32 v.toUInt32).length = values.length * 4 := by
        simp [List.length_flatMap, List.map_const']
      simp only [fields, List.length_append, Bytes.length_ofU32, hl] at h
      simp only [Fits]
      omega
  | u8 _ | u32 _ | u64 _ | i64 _ | f32 _ | pointer _ => trivial

/-- Data fit their prefixes when the fields that they make up do. -/
theorem Record.fits_of_mem {data : List Datum} {d : Datum} (hd : d ∈ data)
    (h : (Record.ofData data).fields.length < UInt32.size) : d.Fits := by
  refine Datum.fits_of_length_fields (Nat.lt_of_le_of_lt ?_ h)
  have hs : d.fields.Sublist (data.flatMap Datum.fields) := by
    rw [List.flatMap_def]
    exact List.sublist_flatten_of_mem (List.mem_map_of_mem hd)
  exact hs.length_le

namespace RecordReader

variable {r r' : OpenRecord}

/-! ### Scalars -/

theorem ofBlob_eq_ok {α : Type} {read : ByteReader FormatFault α} {a : α} :
    ofBlob read r = .ok a r' ↔
      read r.blob = .ok a r'.blob ∧ r.object = r'.object ∧ r.fields = r'.fields := by
  rw [ofBlob]
  cases h : read r.blob with
  | ok b rest =>
      cases r'
      simp only [EStateM.Result.ok.injEq, OpenRecord.mk.injEq]
      tauto
  | error f rest => simp

theorem ofFields_eq_ok {α : Type} {read : ByteReader FormatFault α} {a : α} :
    ofFields read r = .ok a r' ↔
      read r.fields = .ok a r'.fields ∧ r.object = r'.object ∧ r.blob = r'.blob := by
  rw [ofFields]
  cases h : read r.fields with
  | ok b rest =>
      cases r'
      simp only [EStateM.Result.ok.injEq, OpenRecord.mk.injEq]
      tauto
  | error f rest => simp

/-- A datum of the blob stands at the front of a record whose blob begins with it. -/
theorem splits_of_blob {d : Datum} (h : d.fields = []) :
    r.Splits [d] r' ↔
      r.blob = d.blob ++ r'.blob ∧ r.object = r'.object ∧ r.fields = r'.fields := by
  constructor
  · rintro ⟨ho, hb, hf⟩
    exact ⟨by simpa using hb, ho, by simpa [h] using hf⟩
  · rintro ⟨hb, ho, hf⟩
    exact ⟨ho, by simpa using hb, by simpa [h] using hf⟩

/-- A datum of the fields stands at the front of a record whose fields begin with it. -/
theorem splits_of_fields {d : Datum} (h : d.blob = []) :
    r.Splits [d] r' ↔
      r.fields = d.fields ++ r'.fields ∧ r.object = r'.object ∧ r.blob = r'.blob := by
  constructor
  · rintro ⟨ho, hb, hf⟩
    exact ⟨by simpa using hf, ho, by simpa [h] using hb⟩
  · rintro ⟨hf, ho, hb⟩
    exact ⟨ho, by simpa [h] using hb, by simpa using hf⟩

theorem u8_eq_ok {v : UInt8} : u8 r = .ok v r' ↔ r.Splits [.u8 v] r' := by
  rw [u8, ofBlob_eq_ok, ByteReader.u8_eq_ok, splits_of_blob rfl]
  rfl

theorem u32_eq_ok {v : UInt32} : u32 r = .ok v r' ↔ r.Splits [.u32 v] r' := by
  rw [u32, ofBlob_eq_ok, ByteReader.u32_eq_ok, splits_of_blob rfl]
  rfl

theorem u64_eq_ok {v : UInt64} : u64 r = .ok v r' ↔ r.Splits [.u64 v] r' := by
  rw [u64, ofBlob_eq_ok, ByteReader.u64_eq_ok, splits_of_blob rfl]
  rfl

theorem i64_eq_ok {v : Int64} : i64 r = .ok v r' ↔ r.Splits [.i64 v] r' := by
  refine bind_eq_ok.trans ?_
  constructor
  · rintro ⟨w, r₁, hw, hv⟩
    obtain ⟨rfl, rfl⟩ := pure_eq_ok.mp hv
    have h := u64_eq_ok.mp hw
    rw [splits_of_blob rfl] at h ⊢
    simpa [Datum.blob] using h
  · intro h
    refine ⟨v.toUInt64, r', u64_eq_ok.mpr ?_, pure_eq_ok.mpr ⟨by simp, rfl⟩⟩
    rw [splits_of_blob rfl] at h ⊢
    exact h

theorem f32_eq_ok {v : Real32} : f32 r = .ok v r' ↔ r.Splits [.f32 v] r' := by
  refine bind_eq_ok.trans ?_
  constructor
  · rintro ⟨w, r₁, hw, hv⟩
    obtain ⟨rfl, rfl⟩ := pure_eq_ok.mp hv
    have h := u32_eq_ok.mp hw
    rw [splits_of_blob rfl] at h ⊢
    exact h
  · intro h
    refine ⟨v.bits, r', u32_eq_ok.mpr ?_, pure_eq_ok.mpr ⟨rfl, rfl⟩⟩
    rw [splits_of_blob rfl] at h ⊢
    exact h

/-! ### Fields -/

theorem bytes_eq_ok {b : Bytes} :
    bytes r = .ok b r' ↔ b.length < UInt32.size ∧ r.Splits [.bytes b] r' := by
  rw [bytes, ofFields_eq_ok, ByteReader.sized_eq_ok, splits_of_fields rfl, and_assoc]
  rfl

theorem text_eq_ok {s : String} :
    text r = .ok s r' ↔ (Text.encode s).length < UInt32.size ∧ r.Splits [.text s] r' := by
  rw [text, ofFields_eq_ok, ByteReader.text_eq_ok, splits_of_fields rfl, and_assoc]
  rfl

/-- A presence flag is `0` or `1`. -/
theorem present_eq_ok {b : Bool} :
    present r = .ok b r' ↔
      r.fields = (if b then 1 else 0) :: r'.fields ∧ r.object = r'.object ∧ r.blob = r'.blob := by
  rw [present, ofFields_eq_ok]
  refine and_congr_left fun _ => bind_eq_ok.trans ?_
  constructor
  · rintro ⟨flag, rest, hf, hb⟩
    obtain hf := ByteReader.u8_eq_ok.mp hf
    split at hb
    · obtain ⟨rfl, rfl⟩ := pure_eq_ok.mp hb
      exact hf
    · obtain ⟨rfl, rfl⟩ := pure_eq_ok.mp hb
      exact hf
    · exact absurd hb throw_ne_ok
  · intro h
    refine ⟨if b then 1 else 0, r'.fields, ByteReader.u8_eq_ok.mpr h, ?_⟩
    cases b <;> rfl

theorem symbol_eq_ok {name : Option String} :
    symbol r = .ok name r' ↔ (Datum.symbol name).Fits ∧ r.Splits [.symbol name] r' := by
  rw [splits_of_fields rfl]
  refine bind_eq_ok.trans ?_
  constructor
  · rintro ⟨b, r₁, hp, hn⟩
    obtain ⟨hf, ho, hb⟩ := present_eq_ok.mp hp
    cases b with
    | false =>
        obtain ⟨rfl, rfl⟩ := pure_eq_ok.mp hn
        exact ⟨by simp [Datum.Fits], hf, ho, hb⟩
    | true =>
        obtain ⟨s, r₂, hs, hn⟩ := bind_eq_ok.mp hn
        obtain ⟨rfl, rfl⟩ := pure_eq_ok.mp hn
        obtain ⟨hl, hs⟩ := text_eq_ok.mp hs
        obtain ⟨hf', ho', hb'⟩ := (splits_of_fields rfl).mp hs
        refine ⟨by simpa [Datum.Fits] using hl, ?_, ho.trans ho', hb.trans hb'⟩
        rw [hf, hf']
        rfl
  · rintro ⟨hl, hf, ho, hb⟩
    cases name with
    | none => exact ⟨false, r', present_eq_ok.mpr ⟨hf, ho, hb⟩, pure_eq_ok.mpr ⟨rfl, rfl⟩⟩
    | some s =>
        refine ⟨true, ⟨r.object, r.blob, Bytes.sized (Text.encode s) ++ r'.fields⟩,
          present_eq_ok.mpr ⟨hf, rfl, rfl⟩, bind_eq_ok.mpr ⟨s, r', ?_, pure_eq_ok.mpr ⟨rfl, rfl⟩⟩⟩
        exact text_eq_ok.mpr ⟨hl s rfl, (splits_of_fields rfl).mpr ⟨rfl, ho, hb⟩⟩

theorem pointer_eq_ok {target : Option ObjectId} :
    pointer r = .ok target r' ↔ r.Splits [.pointer target] r' := by
  rw [splits_of_fields rfl]
  refine bind_eq_ok.trans ?_
  constructor
  · rintro ⟨b, r₁, hp, hn⟩
    obtain ⟨hf, ho, hb⟩ := present_eq_ok.mp hp
    cases b with
    | false =>
        obtain ⟨rfl, rfl⟩ := pure_eq_ok.mp hn
        exact ⟨hf, ho, hb⟩
    | true =>
        obtain ⟨v, r₂, hv, hn⟩ := bind_eq_ok.mp hn
        obtain ⟨rfl, rfl⟩ := pure_eq_ok.mp hn
        obtain ⟨hv, ho', hb'⟩ := ofFields_eq_ok.mp hv
        refine ⟨?_, ho.trans ho', hb.trans hb'⟩
        rw [hf, ByteReader.u64_eq_ok.mp hv]
        rfl
  · rintro ⟨hf, ho, hb⟩
    cases target with
    | none => exact ⟨false, r', present_eq_ok.mpr ⟨hf, ho, hb⟩, pure_eq_ok.mpr ⟨rfl, rfl⟩⟩
    | some id =>
        refine ⟨true, ⟨r.object, r.blob, Bytes.ofU64 id.val ++ r'.fields⟩,
          present_eq_ok.mpr ⟨hf, rfl, rfl⟩, bind_eq_ok.mpr ⟨id.val, r', ?_, pure_eq_ok.mpr ⟨rfl, rfl⟩⟩⟩
        exact ofFields_eq_ok.mpr ⟨ByteReader.u64_eq_ok.mpr rfl, ho, hb⟩

/-! ### Repetition -/

/-- Reading `n` times is reading along any relation that takes one more read for each further
element. -/
theorem times_eq_ok {σ ε α : Type} {read : EStateM ε σ α} {R : List α → σ → σ → Prop}
    (nil : ∀ s s', R [] s s' ↔ s = s')
    (cons : ∀ a as s s', R (a :: as) s s' ↔ ∃ s₁, read s = .ok a s₁ ∧ R as s₁ s')
    {n : Nat} {as : List α} {s s' : σ} :
    times n read s = .ok as s' ↔ as.length = n ∧ R as s s' := by
  induction n generalizing as s with
  | zero =>
      refine pure_eq_ok.trans ?_
      constructor
      · rintro ⟨rfl, rfl⟩
        exact ⟨rfl, (nil s s).mpr rfl⟩
      · rintro ⟨hl, hR⟩
        obtain rfl := List.length_eq_zero_iff.mp hl
        exact ⟨rfl, (nil s s').mp hR⟩
  | succ n ih =>
      refine bind_eq_ok.trans ?_
      constructor
      · rintro ⟨a, s₁, ha, h⟩
        obtain ⟨as, s₂, has, h⟩ := bind_eq_ok.mp h
        obtain ⟨rfl, rfl⟩ := pure_eq_ok.mp h
        obtain ⟨hl, hR⟩ := ih.mp has
        exact ⟨by rw [List.length_cons, hl], (cons a as s s₂).mpr ⟨s₁, ha, hR⟩⟩
      · rintro ⟨hl, hR⟩
        cases as with
        | nil => cases hl
        | cons a as =>
            obtain ⟨s₁, ha, hR⟩ := (cons a as s s').mp hR
            exact ⟨a, s₁, ha, bind_eq_ok.mpr ⟨as, s', ih.mpr ⟨Nat.succ.inj hl, hR⟩,
              pure_eq_ok.mpr ⟨rfl, rfl⟩⟩⟩

/-- Repeating a reader of data that always fit. -/
theorem times_splits {α : Type} {read : RecordReader α} {P : α → Prop} {write : α → List Datum}
    (h : ∀ a r r', read r = .ok a r' ↔ P a ∧ r.Splits (write a) r') {n : Nat} {as : List α} :
    times n read r = .ok as r' ↔ as.length = n ∧ (∀ a ∈ as, P a) ∧ r.Splits (as.flatMap write) r' := by
  refine times_eq_ok
    (R := fun as (r r' : OpenRecord) => (∀ a ∈ as, P a) ∧ r.Splits (as.flatMap write) r') ?_ ?_
  · intro s s'
    simp [OpenRecord.splits_nil]
  · intro a as s s'
    simp only [List.flatMap_cons, OpenRecord.splits_append, h, List.forall_mem_cons]
    constructor
    · rintro ⟨⟨ha, has⟩, s₁, hs, hs'⟩
      exact ⟨s₁, ⟨ha, hs⟩, has, hs'⟩
    · rintro ⟨s₁, ⟨ha, hs⟩, has, hs'⟩
      exact ⟨⟨ha, has⟩, s₁, hs, hs'⟩

/-- The words of a buffer, one after the other. -/
theorem times_i32_eq_ok {n : Nat} {values : List Int32} {input rest : Bytes} :
    times n (return (← ByteReader.u32).toInt32 : ByteReader FormatFault Int32) input =
        .ok values rest ↔
      values.length = n ∧ input = (values.flatMap fun v => Bytes.ofU32 v.toUInt32) ++ rest := by
  refine times_eq_ok
    (R := fun (values : List Int32) input rest =>
      input = (values.flatMap fun v => Bytes.ofU32 v.toUInt32) ++ rest) (fun _ _ => by simp) ?_
  intro v values input rest
  constructor
  · rintro rfl
    exact ⟨_, bind_eq_ok.mpr ⟨v.toUInt32, _, ByteReader.u32_eq_ok.mpr
      (by rw [List.flatMap_cons, List.append_assoc]), pure_eq_ok.mpr ⟨by simp, rfl⟩⟩, rfl⟩
  · rintro ⟨input', h, rfl⟩
    obtain ⟨w, input', hw, h⟩ := bind_eq_ok.mp h
    obtain ⟨rfl, rfl⟩ := pure_eq_ok.mp h
    rw [ByteReader.u32_eq_ok.mp hw]
    simp

theorem i32s_eq_ok {values : List Int32} :
    i32s r = .ok values r' ↔ values.length < UInt32.size ∧ r.Splits [.i32s values] r' := by
  rw [i32s, ofFields_eq_ok, splits_of_fields rfl]
  refine (and_congr_left fun _ => bind_eq_ok.trans ?_).trans and_assoc
  constructor
  · rintro ⟨n, rest, hn, h⟩
    obtain ⟨rest', rest'', hg, h⟩ := bind_eq_ok.mp h
    cases hg
    split at h
    · obtain ⟨-, -, h, -⟩ := bind_eq_ok.mp h
      exact absurd h throw_ne_ok
    · obtain ⟨hl, hv⟩ := times_i32_eq_ok.mp h
      have hw : UInt32.ofNat values.length = n := by rw [hl, UInt32.ofNat_toNat]
      refine ⟨hl ▸ n.toNat_lt, ?_⟩
      rw [ByteReader.u32_eq_ok.mp hn, hv, Datum.fields, hw, List.append_assoc]
  · rintro ⟨hl, h⟩
    have hn : (UInt32.ofNat values.length).toNat = values.length := UInt32.toNat_ofNat_of_lt' hl
    refine ⟨.ofNat values.length, (values.flatMap fun v => Bytes.ofU32 v.toUInt32) ++ r'.fields,
      ByteReader.u32_eq_ok.mpr (by rw [h, Datum.fields, List.append_assoc]), ?_⟩
    refine bind_eq_ok.mpr ⟨_, _, rfl, ?_⟩
    rw [if_neg]
    · exact times_i32_eq_ok.mpr ⟨hn.symm, rfl⟩
    · have hlen : (values.flatMap fun v => Bytes.ofU32 v.toUInt32).length = values.length * 4 := by
        simp [List.length_flatMap, List.map_const']
      rw [List.length_append, hlen, hn]
      omega

/-! ### The end of a record -/

theorem finish_eq_ok : finish r = .ok () r' ↔ r.blob = [] ∧ r.fields = [] ∧ r = r' := by
  refine bind_eq_ok.trans ?_
  constructor
  · rintro ⟨r₁, r₂, hg, h⟩
    cases hg
    split at h
    · next he =>
      simp only [Bool.and_eq_true, List.isEmpty_iff] at he
      exact ⟨he.1, he.2, (pure_eq_ok.mp h).2⟩
    · exact absurd h throw_ne_ok
  · rintro ⟨hb, hf, rfl⟩
    refine ⟨r, r, rfl, ?_⟩
    simp [hb, hf]

end RecordReader

end ParticleSim
