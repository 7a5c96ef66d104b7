import ParticleSim.Proofs.Checkpoint.Replay

/-!
# Checkpoint — Reads in another order

The two sections of a record do not know of each other, so a reader may take the data in another
order than they were written in, as long as it keeps to the order within each section.  A
`Schedule` is such a reader, one read at a time: each takes the first datum of its section that is
still there (`Datum.First`), and the schedule may stop anywhere.

* `exists_schedule_iff`: the schedules are the lists of reads that keep the written order among the
  scalars and among the others.
* `Schedule.splits`: after a schedule the record is that of the data it has left.
* `RecordReader.scheduled_reads`: every read of a schedule returns what was written; the record is
  finished exactly if nothing is left; and a section that is used up refuses every further read.

A record is known to be used up because no datum is written as nothing
(`Datum.blob_eq_nil_iff`, `Datum.fields_eq_nil_iff`): an empty text has its length, an absent name
its flag.
-/

namespace ParticleSim

/-- The kind is read from the blob. -/
def DatumKind.isScalar : DatumKind → Bool
  | u8 | u32 | u64 | i64 | f32 => true
  | text | bytes | symbol | pointer | i32s => false

/-- The datum is written to the blob. -/
def Datum.isScalar (d : Datum) : Bool := d.kind.isScalar

/-- `d` is the first datum of its section, and `rest` are the data without it. -/
inductive Datum.First (d : Datum) : List Datum → List Datum → Prop where
  | here (rest : List Datum) : First d (d :: rest) rest
  | past {e : Datum} {data rest : List Datum} (other : e.isScalar ≠ d.isScalar)
      (first : First d data rest) : First d (e :: data) (e :: rest)

/-- `Schedule data reads left`: the reads take one datum after the other, each the first of its
section, and stop with `left` still to be read. -/
inductive Schedule : List Datum → List Datum → List Datum → Prop where
  | stop (data : List Datum) : Schedule data [] data
  | read {d : Datum} {data rest reads left : List Datum} (first : d.First data rest)
      (later : Schedule rest reads left) : Schedule data (d :: reads) left

variable {d : Datum} {data rest reads left : List Datum}

namespace Datum

/-! ### What a datum writes -/

/-- The scalars are what is written to the blob, and each of them writes something. -/
theorem blob_eq_nil_iff : d.blob = [] ↔ d.isScalar = false := by
  cases d <;> simp [blob, isScalar, kind, DatumKind.isScalar, Bytes.ofU32, Bytes.ofU64, Bytes.ofNat]

/-- Everything else is written to the fields, and each of it writes something. -/
theorem fields_eq_nil_iff : d.fields = [] ↔ d.isScalar = true := by
  cases d with
  | symbol name | pointer target => cases ‹Option _› <;>
      simp [fields, optional, isScalar, kind, DatumKind.isScalar]
  | u8 _ | u32 _ | u64 _ | i64 _ | f32 _ | text _ | bytes _ | i32s _ =>
      simp [fields, isScalar, kind, DatumKind.isScalar, Bytes.sized, Bytes.ofU32, Bytes.ofNat]

/-! ### The first datum of a section -/

theorem First.perm (h : d.First data rest) : (d :: rest).Perm data := by
  induction h with
  | here rest => exact .refl _
  | past _ _ ih => exact (List.Perm.swap _ _ _).trans (ih.cons _)

/-- The first datum of its section leads the data of that section and is none of the other's. -/
theorem First.filter (h : d.First data rest) (b : Bool) :
    data.filter (·.isScalar == b) =
      (if d.isScalar == b then [d] else []) ++ rest.filter (·.isScalar == b) := by
  induction h with
  | here rest => split <;> simp_all
  | @past e data rest other _ ih =>
      rw [List.filter_cons, List.filter_cons, ih]
      split <;> split <;> simp_all

/-- A datum that leads the data of its section is the first of them. -/
theorem exists_first {more : List Datum}
    (h : data.filter (·.isScalar == d.isScalar) = d :: more) : ∃ rest, d.First data rest := by
  induction data with
  | nil => cases h
  | cons e data ih =>
      by_cases hsame : e.isScalar = d.isScalar
      · obtain ⟨rfl, -⟩ : e = d ∧ data.filter (·.isScalar == d.isScalar) = more := by
          simpa [hsame] using h
        exact ⟨data, .here data⟩
      · obtain ⟨rest, hrest⟩ := ih (by simpa [hsame] using h)
        exact ⟨e :: rest, .past hsame hrest⟩

/-- A section that takes nothing from one of two data of different sections has what the first datum
writes in front of what the others write. -/
theorem First.flatMap {write : Datum → Bytes} (h : d.First data rest)
    (alone : ∀ e : Datum, e.isScalar ≠ d.isScalar → write e = [] ∨ write d = []) :
    data.flatMap write = write d ++ rest.flatMap write := by
  induction h with
  | here rest => rfl
  | @past e data rest other _ ih =>
      rw [List.flatMap_cons, List.flatMap_cons, ih]
      rcases alone e other with he | hd
      · simp [he]
      · simp [hd]

/-- **One read**: the first datum of its section stands at the front of the record, and behind it
is the record of the data without it. -/
theorem First.splits (h : d.First data rest) (id : ObjectId) :
    ((Record.ofData data).open id).Splits [d] ((Record.ofData rest).open id) := by
  refine ⟨rfl, ?_, ?_⟩
  · rw [List.flatMap_singleton]
    refine h.flatMap fun e other => ?_
    rw [blob_eq_nil_iff, blob_eq_nil_iff]
    cases he : e.isScalar <;> simp_all
  · rw [List.flatMap_singleton]
    refine h.flatMap fun e other => ?_
    rw [fields_eq_nil_iff, fields_eq_nil_iff]
    cases he : e.isScalar <;> simp_all

end Datum

/-! ### Schedules -/

/-- What was read and what is left are together what was written. -/
theorem Schedule.perm (h : Schedule data reads left) : (reads ++ left).Perm data := by
  induction h with
  | stop data => exact .refl _
  | read first _ ih => exact (ih.cons _).trans first.perm

/-- **A schedule keeps the order of either section**, and every way to do so is a schedule. -/
theorem exists_schedule_iff :
    (∃ left, Schedule data reads left) ↔
      ∀ b, reads.filter (·.isScalar == b) <+: data.filter (·.isScalar == b) := by
  constructor
  · rintro ⟨left, h⟩ b
    induction h with
    | stop data => exact List.nil_prefix
    | @read d data rest reads left first _ ih =>
        rw [first.filter b, List.filter_cons]
        split
        · exact (List.prefix_cons_inj d).mpr ih
        · exact ih
  · intro h
    induction reads generalizing data with
    | nil => exact ⟨data, .stop data⟩
    | cons d reads ih =>
        obtain ⟨more, hmore⟩ := h d.isScalar
        obtain ⟨rest, first⟩ : ∃ rest, d.First data rest :=
          Datum.exists_first (by rw [← hmore, List.filter_cons_of_pos (by simp)]; rfl)
        have hrest : ∀ b, reads.filter (·.isScalar == b) <+: rest.filter (·.isScalar == b) := by
          intro b
          have hb := h b
          rw [first.filter b, List.filter_cons] at hb
          split at hb
          · exact (List.prefix_cons_inj d).mp hb
          · exact hb
        obtain ⟨left, later⟩ := ih hrest
        exact ⟨left, .read first later⟩

/-- **A schedule of reads**: what it reads stands at the front of the record, and behind it is the
record of what it leaves. -/
theorem Schedule.splits (h : Schedule data reads left) (id : ObjectId) :
    ((Record.ofData data).open id).Splits reads ((Record.ofData left).open id) := by
  induction h with
  | stop data => exact OpenRecord.splits_nil.mpr rfl
  | read first _ ih => exact OpenRecord.splits_cons.mpr ⟨_, first.splits id, ih⟩

namespace RecordReader

/-! ### Reading a schedule -/

/-- A reader that replays the reads of a schedule reads them, whatever order they were written in,
and leaves the record of the rest. -/
theorem Replays.eq_ok_of_schedule {α : Type} {m : RecordReader α} {id : ObjectId} {a : α}
    (hm : Replays id m reads a) (h : Schedule data reads left) (fits : ∀ d ∈ data, d.Fits) :
    m ((Record.ofData data).open id) = .ok a ((Record.ofData left).open id) :=
  hm.eq_ok rfl (fun d hd => fits d (h.perm.subset (List.mem_append_left left hd))) (h.splits id)

/-- A record is finished exactly if all its data have been read. -/
theorem finish_ofData_iff {id : ObjectId} :
    (∃ r, finish ((Record.ofData left).open id) = .ok () r) ↔ left = [] := by
  constructor
  · rintro ⟨r, h⟩
    obtain ⟨hb, hf, -⟩ := finish_eq_ok.mp h
    refine List.eq_nil_iff_forall_not_mem.mpr fun d hd => ?_
    have hblob := Datum.blob_eq_nil_iff.mp (List.flatMap_eq_nil_iff.mp hb d hd)
    have hfields := Datum.fields_eq_nil_iff.mp (List.flatMap_eq_nil_iff.mp hf d hd)
    rw [hblob] at hfields
    cases hfields
  · rintro rfl
    exact ⟨_, finish_eq_ok.mpr ⟨rfl, rfl, rfl⟩⟩

/-- A section that is used up refuses every read, names the object, and stays as it is. -/
theorem datum_of_used_up {kind : DatumKind} {id : ObjectId}
    (h : ∀ d ∈ left, d.isScalar ≠ kind.isScalar) :
    datum kind ((Record.ofData left).open id) =
      .error (.streamFormat (.inRecord id .truncated)) ((Record.ofData left).open id) := by
  have hblob (hk : kind.isScalar = true) : left.flatMap Datum.blob = [] :=
    List.flatMap_eq_nil_iff.mpr fun d hd =>
      Datum.blob_eq_nil_iff.mpr (by simpa [hk] using h d hd)
  have hfields (hk : kind.isScalar = false) : left.flatMap Datum.fields = [] :=
    List.flatMap_eq_nil_iff.mpr fun d hd =>
      Datum.fields_eq_nil_iff.mpr (by simpa [hk] using h d hd)
  rw [Record.open, Record.ofData]
  cases kind with
  | u8 | u32 | u64 | i64 | f32 =>
      rw [hblob rfl]
      rfl
  | text | bytes | symbol | pointer | i32s =>
      rw [hfields rfl]
      rfl

/-- **The sections of a record are independent and fully checked.**  Of data whose lengths fit their
prefixes, let a reader ask in any order that is the written one among the scalars and among the
others, and stop where it likes.  Then every read returns the very datum that was written; the
record is finished exactly if nothing is left to be read; and a read from a section of which nothing
is left fails with a fault that names the object. -/
theorem scheduled_reads (id : ObjectId) (fits : ∀ d ∈ data, d.Fits)
    (order : ∀ b, reads.filter (·.isScalar == b) <+: data.filter (·.isScalar == b)) :
    ∃ left, (reads ++ left).Perm data ∧
      RecordReader.data (reads.map Datum.kind) ((Record.ofData data).open id) =
        .ok reads ((Record.ofData left).open id) ∧
      (left = [] ↔ reads.Perm data) ∧
      ((∃ r, finish ((Record.ofData left).open id) = .ok () r) ↔ left = []) ∧
      ∀ kind : DatumKind, (∀ d ∈ left, d.isScalar ≠ kind.isScalar) →
        datum kind ((Record.ofData left).open id) =
          .error (.streamFormat (.inRecord id .truncated)) ((Record.ofData left).open id) := by
  obtain ⟨left, h⟩ := exists_schedule_iff.mpr order
  have hall : left = [] ↔ reads.Perm data := by
    constructor
    · rintro rfl
      simpa using h.perm
    · intro hp
      have hl := h.perm.length_eq.trans hp.length_eq.symm
      simpa using hl
  exact ⟨left, h.perm, (data_replays reads).eq_ok_of_schedule h fits, hall, finish_ofData_iff,
    fun kind hused => datum_of_used_up hused⟩

/-- Scalars and fields in turn: a word that is not a number, absent names and references, an empty
buffer. -/
def sampleWritten : List Datum :=
  [.u8 7, .text "north", .f32 ⟨0x7FC00001⟩, .symbol none, .pointer none, .i64 (-5), .bytes []]

/-- Fields first, then the scalars, with the last field never asked for. -/
def sampleReads : List Datum :=
  [.text "north", .symbol none, .u8 7, .f32 ⟨0x7FC00001⟩, .pointer none, .i64 (-5)]

theorem scheduled_reads_sample :
    (∀ d ∈ sampleWritten, d.Fits) ∧
    (∀ b, sampleReads.filter (·.isScalar == b) <+: sampleWritten.filter (·.isScalar == b)) ∧
    ∃ left, (sampleReads ++ left).Perm sampleWritten ∧
      RecordReader.data (sampleReads.map Datum.kind) ((Record.ofData sampleWritten).open ⟨5⟩) =
        .ok sampleReads ((Record.ofData left).open ⟨5⟩) ∧
      ¬ ∃ r, finish ((Record.ofData left).open ⟨5⟩) = .ok () r := by
  have fits : ∀ d ∈ sampleWritten, d.Fits := by
    have hlength : (Text.encode "north").length < UInt32.size := by decide +kernel
    simpa [sampleWritten, Datum.Fits, UInt32.size] using hlength
  have order : ∀ b, sampleReads.filter (·.isScalar == b) <+:
      sampleWritten.filter (·.isScalar == b) := by decide
  obtain ⟨left, hperm, hread, hall, hfinish, -⟩ := scheduled_reads ⟨5⟩ fits order
  refine ⟨fits, order, left, hperm, hread, fun h => ?_⟩
  have hlength := (hall.mp (hfinish.mp h)).length_eq
  exact absurd hlength (by decide)

end RecordReader

end ParticleSim
