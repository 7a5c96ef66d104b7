import ParticleSim.Proofs.FileSystem.Places
import ParticleSim.Proofs.Restore.Acceptance
import ParticleSim.Proofs.Restore.RoundTrip
import ParticleSim.Proofs.Simulation.Conserved

/-!
# Host — Commits

A checkpoint to a path is written beside the path and takes its name when it is complete.  So what
has the name is the complete stream of this checkpoint, or what was there before.  What is beside
the path is cleaned up after every failure but one: when a directory has the name, the stream cannot
take it, and stays where it was written (`Host.checkpointToPath_atomic`,
`Host.checkpointToPath_leftover`).
-/

namespace ParticleSim

variable {σ : Type} {p : Host} {s : Simulation} {path : String} {pickle : ControlM σ Bytes}
  {layer : σ} {files : FileSystem}

/-! ### Complete streams -/

/-- A simulation is written as a stream of one record for each of its objects, and nothing else. -/
theorem Stream.read_of_write (hs : s.Sound) (hb : s.Furnished) {origin : Origin} {bytes : Bytes}
    (hw : write origin s.registry s.store = .put bytes) :
    ∃ h st, read (Staged.decoders s.behaviors) bytes = .ok (h, st) [] ∧
      h.count.toNat = s.registry.size ∧ st.ids.length = s.registry.size := by
  obtain ⟨parts, hp⟩ := hs.exists_ordered
  have hbound := (Simulation.exists_revived_iff s s.behaviors fun F => (s.list F).place).mp
    ⟨_, s.revived_moved rfl hb fun F => (s.list F).place, fun F => by cases F <;> rfl⟩
  obtain ⟨st, hst⟩ := hs.exists_slotted hp (Simulation.rebound_parts_iff.mpr hbound)
  obtain ⟨rest, hr⟩ := (Stream.read_written hs hp hw []).mpr ⟨rfl, hst⟩
  -- nothing is left behind the stream, because it is spelled in one way only
  obtain ⟨items, hwf, hd, hspell⟩ := read_eq_ok.mp hr
  obtain ⟨hproducer, hparts, rfl⟩ := (hs.write_eq_put hp).mp hw
  obtain ⟨-, rfl⟩ := spell_inj (hs.wellformed hp hparts hproducer).framed hwf.framed hspell
  obtain rfl := List.append_cancel_left hspell
  rw [List.append_nil] at hr
  refine ⟨_, st, hr, UInt64.toNat_ofNat_of_lt' hs.size_lt, ?_⟩
  rw [Staging.ids_of_slotted hst, List.length_map, Registry.size, OrderedMap.size, hp.entries,
    List.length_map]

namespace Host

/-! ### Files within a session -/

/-- A callback leaves alone what is at a path and what is beside it. -/
def Spares (pickle : ControlM σ Bytes) (path : String) : Prop :=
  ∀ state : Host × σ, ∀ path' ∈ [path, partialPath path],
    (pickle.leaves state).1.files.stat path' = state.1.files.stat path'

theorem Spares.writeCheckpoint (h : Spares pickle path) (p : Host) (s : Simulation)
    (capacity : Option Nat) (layer : σ) {path' : String} (hp : path' ∈ [path, partialPath path]) :
    (p.writeCheckpoint s capacity pickle layer).host.files.stat path' = p.files.stat path' := by
  have hleaves := congrArg Prod.fst (writeCheckpoint_leaves p s capacity pickle layer)
  exact (congrArg (fun q : Host => q.files.stat path') hleaves).trans (h (p, layer) path' hp)

/-- What can be read at a path is settled by what stands there. -/
theorem read_congr {files' : FileSystem} {path' : String} {content : Bytes}
    (h : files'.stat path' = files.stat path') (hr : files.read path' = .ok content) :
    files'.read path' = .ok content := by
  rw [FileSystem.read_eq_ok, h]
  exact FileSystem.read_eq_ok.mp hr

/-- When the stream cannot be created there is nothing to clean up. -/
theorem writeFile_of_create_error (s : Simulation) (pickle : ControlM σ Bytes) (layer : σ)
    {fault : IoFault} (h : p.files.create (partialPath path) = .error fault) :
    p.writeFile s path pickle layer = ⟨.error (.io fault), s, [], p, layer⟩ ∧
      ¬ ∃ content, p.files.read (partialPath path) = .ok content := by
  have hnone : ¬ ∃ place name content, p.files.stat (partialPath path) =
      .ok (.entry place name false, some (.file content)) := by
    rintro ⟨place, name, content, hs⟩
    rw [FileSystem.create_eq_ok.mpr ⟨place, name, _, hs, FileSystem.file_ne_directory, rfl⟩] at h
    cases h
  refine ⟨?_, ?_⟩
  · rw [writeFile, h, discardFile]
    cases hr : p.files.remove (partialPath path) with
    | error fault' => rfl
    | ok files =>
        obtain ⟨place, name, content, hs, -⟩ := FileSystem.remove_eq_ok.mp hr
        exact absurd ⟨place, name, content, hs⟩ hnone
  · rintro ⟨content, hr⟩
    obtain ⟨place, name, hs⟩ := FileSystem.read_eq_ok.mp hr
    exact hnone ⟨place, name, content, hs⟩

/-- A file that is there is deleted. -/
theorem discardFile_partial {content : Bytes} (h : p.files.read (partialPath path) = .ok content) :
    (p.discardFile (partialPath path)).files.read (partialPath path) = .error .noSuchFile ∧
      (p.discardFile (partialPath path)).files.stat path = p.files.stat path := by
  obtain ⟨place, name, hs⟩ := FileSystem.read_eq_ok.mp h
  have hr := FileSystem.remove_eq_ok.mpr ⟨place, name, content, hs, rfl⟩
  rw [discardFile, hr]
  exact FileSystem.read_of_remove hr

section Created

variable (hp : Spares pickle path) (hc : p.files.create (partialPath path) = .ok files)
include hp hc

/-- After the callback the stream is still empty, and what is at the path is the same. -/
theorem files_of_create (s : Simulation) (layer : σ) :
    ({ p with files }.writeCheckpoint s none pickle layer).host.files.read (partialPath path) =
        .ok [] ∧
      ({ p with files }.writeCheckpoint s none pickle layer).host.files.stat path =
        p.files.stat path := by
  obtain ⟨hread, hstat⟩ := FileSystem.read_of_create hc
  exact ⟨read_congr (hp.writeCheckpoint { p with files } s none layer (by simp)) hread,
    (hp.writeCheckpoint { p with files } s none layer (by simp)).trans hstat⟩

/-- When the stream is written it is beside the path. -/
theorem files_of_write (s : Simulation) (layer : σ)
    {c : Checkpointed σ} (h : { p with files }.writeCheckpoint s none pickle layer = c) :
    (c.host.files.write (partialPath path) c.output).read (partialPath path) = .ok c.output ∧
      (c.host.files.write (partialPath path) c.output).stat path = p.files.stat path := by
  obtain ⟨hread, hstat⟩ := files_of_create hp hc s layer
  rw [h] at hread hstat
  obtain ⟨hread', hstat'⟩ := FileSystem.read_write hread c.output
  exact ⟨hread', hstat'.trans hstat⟩

/-- A stream that is not complete is deleted. -/
theorem writeFile_of_failure {e : CheckpointError}
    (h : ({ p with files }.writeCheckpoint s none pickle layer).result = .error e) :
    (p.writeFile s path pickle layer).result = .error e ∧
      (p.writeFile s path pickle layer).host.files.read (partialPath path) = .error .noSuchFile ∧
      (p.writeFile s path pickle layer).host.files.stat path = p.files.stat path := by
  obtain ⟨hread, hstat⟩ := files_of_create hp hc s layer
  obtain ⟨hread', hstat'⟩ := discardFile_partial hread
  rw [writeFile, hc]
  simp only [h]
  exact ⟨trivial, hread', hstat'.trans hstat⟩

/-- A complete stream stays where it is when a directory has the name. -/
theorem writeFile_of_directory {n : UInt64}
    (h : ({ p with files }.writeCheckpoint s none pickle layer).result = .ok n)
    (hd : ∃ t, p.files.stat path = .ok (t, some .directory)) :
    (∃ fault, (p.writeFile s path pickle layer).result = .error (.io fault)) ∧
      (p.writeFile s path pickle layer).host.files.read (partialPath path) =
        .ok ({ p with files }.writeCheckpoint s none pickle layer).output ∧
      (p.writeFile s path pickle layer).host.files.stat path = p.files.stat path := by
  obtain ⟨hread, hstat⟩ := files_of_write hp hc s layer rfl
  rw [writeFile, hc]
  simp only [h]
  generalize ({ p with files }.writeCheckpoint s none pickle layer).host.files.write _ _ = files₁
    at hread hstat ⊢
  cases hr : files₁.rename (partialPath path) path with
  | ok files₂ =>
      exact absurd (hstat ▸ hd) ((FileSystem.exists_rename_iff hread).mp ⟨files₂, hr⟩)
  | error fault => exact ⟨⟨fault, rfl⟩, hread, hstat⟩

/-- Otherwise it takes the name. -/
theorem writeFile_of_file {n : UInt64}
    (h : ({ p with files }.writeCheckpoint s none pickle layer).result = .ok n)
    (hd : ¬ ∃ t, p.files.stat path = .ok (t, some .directory)) :
    ∃ files', p.writeFile s path pickle layer =
        { { p with files }.writeCheckpoint s none pickle layer with
          host := { ({ p with files }.writeCheckpoint s none pickle layer).host with
            files := files' } } ∧
      files'.read path = .ok ({ p with files }.writeCheckpoint s none pickle layer).output ∧
      files'.read (partialPath path) = .error .noSuchFile := by
  obtain ⟨hread, hstat⟩ := files_of_write hp hc s layer rfl
  rw [← hstat] at hd
  obtain ⟨files', hr⟩ := (FileSystem.exists_rename_iff hread).mpr hd
  refine ⟨files', ?_, FileSystem.read_of_rename hread hr⟩
  rw [writeFile, hc]
  simp only [h, hr]

end Created

/-! ### Commits -/

/-- A checkpoint has left a file of all its records at a path, which the tables of the simulation
and the same rank take back, and nothing beside it. -/
structure Checkpointed.Committed (c : Checkpointed σ) (path : String) (n : UInt64) : Prop where
  content : c.host.files.read path = .ok c.output
  beside : c.host.files.read (partialPath path) = .error .noSuchFile
  /-- The content is a stream of `n` records to the last byte. -/
  complete : ∃ h st,
    Stream.read (Staged.decoders c.simulation.behaviors) c.output = .ok (h, st) [] ∧
      h.count = n ∧ st.ids.length = n.toNat
  /-- As far as the other ranks and the control layer let it, a restore succeeds with the simulation
  that was written, in lists of its own. -/
  restores : ∀ {σ' τ : Type} (q : Host) (unpickle : Bytes → ControlM σ' τ) (layer' : σ'),
    q.files = c.host.files → q.services.phase = .idle →
    q.services.comm.rank = c.host.services.comm.rank →
    q.services.comm.world = c.host.services.comm.world →
    (∀ round, q.services.comm.answer round true = .ok true) →
    (∀ control state, ∃ a state', unpickle control state = .ok a state') →
    ∃ a, (q.restoreFromPath path c.simulation.behaviors unpickle layer').result =
      .ok (c.simulation.moved q.supply.place, a)

/-- What was written within a session is committed where its bytes are. -/
theorem committed_of_writeCheckpoint (hs : s.Reached) {n : UInt64} {s' : Simulation}
    {output : Bytes} {q r : Host} {layer' : σ}
    (h : p.writeCheckpoint s none pickle layer = ⟨.ok n, s', output, q, layer'⟩)
    (hcomm : r.services.comm = q.services.comm) (content : r.files.read path = .ok output)
    (beside : r.files.read (partialPath path) = .error .noSuchFile) :
    Checkpointed.Committed ⟨.ok n, s', output, r, layer'⟩ path n := by
  obtain ⟨control, -, rfl, -, hw, rfl⟩ := writeCheckpoint_eq_ok.mp h
  have hw := Emission.eq_put_of_within hw
  have hsound : ({ s with control } : Simulation).Sound :=
    hs.sound.retuned (s.withControl_retuned control)
  have hbound := hs.furnished.withControl control
  obtain ⟨header, st, hread, hcount, hids⟩ := Stream.read_of_write hsound hbound hw
  have hsize : (UInt64.ofNat s.registry.size).toNat = s.registry.size :=
    UInt64.toNat_ofNat_of_lt' hsound.size_lt
  refine ⟨content, beside, ⟨header, st, hread, UInt64.toNat.inj (hcount.trans hsize.symm),
    hids.trans hsize.symm⟩, fun q' unpickle layer' hf hidle hrank hworld hpeers hunpickle => ?_⟩
  have hinput : q'.fileInput path = .ok (output ++ []) := by
    rw [fileInput, hf, content, List.append_nil]
  rw [restoreFromPath, hinput]
  refine restore_bound hsound hbound hw ?_ ?_ hidle hpeers [] hunpickle
  · exact (congrArg Communicator.rank hcomm).symm.trans hrank.symm
  · exact (congrArg Communicator.world hcomm).symm.trans hworld.symm

/-- Within a session a checkpoint to a path commits all of the stream, or nothing: a file is left
beside the path when the stream is complete and the path is a directory's, and only then. -/
theorem writeFile_atomic (hs : s.Reached) (hp : Spares pickle path) (p : Host) (layer : σ) :
    (∀ n, (p.writeFile s path pickle layer).result = .ok n →
      (p.writeFile s path pickle layer).Committed path n) ∧
    ∀ e, (p.writeFile s path pickle layer).result = .error e →
      (p.writeFile s path pickle layer).host.files.stat path = p.files.stat path ∧
      ((∃ content, (p.writeFile s path pickle layer).host.files.read (partialPath path) =
          .ok content) ↔
        (∃ t, p.files.stat path = .ok (t, some .directory)) ∧
          ∃ files n, p.files.create (partialPath path) = .ok files ∧
            ({ p with files }.writeCheckpoint s none pickle layer).result = .ok n) := by
  cases hc : p.files.create (partialPath path) with
  | error fault =>
      obtain ⟨hw, hnone⟩ := writeFile_of_create_error s pickle layer hc
      rw [hw]
      refine ⟨fun _ h => (by cases h), fun e _ => ⟨rfl, iff_of_false hnone ?_⟩⟩
      rintro ⟨-, _, _, h, -⟩
      cases h
  | ok files =>
  cases hr : ({ p with files }.writeCheckpoint s none pickle layer).result with
  | error e =>
      obtain ⟨hresult, hbeside, hpath⟩ := writeFile_of_failure hp hc hr
      rw [hresult]
      refine ⟨fun _ h => (by cases h), fun e' _ => ⟨hpath, iff_of_false ?_ ?_⟩⟩
      · rintro ⟨content, h⟩
        rw [hbeside] at h
        cases h
      · rintro ⟨-, _, n, ⟨⟩, h⟩
        rw [hr] at h
        cases h
  | ok n =>
  by_cases hd : ∃ t, p.files.stat path = .ok (t, some .directory)
  · obtain ⟨⟨fault, hresult⟩, hread, hpath⟩ := writeFile_of_directory hp hc hr hd
    rw [hresult]
    exact ⟨fun _ h => (by cases h),
      fun e' _ => ⟨hpath, iff_of_true ⟨_, hread⟩ ⟨hd, files, n, rfl, hr⟩⟩⟩
  · obtain ⟨files', hw, hread, hbeside⟩ := writeFile_of_file hp hc hr hd
    rw [hw]
    refine ⟨fun n' h => ?_, fun e h => by cases hr.symm.trans h⟩
    obtain rfl : n = n' := Except.ok.inj (hr.symm.trans h)
    generalize hw' : ({ p with files } : Host).writeCheckpoint s none pickle layer = c at hr hread ⊢
    obtain ⟨result, s', output, q, layer'⟩ := c
    obtain rfl : result = .ok n := hr
    exact committed_of_writeCheckpoint hs hw' rfl hread hbeside

/-- **How far a checkpoint to a path is atomic.**  For a callback that leaves the path and what is
beside it alone: when the checkpoint succeeds, the path has all of the stream and nothing is beside
it.  When it fails, what was at the path is still there; a refused one has changed nothing at all,
and one that was not refused leaves a file beside the path only if the stream is complete and the
path is a directory's. -/
theorem checkpointToPath_atomic (hs : s.Reached) (hp : Spares pickle path) (p : Host) (layer : σ) :
    (∀ n, (p.checkpointToPath s path pickle layer).result = .ok n →
      (p.checkpointToPath s path pickle layer).Committed path n) ∧
    ∀ e, (p.checkpointToPath s path pickle layer).result = .error e →
      (p.checkpointToPath s path pickle layer).host.files.stat path = p.files.stat path ∧
      (p.services.phase ≠ .idle → (p.checkpointToPath s path pickle layer).host = p) ∧
      (p.services.phase = .idle →
        ((∃ content, (p.checkpointToPath s path pickle layer).host.files.read (partialPath path) =
            .ok content) ↔
          (∃ t, p.files.stat path = .ok (t, some .directory)) ∧
            ∃ files n, p.files.create (partialPath path) = .ok files ∧
              ({ p with files }.checkpoint s none pickle layer).result = .ok n)) := by
  cases he : p.enter .checkpoint with
  | error e =>
      have hphase : p.services.phase ≠ .idle := by
        intro h
        rw [enter_eq_ok.mpr ⟨h, rfl⟩] at he
        cases he
      rw [checkpointToPath, he]
      exact ⟨fun _ h => (by cases h), fun _ _ => ⟨rfl, fun _ => rfl, fun h => absurd h hphase⟩⟩
  | ok q =>
      obtain ⟨hphase, rfl⟩ := enter_eq_ok.mp he
      obtain ⟨hok, herror⟩ := writeFile_atomic hs hp (p.setPhase .checkpoint) layer
      -- closing the session changes the phase only
      have hresult : ∀ files, ({ p with files }.checkpoint s none pickle layer).result =
          ({ p.setPhase .checkpoint with files }.writeCheckpoint s none pickle layer).result := by
        intro files
        rw [checkpoint, enter_eq_ok (p := { p with files }).mpr ⟨hphase, rfl⟩]
        rfl
      simp only [hresult]
      rw [checkpointToPath, he]
      refine ⟨fun n h => ?_, fun e h => ?_⟩
      · have hcommitted := hok n h
        exact ⟨hcommitted.content, hcommitted.beside, hcommitted.complete, hcommitted.restores⟩
      · obtain ⟨hpath, hbeside⟩ := herror e h
        exact ⟨hpath, fun h => absurd hphase h, fun _ => hbeside⟩

/-- A process without peers commits a new simulation. -/
theorem checkpointToPath_atomic_new :
    (checkpointToPath ⟨⟨{}, .alone, .idle, 1⟩, .single "runs", ⟨3⟩⟩ (Simulation.new .builtin ⟨0⟩).1
      "runs/deck" (fun state => .ok [7] state) ()).Committed "runs/deck" 5 :=
  (checkpointToPath_atomic (.new .builtin ⟨0⟩) (fun _ _ _ => rfl)
    ⟨⟨{}, .alone, .idle, 1⟩, .single "runs", ⟨3⟩⟩ ()).1 5 (by decide +kernel)

/-- **A checkpoint to a directory's path leaves its stream beside it**, and fails. -/
theorem checkpointToPath_leftover :
    (checkpointToPath ⟨⟨{}, .alone, .idle, 1⟩, .single "deck", ⟨3⟩⟩ (Simulation.new .builtin ⟨0⟩).1
      "deck" (fun state => .ok [1] state) ()).result = .error (.io .isDirectory) ∧
    ∃ content, (checkpointToPath ⟨⟨{}, .alone, .idle, 1⟩, .single "deck", ⟨3⟩⟩
      (Simulation.new .builtin ⟨0⟩).1 "deck" (fun state => .ok [1] state) ()).host.files.read
        "deck.partial" = .ok content :=
  ⟨by decide +kernel, (checkpointToPath ⟨⟨{}, .alone, .idle, 1⟩, .single "deck", ⟨3⟩⟩
    (Simulation.new .builtin ⟨0⟩).1 "deck" (fun state => .ok [1] state) ()).output,
    by decide +kernel⟩

end Host

end ParticleSim
