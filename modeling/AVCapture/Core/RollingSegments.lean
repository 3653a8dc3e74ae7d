import AVCapture.Core.SegmentWriter
import AVCapture.Lib.Ring
import AVCapture.Utils.CircularBuffer

/-!
# The Ring of Segments

Model of `RollingSegment` (`core/RollingSegments.cpp`) as one thread sees it:
`tick_save_one_segment` writes the two frame buffers into the next slot of a ring of
segment files, and `export_last_segments` names the slots of the last segments for
`ffmpeg` to concatenate. `Core.SegmentThreads` interleaves the same steps with the other
threads.

A segment file is known by its slot, the index that `seg_path` formats into its name.

## Main results

- `nextSlot_mem_exportWindow`: when the slot of the next tick is in an export's window
- `writeErrorAborts_iff`: when an error from the muxer stops the tick
- `failedTick_keepsExports_iff`: when a failed tick leaves what an export would give
-/

namespace AVCapture.Core

open AVCapture.Utils

/-! ## Configuration and state -/

/-- `RollingSegment::Config` -/
structure Config where
  dir : String
  segmentBufferSeconds : Int := 10
  ringSize : Nat := 180

/-- `std::format("seg_{:03}.ts", idx)` -/
def segName (idx : Nat) : String :=
  let digits := toString idx
  "seg_" ++ String.ofList (List.replicate (3 - digits.length) '0') ++ digits ++ ".ts"

/-- `dir / name`: a separator is put in unless the directory ends in one. -/
def inDir (dir name : String) : String :=
  if dir.isEmpty || dir.endsWith "/" then dir ++ name else dir ++ "/" ++ name

def segPath (cfg : Config) (idx : Nat) : String := inDir cfg.dir (segName idx)

/-- The state that a tick reads and writes: `seq_`, the segment files by slot, and the
    two frame buffers. -/
structure Segmenter where
  seq : Nat := 0
  disk : Nat → Option TsFile := fun _ => none
  video : CircularBuffer EncodedVideoFrame := {}
  audio : CircularBuffer EncodedAudioFrame := {}

/-! ## Ticks and exports -/

/-- The slot that the next tick writes: `seq_ % ring_size_`. -/
def Segmenter.nextSlot (cfg : Config) (s : Segmenter) : Nat := s.seq % cfg.ringSize

/-- `save_av_to_ts` as the tick calls it, on the slot of the tick. -/
def Segmenter.save (cfg : Config) (env : SegmentEnv) (calls : MuxCalls) (s : Segmenter) :
    SaveOutcome :=
  saveAvToTs env calls (segPath cfg (s.nextSlot cfg)) s.video.snapshot s.audio.snapshot
    (s.disk (s.nextSlot cfg))

def tickSaveOneSegment (cfg : Config) (env : SegmentEnv) (calls : MuxCalls)
    (s : Segmenter) : VoidResult × Segmenter :=
  let out := s.save cfg env calls
  let s' := { s with disk := Function.update s.disk (s.nextSlot cfg) out.file }
  -- an error leaves the buffers and `seq_` for the next tick to try again
  match out.result with
  | .error e =>
    (.error (e.withContext "Failed saving current AV buffers to ts file"), s')
  | .ok () =>
    (.ok (), { s' with video := s'.video.clear, audio := s'.audio.clear, seq := s'.seq + 1 })

/-- The slots that `export_last_segments` writes to `list.txt`, in that order, for the
    value `cur_seq` that it reads. -/
def exportWindow (cfg : Config) (curSeq segments : Nat) : List Nat :=
  let segments := min segments cfg.ringSize
  let startSeq := if segments ≤ curSeq then curSeq - segments else 0
  (List.range' startSeq (curSeq - startSeq)).map (· % cfg.ringSize)

/-- The slots and contents that `export_last_segments` would concatenate. -/
def exportedSegments (cfg : Config) (s : Segmenter) (segments : Nat) :
    List (Nat × Option TsFile) :=
  (exportWindow cfg s.seq segments).map fun idx => (idx, s.disk idx)

/-! ## The window of an export -/

/-- An export names the slots of a window of the ring. -/
theorem exportWindow_eq (cfg : Config) (curSeq segments : Nat) :
    exportWindow cfg curSeq segments =
      (Ring.window cfg.ringSize curSeq segments).map (· % cfg.ringSize) := by
  unfold exportWindow Ring.window
  -- the two branches of `start_seq`: enough segments, or all there are
  by_cases h : min segments cfg.ringSize ≤ curSeq
  · have hlen : curSeq - (curSeq - min segments cfg.ringSize) =
        min (min segments cfg.ringSize) curSeq := by omega
    simp only [h, if_true, hlen]
  · have hstart : curSeq - min segments cfg.ringSize = 0 := by omega
    have hlen : min (min segments cfg.ringSize) curSeq = curSeq := by omega
    simp only [h, if_false, hstart, hlen, Nat.sub_zero]

/-- **The slot about to be written is in the window** exactly when the ring has gone
    round once and the export asks for all of it. -/
theorem nextSlot_mem_exportWindow {cfg : Config} (hR : 0 < cfg.ringSize)
    {curSeq segments : Nat} :
    curSeq % cfg.ringSize ∈ exportWindow cfg curSeq segments ↔
      cfg.ringSize ≤ segments ∧ cfg.ringSize ≤ curSeq := by
  rw [exportWindow_eq]
  exact Ring.next_mem_window_slots hR

/-! ## What a tick does -/

/-- A tick fails exactly when its save does. -/
theorem tick_failed_iff (cfg : Config) (env : SegmentEnv) (calls : MuxCalls)
    (s : Segmenter) :
    (tickSaveOneSegment cfg env calls s).1.failed = (s.save cfg env calls).result.failed := by
  unfold tickSaveOneSegment
  cases hres : (s.save cfg env calls).result with
  | ok u => simp [hres]
  | error e => simp [hres]

/-- A failed tick changes nothing but the file of its slot. -/
theorem tick_of_failed {cfg : Config} {env : SegmentEnv} {calls : MuxCalls} {s : Segmenter}
    (h : (s.save cfg env calls).result.failed = true) :
    (tickSaveOneSegment cfg env calls s).2 =
      { s with disk := Function.update s.disk (s.nextSlot cfg)
                 (s.save cfg env calls).file } := by
  unfold tickSaveOneSegment
  cases hres : (s.save cfg env calls).result with
  | ok u => rw [hres] at h; simp at h
  | error e => simp [hres]

/-- A tick that succeeds clears both buffers and advances `seq_`. -/
theorem tick_of_ok {cfg : Config} {env : SegmentEnv} {calls : MuxCalls} {s : Segmenter}
    (h : (s.save cfg env calls).result = .ok ()) :
    (tickSaveOneSegment cfg env calls s).2 =
      { seq := s.seq + 1
        disk := Function.update s.disk (s.nextSlot cfg) (s.save cfg env calls).file
        video := s.video.clear
        audio := s.audio.clear } := by
  unfold tickSaveOneSegment
  simp [h]

/-! ## A small ring

One encoded frame of each kind, and the recorder after its first segment. -/

def videoFrame : EncodedVideoFrame := { data := [1, 2, 3], pts := 0, dts := 0, flags := 1 }

def audioFrame : EncodedAudioFrame := { data := [4, 5], pts := 0, dts := 0 }

def smallEnv : SegmentEnv := SegmentEnv.mpegts 30 8000 1024

/-- A new recorder whose encoders have delivered one frame each. -/
def Segmenter.firstFrames : Segmenter :=
  { video := CircularBuffer.push { capacity := 60 } videoFrame
    audio := CircularBuffer.push { capacity := 16 } audioFrame }

/-- After one successful tick, when the next frames have come in. -/
def Segmenter.afterOneTick (cfg : Config) : Segmenter :=
  let s := (tickSaveOneSegment cfg smallEnv {} Segmenter.firstFrames).2
  { s with video := s.video.push videoFrame, audio := s.audio.push audioFrame }

/-! ## An error while the packets are written -/

/-- If a call of `write_packet_to_stream` returns an error, then the save returns an
    error, and the tick fails, clears no buffer and does not advance `seq_`. -/
def WriteErrorAborts (cfg : Config) (env : SegmentEnv) (calls : MuxCalls)
    (s : Segmenter) : Prop :=
  (∃ w ∈ (s.save cfg env calls).writes, w.failed = true) →
    (s.save cfg env calls).result.failed = true ∧
      (tickSaveOneSegment cfg env calls s).1.failed = true ∧
      (tickSaveOneSegment cfg env calls s).2.video = s.video ∧
      (tickSaveOneSegment cfg env calls s).2.audio = s.audio ∧
      (tickSaveOneSegment cfg env calls s).2.seq = s.seq

/-- **A write error aborts the tick** only where there is none to abort for: a call
    before the loop fails, so that no packet is attempted, or the muxer accepts each of
    the packets the loop has to write. -/
theorem writeErrorAborts_iff (cfg : Config) (env : SegmentEnv) (calls : MuxCalls)
    (s : Segmenter) :
    WriteErrorAborts cfg env calls s ↔
      ¬ calls.setupSucceeds s.video.snapshot s.audio.snapshot ∨
        ∀ i < env.packetsToWrite s.video.snapshot s.audio.snapshot,
          (calls.packet i).succeed = true := by
  unfold WriteErrorAborts
  by_cases hsetup : calls.setupSucceeds s.video.snapshot s.audio.snapshot
  · obtain ⟨hres, hwrites, _⟩ := saveAvToTs_of_setupSucceeds env
      (segPath cfg (s.nextSlot cfg)) (s.disk (s.nextSlot cfg)) hsetup
    -- the save succeeds, so the implication can only hold without a failed write
    have hfailed : (s.save cfg env calls).result.failed = false := by
      simp [Segmenter.save, hres]
    have hexists : (∃ w ∈ (s.save cfg env calls).writes, w.failed = true) ↔
        ∃ i < env.packetsToWrite s.video.snapshot s.audio.snapshot,
          (calls.packet i).succeed = false := by
      have h := exists_failed_interleave
        (env.loopParams s.video.snapshot s.audio.snapshot) calls.packet
        (s.video.snapshot.length + s.audio.snapshot.length) 0 0
        s.video.snapshot s.audio.snapshot
      simpa only [Segmenter.save, hwrites, SegmentEnv.muxLoop, SegmentEnv.packetsToWrite,
        Nat.zero_add] using h
    rw [hexists, hfailed]
    simp only [hsetup, not_true_eq_false, false_or, Bool.false_eq_true, false_and]
    refine ⟨?_, ?_⟩
    · intro h i hi
      cases hc : (calls.packet i).succeed with
      | true => rfl
      | false => exact (h ⟨i, hi, hc⟩).elim
    · intro h hex
      obtain ⟨i, hi, hc⟩ := hex
      rw [h i hi] at hc
      simp at hc
  · -- nothing has been written, so that there is nothing to abort for
    obtain ⟨_, hwrites, _⟩ := saveAvToTs_of_not_setupSucceeds env
      (segPath cfg (s.nextSlot cfg)) (s.disk (s.nextSlot cfg)) hsetup
    simp [Segmenter.save, hwrites, hsetup]

/-- A full disk: the first packet is refused, and the tick still reports success, clears
    both buffers and moves on to the next slot. -/
theorem fullDisk_commits :
    ¬ WriteErrorAborts { dir := "ring", ringSize := 5 } smallEnv
      { packet := fun _ => { interleavedWrite := false } } Segmenter.firstFrames := by
  unfold WriteErrorAborts
  decide

/-! ## A failed tick and the exports after it -/

/-- Replacing one file of the ring shows in an export exactly when its slot is named and
    its content is another one. -/
theorem exportedSegments_update (cfg : Config) (s : Segmenter) (idx : Nat)
    (file : Option TsFile) (segments : Nat) :
    exportedSegments cfg { s with disk := Function.update s.disk idx file } segments =
        exportedSegments cfg s segments ↔
      (idx ∈ exportWindow cfg s.seq segments → file = s.disk idx) := by
  simp only [exportedSegments, List.map_inj_left, Prod.mk.injEq, true_and]
  refine ⟨?_, ?_⟩
  · intro h hmem
    have := h idx hmem
    rwa [Function.update_self] at this
  · intro h i hi
    by_cases heq : i = idx
    · subst heq
      rw [Function.update_self]
      exact h hi
    · rw [Function.update_of_ne heq]

/-- **A failed tick leaves every export as it was**, except when it has truncated a
    segment file that held something, in a ring that has gone round: the slot it
    truncates is then the oldest segment of a full window. -/
theorem failedTick_keepsExports_iff (cfg : Config) (hR : 0 < cfg.ringSize)
    (env : SegmentEnv) (calls : MuxCalls) (s : Segmenter)
    (hfail : (tickSaveOneSegment cfg env calls s).1.failed = true) :
    (∀ segments, exportedSegments cfg (tickSaveOneSegment cfg env calls s).2 segments =
        exportedSegments cfg s segments) ↔
      ¬ (calls.truncates s.video.snapshot s.audio.snapshot ∧ cfg.ringSize ≤ s.seq ∧
          s.disk (s.nextSlot cfg) ≠ some TsFile.truncated) := by
  rw [tick_failed_iff] at hfail
  have hsetup : ¬ calls.setupSucceeds s.video.snapshot s.audio.snapshot :=
    (saveAvToTs_failed_iff ..).mp hfail
  have hfile : (s.save cfg env calls).file =
      if calls.truncates s.video.snapshot s.audio.snapshot then some TsFile.truncated
      else s.disk (s.nextSlot cfg) :=
    (saveAvToTs_of_not_setupSucceeds env (segPath cfg (s.nextSlot cfg))
      (s.disk (s.nextSlot cfg)) hsetup).2.2
  -- an export changes only if it names the slot and the slot has another content
  rw [tick_of_failed hfail]
  simp only [exportedSegments_update, Segmenter.nextSlot, nextSlot_mem_exportWindow hR]
  rw [← Segmenter.nextSlot, hfile]
  by_cases htrunc : calls.truncates s.video.snapshot s.audio.snapshot
  · simp only [htrunc, if_true, true_and]
    refine ⟨?_, ?_⟩
    · intro h hcond
      -- the export of the whole ring is the one that sees it
      exact hcond.2 (h cfg.ringSize ⟨le_rfl, hcond.1⟩).symm
    · intro h segments hwin
      by_contra hne
      exact h ⟨hwin.2, fun heq => hne heq.symm⟩
  · simp [htrunc]

/-- With one slot, a tick whose header cannot be written has emptied the only segment
    that an export could give. -/
theorem headerError_loses_segment :
    let cfg : Config := { dir := "ring", ringSize := 1 }
    let s := Segmenter.afterOneTick cfg
    let tick := tickSaveOneSegment cfg smallEnv { writeHeader := false } s
    tick.1.failed = true ∧ exportedSegments cfg tick.2 1 ≠ exportedSegments cfg s 1 := by
  decide

/-- A tick that fails for want of frames leaves the exports alone. -/
theorem emptyTick_keepsExports :
    let cfg : Config := { dir := "ring", ringSize := 1 }
    let s := { Segmenter.afterOneTick cfg with video := {} }
    ∀ segments, exportedSegments cfg (tickSaveOneSegment cfg smallEnv {} s).2 segments =
      exportedSegments cfg s segments :=
  (failedTick_keepsExports_iff _ (by decide) _ _ _ (by decide)).mpr (by decide)

end AVCapture.Core
