import AVCapture.Core.SegmentThreads

/-!
# What an Export Lists

The tick writes the file of its slot under `segment_mutex_` and advances `seq_` only
after it has released the mutex and cleared both buffers. An export takes the mutex,
reads `seq_`, and lists the slots of the last segments.

While nothing stops the recorder and every save succeeds, the ring always holds the last
segments that the tick thread has written (`RingInv`). What an export lists then depends
on where it comes between the write and the advance.

## Main results

- `ringInv_of_reach`: the invariant
- `export_listsRun_iff`: when an export lists consecutive segments
-/

namespace AVCapture.Core

open AVCapture.Utils Transition

/-! ## The invariant of the ring -/

/-- The tick has written its slot and not yet advanced `seq_`. -/
def TickPc.wrote : TickPc → Bool
  | .muxed | .unlocked | .videoCleared | .audioCleared => true
  | _ => false

/-- The tick has chosen its slot and not yet advanced `seq_`. -/
def TickPc.inTick : TickPc → Bool
  | .sleeping | .exited => false
  | _ => true

/-- How many segments have been written since `start()`. -/
def ThreadState.written (s : ThreadState) : Nat := if s.tick.wrote then s.seq + 1 else s.seq

/-- Which tick wrote the whole file of a slot. -/
def tickOf (disk : Nat → Option SegmentFile) (idx : Nat) : Option Nat :=
  (disk idx).bind SegmentFile.tick

/-- A run in which nothing asks the recorder to stop and every `save_av_to_ts` call
    succeeds. -/
def quiet (cfg : Config) (env : SegmentEnv) (s : ThreadState) : Action → Prop
  | .stopRequest => False
  | .tickMux calls => (s.save cfg env calls).result.failed = false
  | _ => True

instance (cfg : Config) (env : SegmentEnv) (s : ThreadState) (a : Action) :
    Decidable (quiet cfg env s a) := by
  cases a <;> unfold quiet <;> infer_instance

/-- The ring holds the last segments written. -/
structure RingInv (cfg : Config) (s : ThreadState) : Prop where
  running : s.stop = .running
  saveOk : s.tick = .muxed → s.saveOk = true
  idx_eq : s.tick.inTick = true → s.idx = s.seq % cfg.ringSize
  holds : Ring.Holds cfg.ringSize s.written (tickOf s.disk)

theorem ringInv_started (cfg : Config) (videoCapacity audioCapacity : Nat)
    (stale : Nat → Option TsFile) :
    RingInv cfg (ThreadState.started videoCapacity audioCapacity stale) := by
  refine ⟨rfl, ?_, ?_, Ring.Holds.zero _ _⟩
  · intro h
    cases h
  · intro h
    cases h

/-- A successful save leaves the segment of this tick in its slot. -/
theorem tick_savedFile {cfg : Config} {env : SegmentEnv} {s : ThreadState} {calls : MuxCalls}
    (h : (s.save cfg env calls).result.failed = false) :
    (s.savedFile cfg env calls).bind SegmentFile.tick = some s.seq := by
  obtain ⟨file, hfile⟩ := exists_file_of_not_failed _ _ _ _ _ _ h
  have hsave : (s.save cfg env calls).file = some file := hfile
  unfold ThreadState.savedFile
  simp [h, hsave]

/-- **Step**: every step of a quiet run keeps the invariant. Only the save writes a slot,
    and it writes the one after the last. -/
theorem ringInv_next {cfg : Config} {env : SegmentEnv} {s : ThreadState} {a : Action}
    (hI : RingInv cfg s) (hq : quiet cfg env s a) (hen : s.enabled a) :
    RingInv cfg (s.next cfg env a) := by
  obtain ⟨hrun, hsave, hidx, hholds⟩ := hI
  unfold ThreadState.written at hholds
  cases a with
  -- up to the save the tick has only chosen a slot
  | tickBegin =>
    rw [hen.1] at hholds
    exact ⟨hrun, nofun, fun _ => rfl, hholds⟩
  | tickLock =>
    rw [hen.1] at hholds hidx
    exact ⟨hrun, nofun, hidx, hholds⟩
  | tickTakeVideo =>
    rw [show s.tick = _ from hen] at hholds hidx
    exact ⟨hrun, nofun, hidx, hholds⟩
  | tickTakeAudio =>
    rw [show s.tick = _ from hen] at hholds hidx
    exact ⟨hrun, nofun, hidx, hholds⟩
  | tickMux calls =>
    rw [show s.tick = _ from hen] at hholds hidx
    refine ⟨hrun, ?_, hidx, ?_⟩
    · intro _
      show (!(s.save cfg env calls).result.failed) = true
      rw [show (s.save cfg env calls).result.failed = false from hq]
      rfl
    · -- the slot of the tick is the next one of the ring, and no other slot changes
      have hnow : Ring.Holds cfg.ringSize s.seq (tickOf s.disk) := hholds
      apply hnow.write
      · show ((Function.update s.disk s.idx _) _).bind SegmentFile.tick = some s.seq
        rw [hidx rfl, Function.update_self]
        exact tick_savedFile hq
      · intro i hi
        show ((Function.update s.disk s.idx _) _).bind SegmentFile.tick = _
        rw [hidx rfl, Function.update_of_ne hi]
        rfl
  -- from here to the advance the ring is one segment ahead of `seq_`
  | tickUnlock =>
    rw [show s.tick = _ from hen] at hholds hidx
    have hnext : s.next cfg env .tickUnlock = { s with tick := .unlocked, mutex := .free } :=
      if_pos (hsave hen)
    rw [hnext]
    exact ⟨hrun, nofun, hidx, hholds⟩
  | tickClearVideo =>
    rw [show s.tick = _ from hen] at hholds hidx
    exact ⟨hrun, nofun, hidx, hholds⟩
  | tickClearAudio =>
    rw [show s.tick = _ from hen] at hholds hidx
    exact ⟨hrun, nofun, hidx, hholds⟩
  | tickAdvance =>
    rw [show s.tick = _ from hen] at hholds
    exact ⟨hrun, nofun, nofun, hholds⟩
  | tickExit =>
    -- nobody has asked the tick thread to end
    rw [hen.2] at hrun
    cases hrun
  -- the encoding threads and the exports touch neither the ring nor `seq_`
  | pushVideo frame => exact ⟨hrun, hsave, hidx, hholds⟩
  | pushAudio frame => exact ⟨hrun, hsave, hidx, hholds⟩
  | exportLock | exportCreate | exportList | exportFind | exportRead | exportUnlock =>
    exact ⟨hrun, hsave, hidx, hholds⟩
  | stopRequest => exact hq.elim
  | stopJoin =>
    rw [hen.1] at hrun
    cases hrun
  | stopRemove | stopRemoveList =>
    rw [show s.stop = _ from hen] at hrun
    cases hrun
  | stopRemoved =>
    rw [hen.1] at hrun
    cases hrun
  | stopReset =>
    rw [show s.stop = _ from hen] at hrun
    cases hrun

/-- **Run**: every state of a quiet run has the invariant. -/
theorem ringInv_of_reach {cfg : Config} {env : SegmentEnv} {s : ThreadState}
    (h : Reach (segmenterSystem cfg env) (quiet cfg env) s) : RingInv cfg s := by
  apply h.invariant_ofCommands
  · intro s hs
    obtain ⟨videoCapacity, audioCapacity, stale, rfl⟩ := hs
    exact ringInv_started cfg videoCapacity audioCapacity stale
  · intro s a hI hq hen
    exact ringInv_next hI hq hen

/-! ## Exports between ticks and in a tick -/

/-- The ticks that wrote the files of the listed slots, in the order of `list.txt`. -/
def ExportRun.listedTicks (e : ExportRun) : List (Option Nat) :=
  e.slots.map fun p => p.2.bind SegmentFile.tick

theorem listedTicks_exportList (cfg : Config) (env : SegmentEnv) (s : ThreadState) :
    (s.next cfg env .exportList).run.listedTicks =
      (Ring.window cfg.ringSize s.seq s.run.segments).map
        fun t => tickOf s.disk (t % cfg.ringSize) := by
  show ((exportWindow cfg s.seq s.run.segments).map _).map _ = _
  rw [exportWindow_eq, List.map_map, List.map_map]
  rfl

/-- What an export of `k` segments lists is a run of consecutive segments in recording
    order, each written since `start()`, and as many as there can be: `k` at most, the
    size of the ring at most, and at most the number of ticks that have advanced `seq_`. -/
def ListsRun (cfg : Config) (s : ThreadState) (e : ExportRun) : Prop :=
  Ring.IsRun (min (min e.segments cfg.ringSize) s.seq) e.listedTicks

/-- **Exports are in order** except between the write of a segment and the advance of
    `seq_`, when the ring has gone round and all of its at least two slots are asked for:
    the oldest slot listed then holds the newest segment. -/
theorem export_listsRun_iff (cfg : Config) (hR : 0 < cfg.ringSize) (env : SegmentEnv)
    (s s' : ThreadState) (h : Reach (segmenterSystem cfg env) (quiet cfg env) s)
    (hs : (segmenterSystem cfg env).step s .exportList = some s') :
    ListsRun cfg s s'.run ↔
      ¬ (s.tick.wrote = true ∧ 2 ≤ cfg.ringSize ∧ cfg.ringSize ≤ s.run.segments ∧
          cfg.ringSize ≤ s.seq) := by
  obtain ⟨_, rfl⟩ := ofCommands_step_iff.mp hs
  have hholds := (ringInv_of_reach h).holds
  unfold ThreadState.written at hholds
  unfold ListsRun
  rw [listedTicks_exportList]
  cases hwrote : s.tick.wrote with
  | false =>
    -- the ring and `seq_` agree
    rw [hwrote] at hholds
    refine ⟨?_, ?_⟩
    · intro _ hcond
      cases hcond.1
    · intro _
      exact hholds.read_window s.run.segments
  | true =>
    -- the export reads a ring that is one segment ahead of the `seq_` it has read
    rw [hwrote] at hholds
    simp only [true_and]
    exact hholds.read_window_behind_iff hR s.run.segments

/-! ## A ring of two slots -/

def twoSlots : Config := { dir := "ring", ringSize := 2 }

/-- One frame of each kind, and the tick that saves them. -/
def frameAndTick : List Action :=
  [.pushVideo videoFrame, .pushAudio audioFrame] ++ tickActions {} false

/-- Two ticks, and a third one that has released the mutex when an export begins. -/
def exportInThirdTick : List Action :=
  frameAndTick ++ frameAndTick ++ frameAndTick.take 8 ++ [.exportLock 2, .exportCreate]

/-- The export lists segment 2 before segment 1. -/
theorem exportInThirdTick_reversed :
    ¬ ∀ s s', Reach (segmenterSystem twoSlots smallEnv) (quiet twoSlots smallEnv) s →
      (segmenterSystem twoSlots smallEnv).step s .exportList = some s' →
      ListsRun twoSlots s s'.run := by
  intro hall
  let s₀ := ThreadState.started 60 16 fun _ => none
  have hinit : Reach (segmenterSystem twoSlots smallEnv) (quiet twoSlots smallEnv) s₀ :=
    .init ⟨60, 16, fun _ => none, rfl⟩
  obtain ⟨s, hreach, hs⟩ := hinit.exists_of_run exportInThirdTick
    (fun s => decide (s.enabled .exportList ∧ s.seq = 2 ∧ s.run.segments = 2 ∧
      (s.next twoSlots smallEnv .exportList).run.listedTicks = [some 2, some 1])) (by decide)
  obtain ⟨hen, hseq, hk, hlisted⟩ := of_decide_eq_true hs
  obtain ⟨t, ht⟩ := hall s _ hreach (ofCommands_step_iff.mpr ⟨hen, rfl⟩)
  rw [hlisted, hseq] at ht
  rw [show (s.next twoSlots smallEnv .exportList).run.segments = 2 from hk] at ht
  simp [twoSlots, List.range'] at ht
  omega

/-- In the ticks before, an export of both slots is in order. -/
theorem exportAfterTwoTicks_inOrder :
    ∃ s s', (run (segmenterSystem twoSlots smallEnv) (quiet twoSlots smallEnv)
        (ThreadState.started 60 16 fun _ => none)
        (frameAndTick ++ frameAndTick ++ [.exportLock 2, .exportCreate])) = some s ∧
      (segmenterSystem twoSlots smallEnv).step s .exportList = some s' ∧
      ListsRun twoSlots s s'.run := by
  refine ⟨_, _, rfl, rfl, ?_⟩
  apply (export_listsRun_iff twoSlots (by decide) smallEnv _ _ ?_ rfl).mpr (by decide)
  exact Reach.of_run (.init ⟨60, 16, fun _ => none, rfl⟩)
    (frameAndTick ++ frameAndTick ++ [.exportLock 2, .exportCreate]) rfl

end AVCapture.Core
