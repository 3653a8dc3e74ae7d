import AVCapture.Core.RollingSegments
import AVCapture.Lib.Transition

/-!
# The Threads around the Ring

The same tick and export as in `Core.RollingSegments`, taken apart into the steps that
other threads can see, and interleaved with those threads:

- the **tick thread** of `RollingSegment::start`, with `segment_mutex_` taken around the
  save only
- the **video encoding thread** and the **audio mixer thread**, which push frames into
  the two `CircularBuffer`s at any time
- any number of **exports** (the background save threads and the synchronous saves), each
  under `segment_mutex_`, with the ffmpeg that they run
- the **stop path**: `RollingSegment::stop`, which joins the tick thread, removes the
  segment directory and resets `seq_`, without the mutex

An export writes `list.txt` into the segment directory, between the segments, and ffmpeg opens
it by its name. A file that has been unlinked stays readable for whoever has it open. ffmpeg is
taken to start, and to open the files of its list in their order.

Every method of a buffer and every access to `seq_` is one step. Histories that no thread
reads (which frames were pushed, evicted and saved, which tick wrote a slot, what a slot
held when an export listed it) are recorded next to the state they are about.

## Main definitions

- `ThreadState`, `Action`, `enabled`, `next`: the machine
- `segmenterSystem`: the machine as a transition system
- `tick_refines`: a tick that nothing interrupts is `tickSaveOneSegment`
-/

namespace AVCapture.Core

open AVCapture.Utils Transition

/-! ## Frame buffers and their history -/

/-- A frame together with the number of frames pushed before it. -/
structure Pushed (α : Type) where
  id : Nat
  frame : α

/-- An encoded-frame buffer: the buffer itself, how many frames have been pushed into it,
    the ones that a push at capacity has evicted, and the snapshots of the ticks that
    went on to clear it. `taken` is the snapshot of the running tick, with the number of
    frames pushed at that time. -/
structure FrameStream (α : Type) where
  buf : CircularBuffer (Pushed α)
  pushed : Nat := 0
  evicted : List Nat := []
  saved : List (List Nat) := []
  taken : Option (Nat × List (Pushed α)) := none

namespace FrameStream

variable {α : Type}

/-- The numbers of the frames in the buffer, oldest first. -/
def ids (st : FrameStream α) : List Nat := st.buf.buffer.map Pushed.id

def push (st : FrameStream α) (frame : α) : FrameStream α :=
  let x : Pushed α := ⟨st.pushed, frame⟩
  { st with
    buf := st.buf.push x
    pushed := st.pushed + 1
    evicted := st.evicted ++ (st.buf.evicted x).map Pushed.id }

/-- `get_frames` -/
def take (st : FrameStream α) : FrameStream α :=
  { st with taken := some (st.pushed, st.buf.snapshot) }

/-- The tick has failed: its snapshot is dropped and the buffer left alone. -/
def giveUp (st : FrameStream α) : FrameStream α := { st with taken := none }

/-- `clear_frames` after a successful save: from here on the snapshot is what is left of
    its frames. -/
def clear (st : FrameStream α) : FrameStream α :=
  { st with
    buf := st.buf.clear
    saved := st.saved ++ [(st.taken.map fun t => t.2.map Pushed.id).getD []]
    taken := none }

/-- The frames of the running tick's snapshot. -/
def snapshotFrames (st : FrameStream α) : List α :=
  (st.taken.map fun t => t.2.map Pushed.frame).getD []

end FrameStream

/-! ## The state of the threads -/

/-- A segment file on disk. `tick` is the value of `seq_` for the tick that wrote the
    whole file, if one did since `start()`. -/
structure SegmentFile where
  file : TsFile
  tick : Option Nat := none
  deriving DecidableEq

/-- Where the tick thread is: asleep between ticks, or after the named step of
    `tick_save_one_segment`. -/
inductive TickPc where
  | sleeping
  | chosen
  | locked
  | videoTaken
  | audioTaken
  | muxed
  | unlocked
  | videoCleared
  | audioCleared
  | exited
  deriving DecidableEq, Repr

/-- Who holds `segment_mutex_`. -/
inductive Holder where
  | free
  | tick
  | export
  deriving DecidableEq, Repr

/-- How far `RollingSegment::stop` has come. -/
inductive StopPc where
  | running
  | requested
  | removing
  | removed
  | stopped
  deriving DecidableEq, Repr

/-- One call of `export_last_segments`: its argument, whether `list.txt` has been created, the
    slots it has written there with the files they held at that moment, whether ffmpeg has
    found `list.txt`, once it has looked for it, and the files it has opened so far. -/
structure ExportRun where
  segments : Nat := 0
  created : Bool := false
  listed : Option (List (Nat × Option SegmentFile)) := none
  found : Option Bool := none
  read : List (Option SegmentFile) := []
  deriving DecidableEq

/-- The shared state, with the local variables of the threads: `idx` and the result of
    the save in the tick, and the export that holds the mutex. The segment directory is there
    or not (`dir`), with segments (`disk`) and perhaps `list.txt` in it. -/
structure ThreadState where
  seq : Nat := 0
  dir : Bool := true
  disk : Nat → Option SegmentFile
  listTxt : Bool := false
  video : FrameStream EncodedVideoFrame
  audio : FrameStream EncodedAudioFrame
  mutex : Holder := .free
  tick : TickPc := .sleeping
  idx : Nat := 0
  saveOk : Bool := false
  stop : StopPc := .running
  run : ExportRun := {}
  exported : List ExportRun := []

inductive Action where
  | tickBegin
  | tickLock
  | tickTakeVideo
  | tickTakeAudio
  | tickMux (calls : MuxCalls)
  | tickUnlock
  | tickClearVideo
  | tickClearAudio
  | tickAdvance
  | tickExit
  | pushVideo (frame : EncodedVideoFrame)
  | pushAudio (frame : EncodedAudioFrame)
  | exportLock (segments : Nat)
  | exportCreate
  | exportList
  | exportFind
  | exportRead
  | exportUnlock (succeeded : Bool)
  | stopRequest
  | stopJoin
  | stopRemove (idx : Nat)
  | stopRemoveList
  | stopRemoved (dirGone : Bool)
  | stopReset

/-! ## The steps -/

/-- The slots that the running export has listed, with the files they held then. -/
def ExportRun.slots (e : ExportRun) : List (Nat × Option SegmentFile) := e.listed.getD []

/-- The file that `ffmpeg` opens next. -/
def ExportRun.nextSlot (e : ExportRun) : Nat :=
  ((e.slots[e.read.length]?).map Prod.fst).getD 0

/-- ffmpeg is at its end: it has had no list, or a file of the list was not there, or it has
    opened all of them. -/
def ExportRun.Ended (e : ExportRun) : Prop :=
  e.found = some false ∨
    (e.found = some true ∧ (none ∈ e.read ∨ e.read.length = e.slots.length))

instance (e : ExportRun) : Decidable e.Ended := inferInstanceAs (Decidable (_ ∨ _ ∧ (_ ∨ _)))

def ThreadState.enabled (s : ThreadState) : Action → Prop
  | .tickBegin => s.tick = .sleeping ∧ s.stop = .running
  | .tickLock => s.tick = .chosen ∧ s.mutex = .free
  | .tickTakeVideo => s.tick = .locked
  | .tickTakeAudio => s.tick = .videoTaken
  | .tickMux _ => s.tick = .audioTaken
  | .tickUnlock => s.tick = .muxed
  | .tickClearVideo => s.tick = .unlocked
  | .tickClearAudio => s.tick = .videoCleared
  | .tickAdvance => s.tick = .audioCleared
  | .tickExit => s.tick = .sleeping ∧ s.stop = .requested
  | .pushVideo _ => True
  | .pushAudio _ => True
  | .exportLock _ => s.mutex = .free
  | .exportCreate => s.mutex = .export ∧ s.run.created = false
  | .exportList => s.mutex = .export ∧ s.run.created = true ∧ s.run.listed = none
  | .exportFind => s.mutex = .export ∧ s.run.listed ≠ none ∧ s.run.found = none
  | .exportRead =>
    s.mutex = .export ∧ s.run.found = some true ∧ s.run.read.length < s.run.slots.length
  | .exportUnlock _ => s.mutex = .export ∧ s.run.Ended
  | .stopRequest => s.stop = .running
  | .stopJoin => s.stop = .requested ∧ s.tick = .exited
  | .stopRemove _ => s.stop = .removing
  | .stopRemoveList => s.stop = .removing
  | .stopRemoved dirGone => s.stop = .removing ∧ (dirGone = true → s.listTxt = false)
  | .stopReset => s.stop = .removed

instance (s : ThreadState) (a : Action) : Decidable (s.enabled a) :=
  match a with
  | .tickBegin => inferInstanceAs (Decidable (_ ∧ _))
  | .tickLock => inferInstanceAs (Decidable (_ ∧ _))
  | .tickTakeVideo => inferInstanceAs (Decidable (_ = _))
  | .tickTakeAudio => inferInstanceAs (Decidable (_ = _))
  | .tickMux _ => inferInstanceAs (Decidable (_ = _))
  | .tickUnlock => inferInstanceAs (Decidable (_ = _))
  | .tickClearVideo => inferInstanceAs (Decidable (_ = _))
  | .tickClearAudio => inferInstanceAs (Decidable (_ = _))
  | .tickAdvance => inferInstanceAs (Decidable (_ = _))
  | .tickExit => inferInstanceAs (Decidable (_ ∧ _))
  | .pushVideo _ => inferInstanceAs (Decidable True)
  | .pushAudio _ => inferInstanceAs (Decidable True)
  | .exportLock _ => inferInstanceAs (Decidable (_ = _))
  | .exportCreate => inferInstanceAs (Decidable (_ ∧ _))
  | .exportList => inferInstanceAs (Decidable (_ ∧ _ ∧ _))
  | .exportFind => inferInstanceAs (Decidable (_ ∧ _ ≠ _ ∧ _))
  | .exportRead => inferInstanceAs (Decidable (_ ∧ _ ∧ _ < _))
  | .exportUnlock _ => inferInstanceAs (Decidable (_ ∧ _))
  | .stopRequest => inferInstanceAs (Decidable (_ = _))
  | .stopJoin => inferInstanceAs (Decidable (_ ∧ _))
  | .stopRemove _ => inferInstanceAs (Decidable (_ = _))
  | .stopRemoveList => inferInstanceAs (Decidable (_ = _))
  | .stopRemoved _ => inferInstanceAs (Decidable (_ ∧ (_ → _)))
  | .stopReset => inferInstanceAs (Decidable (_ = _))

/-- `save_av_to_ts` of the running tick, on the snapshots it has taken. -/
def ThreadState.save (cfg : Config) (env : SegmentEnv) (s : ThreadState) (calls : MuxCalls) :
    SaveOutcome :=
  saveAvToTs env calls (segPath cfg s.idx) s.video.snapshotFrames s.audio.snapshotFrames
    ((s.disk s.idx).map SegmentFile.file)

/-- The file of the slot after the save: whole, as it was, or cut short. -/
def ThreadState.savedFile (cfg : Config) (env : SegmentEnv) (s : ThreadState)
    (calls : MuxCalls) : Option SegmentFile :=
  let out := s.save cfg env calls
  if out.result.failed then
    if out.file = (s.disk s.idx).map SegmentFile.file then s.disk s.idx
    else out.file.map fun f => { file := f }
  else out.file.map fun f => { file := f, tick := some s.seq }

def ThreadState.next (cfg : Config) (env : SegmentEnv) (s : ThreadState) :
    Action → ThreadState
  -- the slot is chosen before the mutex is taken
  | .tickBegin => { s with tick := .chosen, idx := s.seq % cfg.ringSize }
  | .tickLock => { s with tick := .locked, mutex := .tick }
  | .tickTakeVideo => { s with tick := .videoTaken, video := s.video.take }
  | .tickTakeAudio => { s with tick := .audioTaken, audio := s.audio.take }
  | .tickMux calls =>
    { s with
      tick := .muxed
      disk := Function.update s.disk s.idx (s.savedFile cfg env calls)
      saveOk := !(s.save cfg env calls).result.failed }
  | .tickUnlock =>
    -- an error returns from the tick, and the guard releases the mutex either way
    if s.saveOk then { s with tick := .unlocked, mutex := .free }
    else { s with tick := .sleeping, mutex := .free, video := s.video.giveUp,
                  audio := s.audio.giveUp }
  | .tickClearVideo => { s with tick := .videoCleared, video := s.video.clear }
  | .tickClearAudio => { s with tick := .audioCleared, audio := s.audio.clear }
  | .tickAdvance => { s with tick := .sleeping, seq := s.seq + 1 }
  | .tickExit => { s with tick := .exited }
  | .pushVideo frame => { s with video := s.video.push frame }
  | .pushAudio frame => { s with audio := s.audio.push frame }
  | .exportLock segments => { s with mutex := .export, run := { segments := segments } }
  -- the stream is opened, which a directory that is gone does not allow; nobody looks at that
  | .exportCreate => { s with listTxt := s.dir, run := { s.run with created := true } }
  | .exportList =>
    -- `list.txt` names the slots; what they hold at this moment is recorded with them
    { s with
      run :=
        { s.run with
          listed := some ((exportWindow cfg s.seq s.run.segments).map
            fun idx => (idx, s.disk idx)) } }
  | .exportFind => { s with run := { s.run with found := some s.listTxt } }
  | .exportRead =>
    { s with run := { s.run with read := s.run.read ++ [s.disk s.run.nextSlot] } }
  -- `list.txt` is removed when ffmpeg has returned 0, and left where it is otherwise
  | .exportUnlock succeeded =>
    { s with
      mutex := .free
      listTxt := s.listTxt && !succeeded
      exported := s.exported ++ [s.run] }
  | .stopRequest => { s with stop := .requested }
  | .stopJoin => { s with stop := .removing }
  -- `remove_all` unlinks one file after the other, in any order
  | .stopRemove idx => { s with disk := Function.update s.disk idx none }
  | .stopRemoveList => { s with listTxt := false }
  -- the segments that are left go with their directory, which has to be empty of other files
  | .stopRemoved dirGone =>
    { s with
      stop := .removed
      dir := !dirGone
      disk := if dirGone then fun _ => none else s.disk }
  | .stopReset => { s with stop := .stopped, seq := 0 }

/-! ## The system -/

/-- The state that `RollingSegment::start` leaves: empty buffers of some capacity, and
    whatever files an earlier run has left in the directory. -/
def ThreadState.started (videoCapacity audioCapacity : Nat) (stale : Nat → Option TsFile) :
    ThreadState :=
  { disk := fun idx => (stale idx).map fun f => { file := f }
    video := { buf := { capacity := videoCapacity } }
    audio := { buf := { capacity := audioCapacity } } }

def segmenterSystem (cfg : Config) (env : SegmentEnv) : System ThreadState Action :=
  System.ofCommands
    (fun s => ∃ videoCapacity audioCapacity stale,
      s = ThreadState.started videoCapacity audioCapacity stale)
    ThreadState.enabled (ThreadState.next cfg env)

/-- An enabled action is the next step of a run. -/
theorem run_cons_of_enabled (cfg : Config) (env : SegmentEnv) {s : ThreadState} {a : Action}
    (as : List Action) (hen : s.enabled a) :
    run (segmenterSystem cfg env) anyStep s (a :: as) =
      run (segmenterSystem cfg env) anyStep (s.next cfg env a) as :=
  run_ofCommands_cons as hen

/-! ## A tick that nothing interrupts -/

/-- The buffer without the numbers of its frames. -/
def FrameStream.frames {α : Type} (st : FrameStream α) : CircularBuffer α :=
  { buffer := st.buf.buffer.map Pushed.frame, capacity := st.buf.capacity }

/-- What one thread sees of the state: the histories are forgotten. -/
def ThreadState.segmenter (s : ThreadState) : Segmenter :=
  { seq := s.seq
    disk := fun idx => (s.disk idx).map SegmentFile.file
    video := s.video.frames
    audio := s.audio.frames }

/-- What the save leaves in the slot is what `save_av_to_ts` leaves there. -/
theorem file_savedFile (cfg : Config) (env : SegmentEnv) (s : ThreadState)
    (calls : MuxCalls) :
    (s.savedFile cfg env calls).map SegmentFile.file = (s.save cfg env calls).file := by
  unfold ThreadState.savedFile
  cases hres : (s.save cfg env calls).result.failed with
  | false => simp [hres, Function.comp_def]
  | true =>
    by_cases hsame : (s.save cfg env calls).file = (s.disk s.idx).map SegmentFile.file
    · simp [hres, hsame]
    · simp [hres, hsame, Function.comp_def]

/-- The steps of one tick, whose save has the given result. -/
def tickActions (calls : MuxCalls) (failed : Bool) : List Action :=
  [.tickBegin, .tickLock, .tickTakeVideo, .tickTakeAudio, .tickMux calls, .tickUnlock] ++
    if failed then [] else [.tickClearVideo, .tickClearAudio, .tickAdvance]

/-- The state in which the tick calls `save_av_to_ts`. -/
def ThreadState.beforeSave (cfg : Config) (s : ThreadState) : ThreadState :=
  { s with
    tick := .audioTaken, idx := s.seq % cfg.ringSize, mutex := .tick,
    video := s.video.take, audio := s.audio.take }

/-- The steps of the tick lead there, and through the save. -/
theorem run_tickMux (cfg : Config) (env : SegmentEnv) (calls : MuxCalls) {s : ThreadState}
    (hsleep : s.tick = .sleeping) (hrunning : s.stop = .running) (hfree : s.mutex = .free)
    (rest : List Action) :
    run (segmenterSystem cfg env) anyStep s
        (.tickBegin :: .tickLock :: .tickTakeVideo :: .tickTakeAudio :: .tickMux calls :: rest) =
      run (segmenterSystem cfg env) anyStep
        ((s.beforeSave cfg).next cfg env (.tickMux calls)) rest := by
  rw [run_cons_of_enabled, run_cons_of_enabled, run_cons_of_enabled, run_cons_of_enabled,
    run_cons_of_enabled]
  · exact rfl
  · exact rfl
  · exact rfl
  · exact rfl
  · exact ⟨rfl, hfree⟩
  · exact ⟨hsleep, hrunning⟩

/-- The save writes the slot that one thread alone would write. -/
theorem disk_tickMux (cfg : Config) (env : SegmentEnv) (calls : MuxCalls) (s : ThreadState) :
    (fun idx => (((s.beforeSave cfg).next cfg env (.tickMux calls)).disk idx).map
        SegmentFile.file) =
      Function.update s.segmenter.disk (s.segmenter.nextSlot cfg)
        (s.segmenter.save cfg env calls).file := by
  have h := Function.comp_update (Option.map SegmentFile.file) (s.beforeSave cfg).disk
    (s.beforeSave cfg).idx ((s.beforeSave cfg).savedFile cfg env calls)
  rw [file_savedFile] at h
  exact h

/-- Whether the save has succeeded decides how the tick goes on. -/
theorem saveOk_tickMux (cfg : Config) (env : SegmentEnv) (calls : MuxCalls) (s : ThreadState) :
    ((s.beforeSave cfg).next cfg env (.tickMux calls)).saveOk =
      !(s.segmenter.save cfg env calls).result.failed :=
  rfl

/-- **Refinement**: the steps of a tick, taken without an interruption from a state in
    which the mutex is free, do what `tickSaveOneSegment` does. -/
theorem tick_refines (cfg : Config) (env : SegmentEnv) (calls : MuxCalls) (s : ThreadState)
    (hsleep : s.tick = .sleeping) (hrunning : s.stop = .running) (hfree : s.mutex = .free) :
    ∃ s', run (segmenterSystem cfg env) anyStep s
        (tickActions calls (s.segmenter.save cfg env calls).result.failed) = some s' ∧
      s'.segmenter = (tickSaveOneSegment cfg env calls s.segmenter).2 ∧
      s'.tick = .sleeping ∧ s'.mutex = .free := by
  have hdisk := disk_tickMux cfg env calls s
  have hsteps := run_tickMux cfg env calls hsleep hrunning hfree
  have hsaveOk := saveOk_tickMux cfg env calls s
  -- the state after the save
  generalize ht : (s.beforeSave cfg).next cfg env (.tickMux calls) = t at hdisk hsteps hsaveOk
  cases hres : (s.segmenter.save cfg env calls).result with
  | ok u =>
    have hok : t.saveOk = true := by
      rw [hsaveOk, hres]
      rfl
    have hunlock : t.next cfg env .tickUnlock = { t with tick := .unlocked, mutex := .free } :=
      if_pos hok
    refine ⟨{ t with
        tick := .sleeping, mutex := .free, seq := t.seq + 1,
        video := t.video.clear, audio := t.audio.clear }, ?_, ?_, rfl, rfl⟩
    · -- the save has succeeded: both clears and the advance follow
      apply (hsteps _).trans
      show run (segmenterSystem cfg env) anyStep _
        [.tickUnlock, .tickClearVideo, .tickClearAudio, .tickAdvance] = _
      rw [run_cons_of_enabled, hunlock, run_cons_of_enabled, run_cons_of_enabled,
        run_cons_of_enabled]
      · exact rfl
      · exact rfl
      · exact rfl
      · exact rfl
      · rw [← ht]
        exact rfl
    · rw [tick_of_ok hres, ← hdisk, ← ht]
      rfl
  | error e =>
    have hok : t.saveOk = false := by
      rw [hsaveOk, hres]
      rfl
    have hunlock : t.next cfg env .tickUnlock =
        { t with
          tick := .sleeping, mutex := .free, video := t.video.giveUp,
          audio := t.audio.giveUp } :=
      if_neg (by rw [hok]; exact Bool.false_ne_true)
    refine ⟨{ t with
        tick := .sleeping, mutex := .free, video := t.video.giveUp,
        audio := t.audio.giveUp }, ?_, ?_, rfl, rfl⟩
    · -- the save has failed, and the tick ends where it releases the mutex
      apply (hsteps _).trans
      show run (segmenterSystem cfg env) anyStep _ [.tickUnlock] = _
      rw [run_cons_of_enabled, hunlock]
      · exact rfl
      · rw [← ht]
        exact rfl
    · have hfail : (s.segmenter.save cfg env calls).result.failed = true := by
        rw [hres]
        rfl
      rw [tick_of_failed hfail, ← hdisk, ← ht]
      rfl

end AVCapture.Core
