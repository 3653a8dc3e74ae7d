import AVCapture.Lib.Transition
import AVCapture.Utils.Error

/-!
# Starting and Stopping the Media Recorder

Model of `MediaRecorder::start`, `stop` and `is_recording` (`core/MediaRecorder.cpp`) with
what they call: `RollingSegment::start` and `stop`, `ScreenRecorderBase::start` and `stop`,
`VideoEncoderQueue::start` and `stop`, `AudioCapturer::start` and `stop`, `AudioMixer::start`
and `stop`.

A failing `start` leaves behind what it has acquired so far. What a `stop` releases depends
on the flag of each component; the flag of the audio capturer is set only when both streams
run.

## Main results

- `stopUndoesStart_iff_flags`: `stop` releases everything exactly when the flags are right
- `stopUndoesStart_iff`: the runs of `start` and `stop` in which it always does
-/

namespace AVCapture.Core

open AVCapture.Utils Transition

/-! ## The machine -/

/-- An `RtAudio` stream. -/
inductive StreamState where
  | closed
  | opened
  | running
  deriving DecidableEq, Repr

/-- `system_device_id_` and `mic_device_id_`. An `initialize` that finds neither device
    fails. -/
structure AudioDevices where
  system : Int
  mic : Int
  found : ¬ (system < 0 ∧ mic < 0)

def AudioDevices.UsesSystem (d : AudioDevices) : Prop := 0 ≤ d.system

def AudioDevices.UsesMic (d : AudioDevices) : Prop := 0 ≤ d.mic ∧ d.system ≠ d.mic

instance (d : AudioDevices) : Decidable d.UsesSystem := inferInstanceAs (Decidable (_ ≤ _))

instance (d : AudioDevices) : Decidable d.UsesMic := inferInstanceAs (Decidable (_ ∧ _))

/-- Which calls of one `start` succeed; for the segment directory, the message of the error
    if there is one. -/
structure StartCalls where
  createDirectories : Option String := none
  systemOpen : Bool := true
  systemStart : Bool := true
  micOpen : Bool := true
  micStart : Bool := true
  deriving DecidableEq, Repr

/-- The threads and streams of an initialized recorder, and the flags that guard the
    `stop`s: `tick` is `th_` of the segmenter, `capture` and `isRecording` are the screen
    recorder's, `encoding` is that of its queue, `mixer` and `isCapturing` are of the audio
    capturer. -/
structure RecorderResources where
  tick : Bool := false
  capture : Bool := false
  isRecording : Bool := false
  encoding : Bool := false
  system : StreamState := .closed
  mic : StreamState := .closed
  mixer : Bool := false
  isCapturing : Bool := false
  deriving DecidableEq, Repr

/-- `openStream`, then `startStream`. A stream that is open cannot be opened again. -/
def openAndStart (openText startText : String) (opens starts : Bool) (stream : StreamState) :
    VoidResult × StreamState :=
  if stream ≠ .closed ∨ opens = false then (.error (makeError.withContext openText), stream)
  else if starts = false then (.error (makeError.withContext startText), .opened)
  else (.ok (), .running)

namespace RecorderResources

/-- `RollingSegment::start` -/
def startSegmenter (s : RecorderResources) (calls : StartCalls) :
    VoidResult × RecorderResources :=
  if s.tick then (.ok (), s)
  else
    match calls.createDirectories with
    | some message =>
      (.error (makeError.withContext ("create directories failed with: " ++ message)), s)
    | none => (.ok (), { s with tick := true })

/-- `ScreenRecorderBase::start`, with that of the encoder queue. -/
def startScreen (s : RecorderResources) : VoidResult × RecorderResources :=
  if s.isRecording then
    (.error (makeError.withContext
      "Failed to start since recording thread is already running"), s)
  else (.ok (), { s with isRecording := true, encoding := true, capture := true })

/-- The system part of `AudioCapturer::start`. -/
def startSystem (devices : AudioDevices) (s : RecorderResources) (calls : StartCalls) :
    VoidResult × RecorderResources :=
  if devices.UsesSystem then
    let (res, stream) := openAndStart "Failed to open system audio"
      "Failed starting system capture" calls.systemOpen calls.systemStart s.system
    (res, { s with system := stream })
  else (.ok (), s)

def startMic (devices : AudioDevices) (s : RecorderResources) (calls : StartCalls) :
    VoidResult × RecorderResources :=
  if devices.UsesMic then
    let (res, stream) := openAndStart "Failed to open mic audio" "Failed starting mic capture"
      calls.micOpen calls.micStart s.mic
    (res, { s with mic := stream })
  else (.ok (), s)

/-- The microphone part, and what comes after both streams. -/
def startMicAndMixer (devices : AudioDevices) (s : RecorderResources) (calls : StartCalls) :
    VoidResult × RecorderResources :=
  match s.startMic devices calls with
  | (.error e, s) => (.error e, s)
  | (.ok (), s) => (.ok (), { s with mixer := true, isCapturing := true })

/-- `AudioCapturer::start` -/
def startAudio (devices : AudioDevices) (s : RecorderResources) (calls : StartCalls) :
    VoidResult × RecorderResources :=
  if s.isCapturing then
    (.error (makeError.withContext
      "Failed to start since capture threads are already running"), s)
  else
    match s.startSystem devices calls with
    | (.error e, s) => (.error e, s)
    | (.ok (), s) => s.startMicAndMixer devices calls

/-- `MediaRecorder::start` -/
def start (devices : AudioDevices) (s : RecorderResources) (calls : StartCalls) :
    VoidResult × RecorderResources :=
  match s.startSegmenter calls with
  | (.error e, s) => (.error (e.withContext "Failed starting rolling segmenter"), s)
  | (.ok (), s) =>
    match s.startScreen with
    | (.error e, s) => (.error (e.withContext "Failed starting screen recorder"), s)
    | (.ok (), s) =>
      match s.startAudio devices calls with
      | (.error e, s) => (.error (e.withContext "Failed starting audio capturer"), s)
      | (.ok (), s) => (.ok (), s)

/-- `RollingSegment::stop` -/
def stopSegmenter (s : RecorderResources) : RecorderResources := { s with tick := false }

/-- `AudioCapturer::stop`. A `stopStream` that fails is only logged, and `closeStream` closes
    the stream all the same. -/
def stopAudio (s : RecorderResources) : RecorderResources :=
  if s.isCapturing then
    { s with system := .closed, mic := .closed, mixer := false, isCapturing := false }
  else s

/-- `ScreenRecorderBase::stop`, with that of the encoder queue. -/
def stopScreen (s : RecorderResources) : RecorderResources :=
  if s.isRecording then { s with isRecording := false, capture := false, encoding := false }
  else s

/-- `MediaRecorder::stop` -/
def stop (s : RecorderResources) : RecorderResources := s.stopSegmenter.stopAudio.stopScreen

/-- `MediaRecorder::is_recording` -/
def recording (s : RecorderResources) : Bool := s.isCapturing || s.isRecording

/-- No stream is open, no thread is running, and the recorder says so. -/
def Released (s : RecorderResources) : Prop :=
  s.system = .closed ∧ s.mic = .closed ∧ s.tick = false ∧ s.capture = false ∧
    s.encoding = false ∧ s.mixer = false ∧ s.recording = false

/-- A `stop` in this state releases everything, and a `start` after it whose calls all
    succeed is a success. -/
def StopUndoesStart (devices : AudioDevices) (s : RecorderResources) : Prop :=
  s.stop.Released ∧ (s.stop.start devices {}).1 = .ok ()

end RecorderResources

inductive LifecycleCall where
  | start (calls : StartCalls)
  | stop
  deriving DecidableEq, Repr

def RecorderResources.next (devices : AudioDevices) (s : RecorderResources) :
    LifecycleCall → RecorderResources
  | .start calls => (s.start devices calls).2
  | .stop => s.stop

def lifecycle (devices : AudioDevices) : System RecorderResources LifecycleCall :=
  System.ofCommands (fun s => s = {}) (fun _ _ => True) (RecorderResources.next devices)

/-- The calls of a start that open a stream and fail after it: the stream is opened but does
    not start, or the system stream runs and the microphone stream is not brought up. -/
def StartCalls.LeakStream (devices : AudioDevices) (calls : StartCalls) : Prop :=
  (devices.UsesSystem ∧ calls.systemOpen = true ∧
      (calls.systemStart = false ∨
        (devices.UsesMic ∧ (calls.micOpen = false ∨ calls.micStart = false)))) ∨
    (¬ devices.UsesSystem ∧ devices.UsesMic ∧ calls.micOpen = true ∧ calls.micStart = false)

/-- The condition on a call: a start that comes to the audio capturer does not leak a
    stream. It comes there when the segmenter starts and the screen is not recorded yet. -/
def RecorderResources.LeakFree (devices : AudioDevices) (s : RecorderResources) :
    LifecycleCall → Prop
  | .start calls => (s.tick = true ∨ calls.createDirectories = none) → s.isRecording = false →
      ¬ calls.LeakStream devices
  | .stop => True

/-! ## What the flags stand for -/

/-- Every resource is behind a flag that is set. -/
def RecorderResources.FlagsCover (s : RecorderResources) : Prop :=
  (s.isCapturing = false → s.system = .closed ∧ s.mic = .closed ∧ s.mixer = false) ∧
    (s.isRecording = false → s.capture = false ∧ s.encoding = false)

section Flags

variable {devices : AudioDevices} {s : RecorderResources}

theorem released_stop (h : s.FlagsCover) : s.stop = {} := by
  obtain ⟨tick, capture, isRecording, encoding, system, mic, mixer, isCapturing⟩ := s
  obtain ⟨haudio, hvideo⟩ := h
  -- what a flag guards is released by the stop, or was not in use
  cases isCapturing with
  | true =>
    cases isRecording with
    | true => rfl
    | false =>
      obtain ⟨rfl, rfl⟩ := hvideo rfl
      rfl
  | false =>
    obtain ⟨rfl, rfl, rfl⟩ := haudio rfl
    cases isRecording with
    | true => rfl
    | false =>
      obtain ⟨rfl, rfl⟩ := hvideo rfl
      rfl

theorem flagsCover_of_released_stop (h : s.stop.Released) : s.FlagsCover := by
  obtain ⟨tick, capture, isRecording, encoding, system, mic, mixer, isCapturing⟩ := s
  obtain ⟨hsystem, hmic, _, hcapture, hencoding, hmixer, _⟩ := h
  refine ⟨?_, ?_⟩
  · -- without the flag the stop has left the audio capturer alone
    intro hflag
    cases hflag
    cases isRecording with
    | true => exact ⟨hsystem, hmic, hmixer⟩
    | false => exact ⟨hsystem, hmic, hmixer⟩
  · intro hflag
    cases hflag
    cases isCapturing with
    | true => exact ⟨hcapture, hencoding⟩
    | false => exact ⟨hcapture, hencoding⟩

/-- With nothing in use a start succeeds if its calls do. -/
theorem start_ok (devices : AudioDevices) :
    (RecorderResources.start devices {} {}).1 = .ok () := by
  by_cases hsystem : devices.UsesSystem <;> by_cases hmic : devices.UsesMic <;>
    simp [RecorderResources.start, RecorderResources.startSegmenter,
      RecorderResources.startScreen, RecorderResources.startAudio,
      RecorderResources.startMicAndMixer, RecorderResources.startSystem,
      RecorderResources.startMic, openAndStart, hsystem, hmic]

/-- **Stopping and the flags**: a stop undoes what was started exactly when every resource is
    behind a flag that is set. -/
theorem stopUndoesStart_iff_flags : s.StopUndoesStart devices ↔ s.FlagsCover := by
  refine ⟨fun h => flagsCover_of_released_stop h.1, fun h => ?_⟩
  unfold RecorderResources.StopUndoesStart
  rw [released_stop h]
  exact ⟨⟨rfl, rfl, rfl, rfl, rfl, rfl, rfl⟩, start_ok devices⟩

end Flags

/-! ## Every run -/

section Runs

variable {devices : AudioDevices} {s : RecorderResources}

/-- Bringing up the system stream changes nothing else. -/
theorem startSystem_frame (devices : AudioDevices) (s : RecorderResources) (calls : StartCalls) :
    ∃ res stream, s.startSystem devices calls = (res, { s with system := stream }) := by
  unfold RecorderResources.startSystem
  split
  · exact ⟨_, _, rfl⟩
  · exact ⟨_, s.system, rfl⟩

theorem startMic_frame (devices : AudioDevices) (s : RecorderResources) (calls : StartCalls) :
    ∃ res stream, s.startMic devices calls = (res, { s with mic := stream }) := by
  unfold RecorderResources.startMic
  split
  · exact ⟨_, _, rfl⟩
  · exact ⟨_, s.mic, rfl⟩

theorem startAudio_isRecording (s : RecorderResources) (calls : StartCalls) :
    (s.startAudio devices calls).2.isRecording = s.isRecording := by
  unfold RecorderResources.startAudio
  split
  · rfl
  · obtain ⟨res, stream, hsystem⟩ := startSystem_frame devices s calls
    rw [hsystem]
    cases res with
    | error e => rfl
    | ok =>
      obtain ⟨res, stream', hmic⟩ :=
        startMic_frame devices { s with system := stream } calls
      simp only [RecorderResources.startMicAndMixer, hmic]
      cases res with
      | error e => rfl
      | ok => rfl

/-- **Spec of the microphone part**: what it leaves is behind the flag exactly when the
    microphone stream is not used, or is brought up, or fails to open with the other stream
    closed. -/
theorem startMicAndMixer_flagsCover_iff (devices : AudioDevices) (s : RecorderResources)
    (hcapturing : s.isCapturing = false) (hmic : s.mic = .closed) (hmixer : s.mixer = false)
    (hrecording : s.isRecording = true) (calls : StartCalls) :
    (s.startMicAndMixer devices calls).2.FlagsCover ↔
      ¬ (devices.UsesMic ∧ (calls.micOpen = true ∧ calls.micStart = false ∨
        calls.micOpen = false ∧ s.system ≠ .closed)) := by
  unfold RecorderResources.startMicAndMixer RecorderResources.startMic openAndStart
    RecorderResources.FlagsCover
  by_cases huses : devices.UsesMic
  · cases hopen : calls.micOpen with
    | false => simp [huses, hmic, hmixer, hcapturing, hrecording]
    | true => cases hstart : calls.micStart <;> simp [huses, hmic, hcapturing, hrecording]
  · simp [huses, hrecording]

/-- **Spec of `AudioCapturer::start`** with nothing open: what it leaves is behind its flag
    exactly when it does not leak a stream. -/
theorem startAudio_flagsCover_iff (devices : AudioDevices) (s : RecorderResources)
    (hcapturing : s.isCapturing = false) (hsystem : s.system = .closed)
    (hmic : s.mic = .closed) (hmixer : s.mixer = false) (hrecording : s.isRecording = true)
    (calls : StartCalls) :
    (s.startAudio devices calls).2.FlagsCover ↔ ¬ calls.LeakStream devices := by
  by_cases huses : devices.UsesSystem
  · cases hopen : calls.systemOpen with
    | false =>
      -- nothing has been opened when the error is returned
      simp [RecorderResources.startAudio, RecorderResources.startSystem, openAndStart,
        StartCalls.LeakStream, RecorderResources.FlagsCover, huses, hopen, hsystem, hcapturing,
        hmic, hmixer, hrecording]
    | true =>
      cases hstart : calls.systemStart with
      | false =>
        simp [RecorderResources.startAudio, RecorderResources.startSystem, openAndStart,
          StartCalls.LeakStream, RecorderResources.FlagsCover, huses, hopen, hstart, hsystem,
          hcapturing]
      | true =>
        have hstep : s.startAudio devices calls =
            RecorderResources.startMicAndMixer devices { s with system := .running } calls := by
          simp [RecorderResources.startAudio, RecorderResources.startSystem, openAndStart, huses,
            hopen, hstart, hsystem, hcapturing]
        rw [hstep, startMicAndMixer_flagsCover_iff devices { s with system := .running }
          hcapturing hmic hmixer hrecording calls]
        -- with the system stream running, every failure of the other one leaks
        unfold StartCalls.LeakStream
        cases calls.micOpen <;> cases calls.micStart <;> simp [huses, hopen, hstart]
  · have hstep : s.startAudio devices calls = s.startMicAndMixer devices calls := by
      simp [RecorderResources.startAudio, RecorderResources.startSystem, huses, hcapturing]
    rw [hstep, startMicAndMixer_flagsCover_iff devices s hcapturing hmic hmixer hrecording]
    simp [StartCalls.LeakStream, huses, hsystem]

/-- While audio is captured the screen is recorded. -/
def RecorderResources.ScreenWithAudio (s : RecorderResources) : Prop :=
  s.isCapturing = true → s.isRecording = true

theorem startSegmenter_of_failed {calls : StartCalls} (htick : s.tick = false)
    (hdir : calls.createDirectories ≠ none) : ∃ e, s.startSegmenter calls = (.error e, s) := by
  unfold RecorderResources.startSegmenter
  cases hcreate : calls.createDirectories with
  | none => exact absurd hcreate hdir
  | some message =>
    rw [htick]
    exact ⟨_, rfl⟩

theorem startSegmenter_of_ok {calls : StartCalls}
    (h : s.tick = true ∨ calls.createDirectories = none) :
    s.startSegmenter calls = (.ok (), { s with tick := true }) := by
  unfold RecorderResources.startSegmenter
  cases htick : s.tick with
  | true => simp [← htick]
  | false =>
    have hdir : calls.createDirectories = none := h.resolve_left (by simp [htick])
    simp [hdir]

/-- **Spec of a start**: what it leaves is behind its flags exactly when it meets its
    condition. -/
theorem start_spec (hflags : s.FlagsCover) (hboth : s.ScreenWithAudio) (calls : StartCalls) :
    ((s.start devices calls).2.FlagsCover ↔ s.LeakFree devices (.start calls)) ∧
      (s.start devices calls).2.ScreenWithAudio := by
  by_cases hsegmenter : s.tick = true ∨ calls.createDirectories = none
  · cases hrecording : s.isRecording with
    | true =>
      -- the screen recorder refuses
      have hstep : (s.start devices calls).2 = { s with tick := true } := by
        simp [RecorderResources.start, startSegmenter_of_ok hsegmenter,
          RecorderResources.startScreen, hrecording]
      rw [hstep]
      refine ⟨⟨fun _ _ hnot => ?_, fun _ => hflags⟩, hboth⟩
      rw [hrecording] at hnot
      cases hnot
    | false =>
      -- audio is not captured either, so by its flag no stream is open
      have hcapturing : s.isCapturing = false := by
        cases hc : s.isCapturing with
        | false => rfl
        | true => exact absurd (hboth hc) (by simp [hrecording])
      obtain ⟨hsystem, hmic, hmixer⟩ := hflags.1 hcapturing
      -- from here on the start is that of the audio capturer
      have hstep : (s.start devices calls).2 = (RecorderResources.startAudio devices
          { s with tick := true, isRecording := true, encoding := true, capture := true }
          calls).2 := by
        simp only [RecorderResources.start, startSegmenter_of_ok hsegmenter,
          RecorderResources.startScreen, hrecording]
        simp only [Bool.false_eq_true, if_false]
        split <;> rename_i heq <;> rw [heq]
      rw [hstep]
      refine ⟨?_, fun _ => startAudio_isRecording _ calls⟩
      rw [startAudio_flagsCover_iff devices
        { s with tick := true, isRecording := true, encoding := true, capture := true }
        hcapturing hsystem hmic hmixer rfl calls]
      exact ⟨fun h _ _ => h, fun h => h hsegmenter hrecording⟩
  · -- the segmenter fails first, and nothing is started
    obtain ⟨htick, hdir⟩ := not_or.mp hsegmenter
    obtain ⟨e, hfailed⟩ := startSegmenter_of_failed (Bool.eq_false_iff.mpr htick) hdir
    have hstep : (s.start devices calls).2 = s := by
      simp [RecorderResources.start, hfailed]
    rw [hstep]
    exact ⟨⟨fun _ h => absurd h hsegmenter, fun _ => hflags⟩, hboth⟩

/-- One call leaves every resource behind its flag exactly when it meets its condition. -/
theorem next_flagsCover_iff (devices : AudioDevices) (hflags : s.FlagsCover)
    (hboth : s.ScreenWithAudio) (call : LifecycleCall) :
    ((s.next devices call).FlagsCover ↔ s.LeakFree devices call) ∧
      (s.next devices call).ScreenWithAudio := by
  cases call with
  | start calls => exact start_spec hflags hboth calls
  | stop =>
    show (s.stop.FlagsCover ↔ True) ∧ s.stop.ScreenWithAudio
    rw [released_stop hflags]
    exact ⟨⟨fun _ => trivial, fun _ => ⟨fun _ => ⟨rfl, rfl, rfl⟩, fun _ => ⟨rfl, rfl⟩⟩⟩, nofun⟩

end Runs

/-- **Which runs stop can undo**: after every call of a run of `start`s and `stop`s, a `stop`
    would release everything and let the next start succeed, exactly when no start of the
    run fails with a stream open. -/
theorem stopUndoesStart_iff (devices : AudioDevices) (calls : List LifecycleCall) :
    Along (lifecycle devices) (RecorderResources.StopUndoesStart devices) {} calls ↔
      Guarded (lifecycle devices) (RecorderResources.LeakFree devices) {} calls := by
  have hinv : ∀ (s : RecorderResources) (call : LifecycleCall),
      s.FlagsCover ∧ s.ScreenWithAudio → True → s.LeakFree devices call →
      (s.next devices call).FlagsCover ∧ (s.next devices call).ScreenWithAudio := by
    intro s call hI _ hok
    obtain ⟨hiff, hboth⟩ := next_flagsCover_iff devices hI.1 hI.2 call
    exact ⟨hiff.mpr hok, hboth⟩
  have hstep : ∀ (s : RecorderResources) (call : LifecycleCall),
      s.FlagsCover ∧ s.ScreenWithAudio → True →
      ((s.next devices call).StopUndoesStart devices ↔ s.LeakFree devices call) := by
    intro s call hI _
    exact stopUndoesStart_iff_flags.trans (next_flagsCover_iff devices hI.1 hI.2 call).1
  have hfresh : RecorderResources.FlagsCover {} :=
    ⟨fun _ => ⟨rfl, rfl, rfl⟩, fun _ => ⟨rfl, rfl⟩⟩
  exact along_iff_guarded_ofCommands hinv hstep ⟨hfresh, nofun⟩
    (stopUndoesStart_iff_flags.mpr hfresh) calls

/-- The microphone cannot be opened: after `stop` the system stream still runs, and a start
    whose calls all succeed is refused. -/
theorem micFails_leaksSystem :
    let devices : AudioDevices := { system := 0, mic := 1, found := by decide }
    ∃ s', run (lifecycle devices) anyStep {} [.start { micOpen := false }, .stop] = some s' ∧
      s'.system = .running ∧ s'.isCapturing = false ∧ ¬ s'.StopUndoesStart devices := by
  refine ⟨_, rfl, rfl, rfl, fun h => ?_⟩
  have hclosed := h.1.1
  revert hclosed
  decide

end AVCapture.Core
