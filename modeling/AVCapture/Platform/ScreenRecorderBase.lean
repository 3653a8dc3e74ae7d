import AVCapture.Encoding.VideoEncoderQueue
import AVCapture.Lib.Transition

/-!
# The Threads of a Screen Recorder

Model of `ScreenRecorderBase::start` and `stop` (`core/video/ScreenRecorderBase.cpp`)
around the video encoder queue:

- the **capture thread**, which hands each frame with the next timestamp to `push_frame`
- the **encoding thread** of `VideoEncoderQueue`: a loop until a stop is requested, then
  a second loop that drains the queue
- the **control thread**, which starts both, and joins the first before it stops the second
- the tick thread, which clears the encoded frames at any time

## Main results

- `videoInv_of_reach`: the timestamps are accounted for in every state of every run
- `videoTimestamps_ordered`: what that means for the encoder, the queue and the snapshots
-/

namespace AVCapture.Platform

open AVCapture.Utils AVCapture.Core AVCapture.Encoding Transition

/-! ## The machine -/

/-- How far `start` and `stop` have come. `stopped` is the state before the first start
    and after each return of `stop`. -/
inductive ControlPc where
  | stopped
  | encoderStarted
  | recording
  | captureStopRequested
  | captureJoined
  | encoderStopRequested
  | encoderJoined
  deriving DecidableEq, Repr

inductive EncodingPc where
  | absent
  | looping
  | draining
  | finished
  deriving DecidableEq, Repr

/-- `issued` records the timestamps that `get_next_frame_pts` has returned. -/
structure RecorderState where
  lastFramePts : Int := 0
  queue : VideoEncoderQueue := {}
  control : ControlPc := .stopped
  capturing : Bool := false
  encoding : EncodingPc := .absent
  issued : List Int := []

inductive RecorderAction where
  | startEncoding
  | startCapture
  | capture (data : List UInt8) (stride : Int) (enqueued : Bool)
  | captureEnd
  | encode (out : EncodeOutcome)
  | store
  | stopSeen
  | drained
  | clearFrames
  | requestStop
  | joinCapture
  | requestEncodingStop
  | joinEncoding
  | stopReturns

/-- `bound` is how many frames the queue can hold; it may refuse one earlier, when the
    producer does not yet see what the consumer has taken. -/
def RecorderState.enabled (bound : Nat) (s : RecorderState) : RecorderAction → Prop
  | .startEncoding => s.control = .stopped
  | .startCapture => s.control = .encoderStarted
  | .capture _ _ enqueued =>
    s.capturing = true ∧ (enqueued = true → s.queue.frameQueue.length < bound)
  | .captureEnd => s.capturing = true ∧ s.control = .captureStopRequested
  | .encode out =>
    (s.encoding = .looping ∨ s.encoding = .draining) ∧ s.queue.encoded = none ∧
      s.queue.frameQueue ≠ [] ∧ out.Possible s.queue.encoder
  | .store => s.queue.encoded ≠ none
  | .stopSeen =>
    s.encoding = .looping ∧ s.control = .encoderStopRequested ∧ s.queue.encoded = none
  | .drained => s.encoding = .draining ∧ s.queue.frameQueue = [] ∧ s.queue.encoded = none
  | .clearFrames => True
  | .requestStop => s.control = .recording
  | .joinCapture => s.control = .captureStopRequested ∧ s.capturing = false
  | .requestEncodingStop => s.control = .captureJoined
  | .joinEncoding => s.control = .encoderStopRequested ∧ s.encoding = .finished
  | .stopReturns => s.control = .encoderJoined

instance RecorderState.decidableEnabled (bound : Nat) (s : RecorderState)
    (a : RecorderAction) : Decidable (s.enabled bound a) := by
  cases a <;> unfold RecorderState.enabled <;> infer_instance

def RecorderState.next (s : RecorderState) : RecorderAction → RecorderState
  | .startEncoding => { s with control := .encoderStarted, encoding := .looping }
  | .startCapture => { s with control := .recording, capturing := true }
  | .capture data stride enqueued =>
    -- `push_frame(data, stride, get_next_frame_pts())`
    { s with
      lastFramePts := s.lastFramePts + 1
      issued := s.issued ++ [s.lastFramePts]
      queue := (s.queue.pushFrame data stride s.lastFramePts enqueued).2 }
  | .captureEnd => { s with capturing := false }
  | .encode out => { s with queue := s.queue.encodeNext out }
  | .store => { s with queue := s.queue.storeEncoded }
  | .stopSeen => { s with encoding := .draining }
  | .drained => { s with encoding := .finished }
  | .clearFrames => { s with queue := s.queue.clearFrames }
  | .requestStop => { s with control := .captureStopRequested }
  | .joinCapture => { s with control := .captureJoined }
  | .requestEncodingStop => { s with control := .encoderStopRequested }
  | .joinEncoding => { s with control := .encoderJoined, encoding := .absent }
  | .stopReturns => { s with control := .stopped, queue := s.queue.clearFrames }

/-- A recorder as `initialize` leaves it, for any frame size and buffer capacity. -/
def recorderSystem (bound : Nat) : System RecorderState RecorderAction :=
  System.ofCommands
    (fun s => ∃ width height capacity,
      s = { queue := { width := width, height := height,
                       encodedBuffer := { capacity := capacity } } })
    (RecorderState.enabled bound) RecorderState.next

/-! ## The invariant -/

/-- The capture thread runs between `start` and its join, the encoding thread drains
    after that, and once it has drained the queue nobody fills it again. -/
structure VideoInv (s : RecorderState) : Prop where
  ordered : VideoEncoderQueue.Ordered s.lastFramePts s.issued s.queue
  capturing : s.capturing = true → s.control = .recording ∨ s.control = .captureStopRequested
  draining : s.encoding = .draining ∨ s.encoding = .finished → s.control = .encoderStopRequested
  finished : s.encoding = .finished → s.queue.frameQueue = []
  stopped : s.control = .encoderJoined ∨ s.control = .stopped → s.queue.frameQueue = []

@[simp] theorem frameQueue_storeEncoded (q : VideoEncoderQueue) :
    q.storeEncoded.frameQueue = q.frameQueue := by
  unfold VideoEncoderQueue.storeEncoded
  cases q.encoded <;> rfl

/-- **Step**: every step keeps the invariant. -/
theorem videoInv_next {bound : Nat} {s : RecorderState} {a : RecorderAction}
    (hI : VideoInv s) (hen : s.enabled bound a) : VideoInv (s.next a) := by
  obtain ⟨hord, hcap, hdrain, hfin, hstop⟩ := hI
  -- where the control thread is tells which threads cannot be running
  have hnocap (c : ControlPc) (hc : s.control = c) (hr : c ≠ .recording)
      (hs : c ≠ .captureStopRequested) : s.capturing ≠ true := by
    intro h
    rcases hcap h with h' | h'
    · exact hr (hc.symm.trans h')
    · exact hs (hc.symm.trans h')
  have hnodrain (c : ControlPc) (hc : s.control = c) (he : c ≠ .encoderStopRequested) :
      ¬ (s.encoding = .draining ∨ s.encoding = .finished) :=
    fun h => he (hc.symm.trans (hdrain h))
  cases a with
  | startEncoding =>
    refine ⟨hord, ?_, nofun, nofun, nofun⟩
    exact fun h => absurd h (hnocap _ hen nofun nofun)
  | startCapture =>
    refine ⟨hord, fun _ => Or.inl rfl, ?_, hfin, nofun⟩
    exact fun h => absurd h (hnodrain _ hen nofun)
  | capture data stride enqueued =>
    -- the capture thread has not been joined, so nobody relies on an empty queue yet
    refine ⟨hord.pushFrame data stride enqueued, hcap, hdrain, ?_, ?_⟩
    · intro h
      have hc : s.control = .encoderStopRequested := hdrain (Or.inr h)
      exact absurd hen.1 (hnocap _ hc nofun nofun)
    · intro h
      rcases h with hc | hc
      · exact absurd hen.1 (hnocap _ hc nofun nofun)
      · exact absurd hen.1 (hnocap _ hc nofun nofun)
  | captureEnd => exact ⟨hord, nofun, hdrain, hfin, hstop⟩
  | encode out =>
    -- a queue with a frame in it is not one that has been drained
    obtain ⟨hpc, hidle, hne, hpossible⟩ := hen
    refine ⟨hord.encodeNext hidle out hpossible, hcap, hdrain, ?_, ?_⟩
    · exact fun h => absurd (hfin h) hne
    · exact fun h => absurd (hstop h) hne
  | store =>
    refine ⟨hord.storeEncoded, hcap, hdrain, ?_, ?_⟩
    · exact fun h => (frameQueue_storeEncoded s.queue).trans (hfin h)
    · exact fun h => (frameQueue_storeEncoded s.queue).trans (hstop h)
  | stopSeen => exact ⟨hord, hcap, fun _ => hen.2.1, nofun, hstop⟩
  | drained =>
    exact ⟨hord, hcap, fun _ => hdrain (Or.inl hen.1), fun _ => hen.2.1, hstop⟩
  | clearFrames => exact ⟨hord.clearFrames, hcap, hdrain, hfin, hstop⟩
  | requestStop =>
    refine ⟨hord, fun _ => Or.inr rfl, ?_, hfin, nofun⟩
    exact fun h => absurd h (hnodrain _ hen nofun)
  | joinCapture =>
    refine ⟨hord, fun h => ?_, ?_, hfin, nofun⟩
    · have hended : s.capturing = false := hen.2
      cases hended.symm.trans h
    · exact fun h => absurd h (hnodrain _ hen.1 nofun)
  | requestEncodingStop =>
    refine ⟨hord, ?_, fun _ => rfl, hfin, nofun⟩
    exact fun h => absurd h (hnocap _ hen nofun nofun)
  | joinEncoding =>
    -- what the drain loop has left empty stays empty
    refine ⟨hord, ?_, nofun, nofun, fun _ => hfin hen.2⟩
    exact fun h => absurd h (hnocap _ hen.1 nofun nofun)
  | stopReturns =>
    refine ⟨hord.clearFrames, ?_, ?_, hfin, fun _ => hstop (Or.inl hen)⟩
    · exact fun h => absurd h (hnocap _ hen nofun nofun)
    · exact fun h => absurd h (hnodrain _ hen nofun)

/-- **Run**: every state of every run has the invariant. -/
theorem videoInv_of_reach {bound : Nat} {s : RecorderState}
    (h : Reachable (recorderSystem bound) s) : VideoInv s := by
  apply h.invariant_ofCommands
  · intro s hs
    obtain ⟨width, height, capacity, rfl⟩ := hs
    exact ⟨⟨LossyQueue.Accounted.nil 0, List.Sublist.refl _⟩, nofun, by simp, nofun,
      fun _ => rfl⟩
  · intro s a hI _ hen
    exact videoInv_next hI hen

/-! ## Timestamps in every run -/

/-- **Video timestamps stay ordered.** In every run the timestamps passed to the encoder
    increase strictly; each one issued is in exactly one of the frames submitted, the
    frames queued and the frames dropped; the queue is empty when `stop` has returned; and
    what `get_encoded_frames` returns increases strictly. -/
theorem videoTimestamps_ordered (bound : Nat) (s : RecorderState)
    (h : Reachable (recorderSystem bound) s) :
    s.queue.encoder.submitted.Pairwise (· < ·) ∧
      (∀ p ∈ s.issued, s.queue.encoder.submitted.count p + s.queue.queued.count p +
        s.queue.dropped.count p = 1) ∧
      (s.control = .encoderJoined ∨ s.control = .stopped → s.queue.frameQueue = []) ∧
      (s.queue.getEncodedFrames.map EncodedVideoFrame.pts).Pairwise (· < ·) := by
  have hI := videoInv_of_reach h
  have hacc := hI.ordered.accounted
  exact ⟨hacc.delivered_increasing, fun p hp => hacc.count_eq_one hp, hI.stopped,
    hI.ordered.snapshot_increasing⟩

/-- Two sessions: in the first one a frame is dropped and one is left for the drain loop,
    in the second one the encoder gives a packet for it late. -/
def twoSessions : List RecorderAction :=
  let capture (enqueued : Bool) : RecorderAction := .capture [0, 0, 0, 255] 4 enqueued
  [.startEncoding, .startCapture, capture true, capture false, capture true, .requestStop,
    .captureEnd, .joinCapture, .encode (.packet 0 [1] 0 1), .store, .requestEncodingStop,
    .stopSeen, .encode .noPacket, .drained, .joinEncoding, .stopReturns,
    .startEncoding, .startCapture, capture true, .encode (.packet 0 [2] 2 0), .store,
    capture true, .encode (.packet 0 [3] 3 0), .store]

/-- The snapshot in the second session holds the frames of timestamps 2 and 3. -/
theorem twoSessions_snapshot :
    ∃ s, run (recorderSystem 2) anyStep { queue := { width := 1, height := 1 } }
        twoSessions = some s ∧
      s.queue.getEncodedFrames.map EncodedVideoFrame.pts = [2, 3] ∧
      (s.queue.getEncodedFrames.map EncodedVideoFrame.pts).Pairwise (· < ·) := by
  refine ⟨_, rfl, rfl, ?_⟩
  apply (videoTimestamps_ordered 2 _ _).2.2.2
  exact Reach.of_run (.init ⟨1, 1, 0, rfl⟩) twoSessions rfl

end AVCapture.Platform
