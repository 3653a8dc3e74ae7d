import AVCapture.Lib.Composition
import AVCapture.Platform.ScreenRecorderBase
import AVCapture.Utils.QueueRefinement

/-!
# The Recorder over the Lock-Free Queue

`Platform.ScreenRecorderBase` takes the queue between the capture thread and the encoding thread
for one whose operations happen at one moment. Here the same threads call the lock-free queue of
`Utils.ReaderWriterQueue`, whose every access to memory is a step of its own: `push_frame` lies
between a call and a return of `try_enqueue`, and a round of `encoding_loop` between a call and a
return of `try_dequeue`.

The threads are a client (`Lib.Composition`) of the queue. What the lock-free queue shows them an
atomic one can show them as well, and over that one they do what the recorder does.

## Main results

- `stands_step`: the recorder that the threads over an atomic queue stand for
- `videoRecorder_accounts`: every timestamp over the lock-free queue
-/

namespace AVCapture.Platform

open AVCapture.Utils AVCapture.Core AVCapture.Encoding AtomicQueue Transition

/-! ## The threads -/

/-- The frame that `push_frame` makes of its arguments. -/
def rawFrame (q : VideoEncoderQueue) (data : List UInt8) (stride pts : Int) : RawVideoFrame where
  data := data.take (stride * q.height).toNat
  stride := stride
  pts := pts
  width := q.width
  height := q.height

theorem pushFrame_eq (q : VideoEncoderQueue) (data : List UInt8) (stride pts : Int)
    (enqueued : Bool) :
    (q.pushFrame data stride pts enqueued).2 = { q with
      frameQueue := q.frameQueue ++ if enqueued then [rawFrame q data stride pts] else []
      dropped := q.dropped ++ if enqueued then [] else [pts] } := by
  cases enqueued <;> simp [VideoEncoderQueue.pushFrame, rawFrame]

/-- The threads of the recorder, with a call of `try_enqueue` and one of `try_dequeue` under way.
    The frames are in the queue itself, and not in `recorder.queue.frameQueue`. -/
structure RecorderClient where
  recorder : RecorderState := {}
  pushing : Option RawVideoFrame := none
  taking : Bool := false

inductive ClientAction where
  /-- a step without the queue -/
  | alone (a : RecorderAction)
  | pushCall (data : List UInt8) (stride : Int)
  | pushReturn (accepted : Bool)
  | takeCall
  | takeReturn (result : Option RawVideoFrame) (out : EncodeOutcome)
  /-- the queue has not found memory, which is nothing to the threads -/
  | noMemory

namespace RecorderClient

/-- The steps of a thread that is not in a call, and not about the queue. -/
def between (c : RecorderClient) : RecorderAction → Prop
  -- `push_frame` and `try_dequeue` are taken apart into a call and a return
  | .capture .. | .encode _ | .drained => False
  | .captureEnd => c.pushing = none
  | .stopSeen => c.taking = false
  | _ => True

def enabled (c : RecorderClient) : ClientAction → Prop
  | .alone a => c.between a ∧ c.recorder.enabled 0 a
  -- the timestamp is issued when `try_enqueue` is called, whatever comes of it
  | .pushCall _ _ => c.recorder.capturing = true ∧ c.pushing = none
  | .pushReturn _ => c.pushing ≠ none
  | .takeCall =>
    (c.recorder.encoding = .looping ∨ c.recorder.encoding = .draining) ∧
      c.recorder.queue.encoded = none ∧ c.taking = false
  | .takeReturn _ out => c.taking = true ∧ out.Possible c.recorder.queue.encoder
  | .noMemory => True

instance decidableBetween (c : RecorderClient) : (a : RecorderAction) → Decidable (c.between a)
  | .capture .. | .encode _ | .drained => inferInstanceAs (Decidable False)
  | .captureEnd => inferInstanceAs (Decidable (c.pushing = none))
  | .stopSeen => inferInstanceAs (Decidable (c.taking = false))
  | .startEncoding | .startCapture | .store | .clearFrames | .requestStop | .joinCapture
  | .requestEncodingStop | .joinEncoding | .stopReturns => inferInstanceAs (Decidable True)

instance decidableEnabled (c : RecorderClient) (a : ClientAction) : Decidable (c.enabled a) := by
  cases a <;> unfold enabled <;> infer_instance

/-- `try_dequeue` has returned: the frame is encoded, or the loop goes round, or is left. -/
def dequeued (r : RecorderState) (result : Option RawVideoFrame) (out : EncodeOutcome) :
    RecorderState :=
  match result with
  | some frame => { r with queue := { r.queue with frameQueue := [frame] }.encodeNext out }
  | none => if r.encoding = .draining then { r with encoding := .finished } else r

def next (c : RecorderClient) : ClientAction → RecorderClient
  | .alone a => { c with recorder := c.recorder.next a }
  | .pushCall data stride =>
    { c with
      recorder :=
        { c.recorder with
          lastFramePts := c.recorder.lastFramePts + 1
          issued := c.recorder.issued ++ [c.recorder.lastFramePts] }
      pushing := some (rawFrame c.recorder.queue data stride c.recorder.lastFramePts) }
  -- a refused frame is dropped, and its timestamp with it
  | .pushReturn accepted =>
    let refused := if accepted then [] else c.pushing.toList.map RawVideoFrame.pts
    { c with
      recorder :=
        { c.recorder with
          queue := { c.recorder.queue with dropped := c.recorder.queue.dropped ++ refused } }
      pushing := none }
  | .takeCall => { c with taking := true }
  | .takeReturn result out =>
    { c with recorder := dequeued c.recorder result out, taking := false }
  | .noMemory => c

/-- The calls and returns of the threads. -/
def events (c : RecorderClient) : ClientAction → List (Event RawVideoFrame)
  | .alone _ => []
  | .pushCall data stride =>
    [.enqueueCall (rawFrame c.recorder.queue data stride c.recorder.lastFramePts) false]
  | .pushReturn accepted => c.pushing.toList.map fun frame => .enqueueReturn frame accepted
  | .takeCall => [.lookCall .take]
  | .takeReturn result _ => [.lookReturn .take result]
  | .noMemory => [.noMemory]

end RecorderClient

/-- The threads as `initialize` leaves them, for any frame size and buffer capacity. -/
def recorderClient : Process RecorderClient (Event RawVideoFrame) :=
  .ofCommands
    (fun c => ∃ width height capacity,
      c = { recorder := { queue := { width := width, height := height,
                                     encodedBuffer := { capacity := capacity } } } })
    RecorderClient.enabled RecorderClient.next RecorderClient.events

/-- The recorder: the threads over a lock-free queue for 1024 frames. -/
def videoRecorder : Process (RecorderClient × QueueState RawVideoFrame) (Event RawVideoFrame) :=
  (readerWriterQueue RawVideoFrame (2 ^ 9) 1024).serving recorderClient

/-! ## The recorder that the threads stand for -/

section Stands

variable {c c' : RecorderClient} {t t' : State RawVideoFrame} {a : RecorderState}

/-- The capture thread: between the call and the moment of its effect the timestamp is issued
    and not yet in any place. -/
def Pushing (c : RecorderClient) (t : State RawVideoFrame) (a : RecorderState) : Prop :=
  match c.pushing with
  -- no call is under way
  | none =>
    t.producer = .idle ∧ a.lastFramePts = c.recorder.lastFramePts ∧
      a.issued = c.recorder.issued ∧ a.queue.dropped = c.recorder.queue.dropped
  | some frame =>
    -- the call has not had its effect: its timestamp is not issued yet in the recorder of the model
    (∃ saw out data stride, t.producer = .pending frame false saw out ∧
      frame = rawFrame a.queue data stride a.lastFramePts ∧
      c.recorder.lastFramePts = a.lastFramePts + 1 ∧
      c.recorder.issued = a.issued ++ [a.lastFramePts] ∧
      a.queue.dropped = c.recorder.queue.dropped) ∨
    -- the call has had its effect, and only its return is missing
    ∃ accepted, t.producer = .answered frame accepted ∧
      a.lastFramePts = c.recorder.lastFramePts ∧ a.issued = c.recorder.issued ∧
      a.queue.dropped = c.recorder.queue.dropped ++ if accepted then [] else [frame.pts]

/-- The encoding thread. When the drain loop finds nothing, nothing is there. -/
def Taking (c : RecorderClient) (t : State RawVideoFrame) : Prop :=
  if c.taking then
    (∃ saw, t.consumer = .pending .take saw ∧
      (c.recorder.encoding = .draining → saw = true → t.items = [])) ∨
    ∃ result, t.consumer = .answered .take result ∧
      (c.recorder.encoding = .draining → result = none → t.items = [])
  else t.consumer = .idle

/-- The threads and the atomic queue stand for a state of the recorder. A frame is taken out of
    the recorder's queue when the call returns. -/
structure Stands (c : RecorderClient) (t : State RawVideoFrame) (a : RecorderState) : Prop where
  inv : VideoInv a
  control : a.control = c.recorder.control
  capturing : a.capturing = c.recorder.capturing
  encoding : a.encoding = c.recorder.encoding
  queue : a.queue = { c.recorder.queue with
    frameQueue := t.consumer.held ++ t.items, dropped := a.queue.dropped }
  producer : Pushing c t a
  consumer : Taking c t
  pushing : c.pushing ≠ none → c.recorder.capturing = true
  taking : c.taking = true →
    (c.recorder.encoding = .looping ∨ c.recorder.encoding = .draining) ∧
      c.recorder.queue.encoded = none

theorem taking_iff_idle (htaking : c.taking = false) : Taking c t ↔ t.consumer = .idle := by
  simp [Taking, htaking]

/-- The encoding thread has not moved, and the queue has not if it is being drained. -/
theorem Taking.congr (h : Taking c t) (htaking : c'.taking = c.taking)
    (hconsumer : t'.consumer = t.consumer)
    (hencoding : c'.recorder.encoding = .draining →
      c.recorder.encoding = .draining ∧ t'.items = t.items) : Taking c' t' := by
  unfold Taking at h ⊢
  rw [htaking, hconsumer]
  split_ifs at h ⊢
  · -- a call under way, or one that is at its return
    rcases h with ⟨saw, hc, hnone⟩ | ⟨result, hc, hnone⟩
    · refine Or.inl ⟨saw, hc, fun hd hsaw => ?_⟩
      rw [(hencoding hd).2]
      exact hnone (hencoding hd).1 hsaw
    · refine Or.inr ⟨result, hc, fun hd hresult => ?_⟩
      rw [(hencoding hd).2]
      exact hnone (hencoding hd).1 hresult
  · exact h

theorem Taking.of_not_draining (h : Taking c t) (htaking : c'.taking = c.taking)
    (hencoding : c'.recorder.encoding ≠ .draining) : Taking c' t :=
  h.congr htaking rfl fun hd => absurd hd hencoding

theorem Taking.of_pending (h : Taking c t) {op : Look} {saw : Bool}
    (hc : t.consumer = .pending op saw) : c.taking = true ∧ op = .take ∧
      (c.recorder.encoding = .draining → saw = true → t.items = []) := by
  unfold Taking at h
  split_ifs at h with htaking
  · -- the call has been made and is not yet answered
    rcases h with ⟨saw', hc', hnone⟩ | ⟨result, hc', -⟩
    · cases hc.symm.trans hc'
      exact ⟨htaking, rfl, hnone⟩
    · cases hc.symm.trans hc'
  · cases hc.symm.trans h

theorem Taking.of_answered (h : Taking c t) {op : Look} {result : Option RawVideoFrame}
    (hc : t.consumer = .answered op result) : c.taking = true ∧ op = .take ∧
      (c.recorder.encoding = .draining → result = none → t.items = []) := by
  unfold Taking at h
  split_ifs at h with htaking
  · -- the call has had its answer and has not returned it
    rcases h with ⟨saw', hc', -⟩ | ⟨result, hc', hnone⟩
    · cases hc.symm.trans hc'
    · cases hc.symm.trans hc'
      exact ⟨htaking, rfl, hnone⟩
  · cases hc.symm.trans h

/-- Before the moment of its effect. -/
structure Offered (c : RecorderClient) (a : RecorderState) (frame : RawVideoFrame) : Prop where
  pushing : c.pushing = some frame
  frame : ∃ data stride, frame = rawFrame a.queue data stride a.lastFramePts
  lastFramePts : c.recorder.lastFramePts = a.lastFramePts + 1
  issued : c.recorder.issued = a.issued ++ [a.lastFramePts]
  dropped : a.queue.dropped = c.recorder.queue.dropped

theorem Pushing.of_pending (h : Pushing c t a) {frame : RawVideoFrame} {mayGrow saw out : Bool}
    (hp : t.producer = .pending frame mayGrow saw out) : mayGrow = false ∧ Offered c a frame := by
  unfold Pushing at h
  split at h
  case h_1 => cases hp.symm.trans h.1
  case h_2 frame' hpushing =>
    -- the two places at which the call can be
    rcases h with ⟨saw', out', data, stride, hp', hframe, hrest⟩ | ⟨accepted, hp', -⟩
    · cases hp.symm.trans hp'
      exact ⟨rfl, hpushing, ⟨data, stride, hframe⟩, hrest.1, hrest.2.1, hrest.2.2⟩
    · cases hp.symm.trans hp'

theorem Offered.pushing_pending {frame : RawVideoFrame} (h : Offered c a frame) {saw out : Bool}
    (hp : t'.producer = .pending frame false saw out) : Pushing c t' a := by
  obtain ⟨data, stride, hframe⟩ := h.frame
  unfold Pushing
  rw [h.pushing]
  exact Or.inl ⟨saw, out, data, stride, hp, hframe, h.lastFramePts, h.issued, h.dropped⟩

theorem Offered.pushing_answered {frame : RawVideoFrame} (h : Offered c a frame) {accepted : Bool}
    {a' : RecorderState} (hp : t'.producer = .answered frame accepted)
    (hlast : a'.lastFramePts = a.lastFramePts + 1)
    (hissued : a'.issued = a.issued ++ [a.lastFramePts])
    (hdropped : a'.queue.dropped = a.queue.dropped ++ if accepted then [] else [frame.pts]) :
    Pushing c t' a' := by
  unfold Pushing
  rw [h.pushing]
  refine Or.inr ⟨accepted, hp, ?_, ?_, ?_⟩
  · rw [hlast, h.lastFramePts]
  · rw [hissued, h.issued]
  · rw [hdropped, h.dropped]

theorem Pushing.of_answered (h : Pushing c t a) {frame : RawVideoFrame} {accepted : Bool}
    (hp : t.producer = .answered frame accepted) : c.pushing = some frame ∧
      a.lastFramePts = c.recorder.lastFramePts ∧ a.issued = c.recorder.issued ∧
      a.queue.dropped = c.recorder.queue.dropped ++ if accepted then [] else [frame.pts] := by
  unfold Pushing at h
  split at h
  case h_1 => cases hp.symm.trans h.1
  case h_2 frame' hpushing =>
    rcases h with ⟨_, _, _, _, hp', -⟩ | ⟨accepted', hp', hrest⟩
    · cases hp.symm.trans hp'
    · cases hp.symm.trans hp'
      exact ⟨hpushing, hrest⟩

namespace Stands

theorem encoded (h : Stands c t a) : a.queue.encoded = c.recorder.queue.encoded := by
  rw [h.queue]

theorem encoder (h : Stands c t a) : a.queue.encoder = c.recorder.queue.encoder := by
  rw [h.queue]

theorem frameQueue (h : Stands c t a) : a.queue.frameQueue = t.consumer.held ++ t.items := by
  rw [h.queue]

theorem queue_with (h : Stands c t a) (frames : List RawVideoFrame) (dropped : List Int) :
    ({ a.queue with frameQueue := frames, dropped := dropped } : VideoEncoderQueue) =
      { c.recorder.queue with frameQueue := frames, dropped := dropped } := by
  rw [h.queue]

/-- When the encoding thread drains the queue, nobody pushes. -/
theorem pushing_of_draining (h : Stands c t a) (hdraining : c.recorder.encoding = .draining) :
    c.pushing = none := by
  by_contra hpushing
  -- a push is under way, so that the capture thread is still alive and has not been joined
  have hcapturing : a.capturing = true := h.capturing.trans (h.pushing hpushing)
  have hstop : a.control = .encoderStopRequested :=
    h.inv.draining (Or.inl (h.encoding.trans hdraining))
  rcases h.inv.capturing hcapturing with hc | hc <;> cases hc.symm.trans hstop

/-! ### Steps without the queue -/

theorem enabled (h : Stands c t a) {act : RecorderAction} (hb : c.between act)
    (hen : c.recorder.enabled 0 act) : a.enabled 0 act := by
  have hencoded := h.encoded
  cases act with
  -- the steps that are about the queue are not steps of a thread alone
  | capture | encode | drained => exact hb.elim
  | clearFrames => trivial
  | _ =>
    simp only [RecorderState.enabled, h.control, h.capturing, h.encoding, hencoded] at hen ⊢
    exact hen

theorem storeEncoded_eq (h : Stands c t a) :
    a.queue.storeEncoded = { c.recorder.queue.storeEncoded with
      frameQueue := t.consumer.held ++ t.items, dropped := a.queue.dropped } := by
  have hcases (q : VideoEncoderQueue) (frames : List RawVideoFrame) (dropped : List Int) :
      ({ q with frameQueue := frames, dropped := dropped } : VideoEncoderQueue).storeEncoded =
        { q.storeEncoded with frameQueue := frames, dropped := dropped } := by
    obtain ⟨_, _, _, _, encoded, _, _⟩ := q
    cases encoded <;> rfl
  rw [← hcases, ← h.queue]

theorem dropped_storeEncoded (q : VideoEncoderQueue) : q.storeEncoded.dropped = q.dropped := by
  unfold VideoEncoderQueue.storeEncoded
  cases q.encoded <;> rfl

theorem rawFrame_storeEncoded (q : VideoEncoderQueue) (data : List UInt8) (stride pts : Int) :
    rawFrame q.storeEncoded data stride pts = rawFrame q data stride pts := by
  unfold VideoEncoderQueue.storeEncoded
  cases q.encoded <;> rfl

/-- The threads and the recorder take the same step; the calls under way are not concerned. -/
theorem alone (h : Stands c t a) {act : RecorderAction} (hb : c.between act)
    (hen : c.recorder.enabled 0 act) :
    Stands (c.next (.alone act)) t (a.next act) := by
  have hinv := videoInv_next h.inv (h.enabled hb hen)
  have hclear : a.queue.clearFrames = { c.recorder.queue.clearFrames with
      frameQueue := t.consumer.held ++ t.items, dropped := a.queue.dropped } := by
    conv_lhs => rw [h.queue]
    rfl
  cases act with
  | capture | encode | drained => exact hb.elim
  -- the encoding thread begins its loop, and no call of it is under way
  | startEncoding =>
    refine ⟨hinv, rfl, h.capturing, rfl, h.queue, h.producer, ?_, h.pushing, ?_⟩
    · exact h.consumer.of_not_draining rfl nofun
    · exact fun ht => ⟨Or.inl rfl, (h.taking ht).2⟩
  | startCapture =>
    exact ⟨hinv, rfl, rfl, h.encoding, h.queue, h.producer, h.consumer, fun _ => rfl, h.taking⟩
  | captureEnd =>
    exact ⟨hinv, h.control, rfl, h.encoding, h.queue, h.producer, h.consumer,
      fun hp => absurd hb hp, h.taking⟩
  -- the encoded frame is stored: the frames and what was dropped are where they were
  | store =>
    refine ⟨hinv, h.control, h.capturing, h.encoding, ?_, ?_, h.consumer, h.pushing, ?_⟩
    · exact h.storeEncoded_eq.trans (by rw [← dropped_storeEncoded a.queue]; rfl)
    · unfold Pushing
      simp only [RecorderClient.next, RecorderState.next, dropped_storeEncoded,
        rawFrame_storeEncoded]
      exact h.producer
    · exact fun ht => absurd (h.taking ht).2 hen
  -- the encoding thread goes over to draining, between two of its calls
  | stopSeen =>
    have htaking : c.taking = false := hb
    refine ⟨hinv, h.control, h.capturing, rfl, h.queue, h.producer, ?_, h.pushing, ?_⟩
    · have hidle := (taking_iff_idle htaking).mp h.consumer
      exact (taking_iff_idle (c := c.next (.alone .stopSeen)) htaking).mpr hidle
    · exact fun ht => absurd (htaking.symm.trans ht) Bool.false_ne_true
  | clearFrames =>
    exact ⟨hinv, h.control, h.capturing, h.encoding, hclear, h.producer, h.consumer, h.pushing,
      h.taking⟩
  | requestStop =>
    exact ⟨hinv, rfl, h.capturing, h.encoding, h.queue, h.producer, h.consumer, h.pushing,
      h.taking⟩
  | joinCapture =>
    exact ⟨hinv, rfl, h.capturing, h.encoding, h.queue, h.producer, h.consumer, h.pushing,
      h.taking⟩
  | requestEncodingStop =>
    exact ⟨hinv, rfl, h.capturing, h.encoding, h.queue, h.producer, h.consumer, h.pushing,
      h.taking⟩
  -- the thread that is joined is at its end, so that it has no call under way
  | joinEncoding =>
    refine ⟨hinv, rfl, h.capturing, rfl, h.queue, h.producer, ?_, h.pushing, fun ht => ?_⟩
    · exact h.consumer.of_not_draining rfl nofun
    · rcases (h.taking ht).1 with he | he <;> cases he.symm.trans hen.2
  | stopReturns =>
    exact ⟨hinv, rfl, h.capturing, h.encoding, hclear, h.producer, h.consumer, h.pushing,
      h.taking⟩

/-! ### Steps of the queue -/

/-- The moment of its effect: the frame is put into the recorder's queue, or dropped. -/
theorem effect (h : Stands c t a) {frame : RawVideoFrame} (hoffered : Offered c a frame)
    (accepted : Bool) (hp : t'.producer = .answered frame accepted)
    (hconsumer : t'.consumer = t.consumer)
    (hitems : t'.items = t.items ++ if accepted then [frame] else []) :
    ∃ a', Stands c t' a' := by
  -- a push is under way as long as the call has not had its effect
  obtain ⟨data, stride, hframe⟩ := hoffered.frame
  have hbusy : c.pushing ≠ none := by
    rw [hoffered.pushing]
    exact Option.some_ne_none frame
  have hen : a.enabled (a.queue.frameQueue.length + 1) (.capture data stride accepted) :=
    ⟨h.capturing.trans (h.pushing hbusy), fun _ => Nat.lt_succ_self _⟩
  -- a frame that comes while the queue is drained would spoil what the drain loop relies on
  have htaking : Taking c t' := by
    refine h.consumer.congr rfl hconsumer fun hd => ?_
    rw [h.pushing_of_draining hd] at hbusy
    exact absurd rfl hbusy
  refine ⟨a.next (.capture data stride accepted), videoInv_next h.inv hen, h.control, h.capturing,
    h.encoding, ?_, ?_, htaking, h.pushing, h.taking⟩
  · show (a.queue.pushFrame data stride a.lastFramePts accepted).2 = _
    rw [hconsumer, hitems, ← List.append_assoc, ← h.frameQueue, pushFrame_eq, h.queue_with,
      ← hframe]
    show _ = ({ c.recorder.queue with
      frameQueue := a.queue.frameQueue ++ if accepted then [frame] else []
      dropped := (a.queue.pushFrame data stride a.lastFramePts accepted).2.dropped } :
        VideoEncoderQueue)
    rw [pushFrame_eq]
  · refine hoffered.pushing_answered hp rfl rfl ?_
    show (a.queue.pushFrame data stride a.lastFramePts accepted).2.dropped = _
    rw [pushFrame_eq, hframe]
    rfl

/-- The encoding thread's operation goes on; the frames are where they were. -/
theorem consumed (h : Stands c t a) (hproducer : t'.producer = t.producer)
    (hframes : t'.consumer.held ++ t'.items = t.consumer.held ++ t.items)
    (htaking : Taking c t') : Stands c t' a := by
  refine ⟨h.inv, h.control, h.capturing, h.encoding, ?_, ?_, htaking, h.pushing, h.taking⟩
  · rw [hframes]
    exact h.queue
  · unfold Pushing
    rw [hproducer]
    exact h.producer

theorem service (h : Stands c t a) {room : ℕ} (hs : Step room t [] t') : ∃ a', Stands c t' a' := by
  cases hs with
  -- the producer sees a full queue, which changes nothing by itself
  | seeFull hp =>
    obtain ⟨rfl, hoffered⟩ := h.producer.of_pending hp
    exact ⟨a, h.inv, h.control, h.capturing, h.encoding, h.queue, hoffered.pushing_pending rfl,
      h.consumer, h.pushing, h.taking⟩
  | append hp =>
    obtain ⟨rfl, hoffered⟩ := h.producer.of_pending hp
    exact h.effect hoffered true rfl rfl rfl
  | refuse hp =>
    obtain ⟨rfl, hoffered⟩ := h.producer.of_pending hp
    exact h.effect hoffered false rfl rfl (List.append_nil _).symm
  -- the consumer sees an empty queue, and the drain loop may trust it
  | seeEmpty hc hempty =>
    obtain ⟨htaking, rfl, -⟩ := h.consumer.of_pending hc
    refine ⟨a, h.consumed rfl (by rw [hc]; rfl) ?_⟩
    unfold Taking
    rw [if_pos htaking]
    exact Or.inl ⟨true, rfl, fun _ _ => hempty⟩
  -- the object at the front is served: it leaves the queue and is held by the call
  | @serve op saw v hc hfront =>
    obtain ⟨htaking, rfl, -⟩ := h.consumer.of_pending hc
    have hitems : t.items = v :: t.items.tail := List.eq_cons_of_mem_head? hfront
    refine ⟨a, h.consumed rfl (by rw [hc]; exact hitems.symm) ?_⟩
    unfold Taking
    rw [if_pos htaking]
    exact Or.inr ⟨some v, rfl, fun _ => nofun⟩
  -- `try_dequeue` comes back with nothing
  | miss hc =>
    obtain ⟨htaking, rfl, hnone⟩ := h.consumer.of_pending hc
    refine ⟨a, h.consumed rfl (by rw [hc]; rfl) ?_⟩
    unfold Taking
    rw [if_pos htaking]
    exact Or.inr ⟨none, rfl, fun hd _ => hnone hd rfl⟩

/-! ### Calls and returns -/

/-- The timestamp is issued. -/
theorem pushCall (h : Stands c t a) (hidle : c.pushing = none)
    (hcapturing : c.recorder.capturing = true) (data : List UInt8) (stride : Int)
    (hp : t'.producer = .pending
      (rawFrame c.recorder.queue data stride c.recorder.lastFramePts) false false false)
    (hconsumer : t'.consumer = t.consumer) (hitems : t'.items = t.items) :
    Stands (c.next (.pushCall data stride)) t' a := by
  -- before the call the recorder of the model has issued as many timestamps
  have hbefore := h.producer
  unfold Pushing at hbefore
  rw [hidle] at hbefore
  obtain ⟨-, hlast, hissued, hdropped⟩ := hbefore
  refine ⟨h.inv, h.control, h.capturing, h.encoding, ?_, ?_, ?_, fun _ => hcapturing, h.taking⟩
  · rw [hconsumer, hitems]
    exact h.queue
  · have hframe : rawFrame c.recorder.queue data stride c.recorder.lastFramePts =
        rawFrame a.queue data stride a.lastFramePts := by
      rw [hlast, h.queue]
      rfl
    refine Offered.pushing_pending ⟨rfl, ⟨data, stride, hframe⟩, ?_, ?_, hdropped⟩ hp
    · rw [hlast]
      rfl
    · rw [hissued, hlast]
      rfl
  · exact h.consumer.congr rfl hconsumer fun hd => ⟨hd, hitems⟩

theorem pushReturn (h : Stands c t a) {frame : RawVideoFrame} {accepted : Bool}
    (hp : t.producer = .answered frame accepted) (hp' : t'.producer = .idle)
    (hconsumer : t'.consumer = t.consumer) (hitems : t'.items = t.items) :
    Stands (c.next (.pushReturn accepted)) t' a := by
  obtain ⟨hpushing, hlast, hissued, hdropped⟩ := h.producer.of_answered hp
  refine ⟨h.inv, h.control, h.capturing, h.encoding, ?_, ?_, ?_, nofun, h.taking⟩
  · rw [hconsumer, hitems]
    exact h.queue
  · refine ⟨hp', hlast, hissued, ?_⟩
    rw [hdropped]
    -- what was refused has been dropped by the recorder already
    cases accepted <;> simp [RecorderClient.next, hpushing]
  · exact h.consumer.congr rfl hconsumer fun hd => ⟨hd, hitems⟩

theorem takeCall (h : Stands c t a) (hen : c.enabled .takeCall)
    (hproducer : t'.producer = t.producer) (hc : t.consumer = .idle)
    (hc' : t'.consumer = .pending .take false) (hitems : t'.items = t.items) :
    Stands (c.next .takeCall) t' a := by
  refine ⟨h.inv, h.control, h.capturing, h.encoding, ?_, ?_, ?_, h.pushing, fun _ => ?_⟩
  · rw [hc', hitems]
    have hqueue := h.queue
    rw [hc] at hqueue
    exact hqueue
  · unfold Pushing
    rw [hproducer]
    exact h.producer
  · -- a new call has not seen anything
    exact Or.inl ⟨false, hc', fun _ => nofun⟩
  · exact ⟨hen.1, hen.2.1⟩

theorem encodeNext_cons (q : VideoEncoderQueue) (frame : RawVideoFrame)
    (rest : List RawVideoFrame) (dropped : List Int) (out : EncodeOutcome) :
    ({ q with frameQueue := frame :: rest, dropped := dropped } : VideoEncoderQueue).encodeNext
        out =
      { ({ q with frameQueue := [frame] } : VideoEncoderQueue).encodeNext out with
        frameQueue := rest, dropped := dropped } := rfl

theorem dropped_encodeNext (q : VideoEncoderQueue) (out : EncodeOutcome) :
    (q.encodeNext out).dropped = q.dropped := by
  unfold VideoEncoderQueue.encodeNext
  cases q.frameQueue <;> rfl

theorem rawFrame_encodeNext (q : VideoEncoderQueue) (out : EncodeOutcome) (data : List UInt8)
    (stride pts : Int) :
    rawFrame (q.encodeNext out) data stride pts = rawFrame q data stride pts := by
  unfold VideoEncoderQueue.encodeNext
  cases q.frameQueue <;> rfl

/-- The frame is encoded, or the loop that has found nothing goes round or ends. -/
theorem takeReturn (h : Stands c t a) {result : Option RawVideoFrame} {out : EncodeOutcome}
    (hen : c.enabled (.takeReturn result out)) (hc : t.consumer = .answered .take result)
    (hproducer : t'.producer = t.producer) (hc' : t'.consumer = .idle)
    (hitems : t'.items = t.items) : ∃ a', Stands (c.next (.takeReturn result out)) t' a' := by
  obtain ⟨htaking, hpossible⟩ := hen
  -- a call of `try_dequeue` has come from one of the two loops
  obtain ⟨hloop, hencoded⟩ := h.taking htaking
  obtain ⟨-, -, hnone⟩ := h.consumer.of_answered hc
  have hframes := h.frameQueue
  rw [hc] at hframes
  cases result with
  -- the frame leaves the queue of the recorder and goes to the encoder
  | some frame =>
    have hqueue : a.queue = { c.recorder.queue with
        frameQueue := frame :: t.items, dropped := a.queue.dropped } := by
      have hqueue := h.queue
      rw [hc] at hqueue
      exact hqueue
    have hen' : a.enabled 0 (.encode out) := by
      refine ⟨?_, h.encoded.trans hencoded, ?_, ?_⟩
      · rwa [h.encoding]
      · rw [hframes]
        exact List.cons_ne_nil _ _
      · rwa [h.encoder]
    refine ⟨a.next (.encode out), videoInv_next h.inv hen', h.control, h.capturing, h.encoding,
      ?_, ?_, ?_, h.pushing, nofun⟩
    · rw [hc', hitems]
      show a.queue.encodeNext out = ({
        ({ c.recorder.queue with frameQueue := [frame] } : VideoEncoderQueue).encodeNext out with
          frameQueue := t.items, dropped := (a.queue.encodeNext out).dropped } :
            VideoEncoderQueue)
      rw [dropped_encodeNext]
      conv_lhs => rw [hqueue, encodeNext_cons]
    · have hbefore := h.producer
      unfold Pushing at hbefore ⊢
      rw [hproducer]
      simp only [RecorderClient.next, RecorderClient.dequeued, RecorderState.next,
        dropped_encodeNext, rawFrame_encodeNext]
      exact hbefore
    · exact (taking_iff_idle rfl).mpr hc'
  -- there was nothing in the queue when the call looked
  | none =>
    have hempty : ([] : List RawVideoFrame) ++ t'.items = t.consumer.held ++ t.items := by
      rw [hc, hitems]
      rfl
    have hqueue := h.queue
    rw [← hempty] at hqueue
    have hpushing : Pushing { c with taking := false } t' a := by
      unfold Pushing
      rw [hproducer]
      exact h.producer
    rcases hloop with hloop | hloop
    · -- the loop goes round
      have hsame : c.next (.takeReturn none out) = { c with taking := false } := by
        simp [RecorderClient.next, RecorderClient.dequeued, hloop]
      rw [hsame]
      refine ⟨a, h.inv, h.control, h.capturing, h.encoding, ?_, hpushing, ?_, h.pushing, nofun⟩
      · rw [hc']
        exact hqueue
      · exact (taking_iff_idle rfl).mpr hc'
    · -- the drain loop ends
      have hend : c.next (.takeReturn none out) = { c with
          recorder := { c.recorder with encoding := .finished }, taking := false } := by
        simp [RecorderClient.next, RecorderClient.dequeued, hloop]
      -- nobody pushes while the queue is drained, so it is still empty
      have hen' : a.enabled 0 .drained :=
        ⟨h.encoding.trans hloop, hframes.trans (hnone hloop rfl), h.encoded.trans hencoded⟩
      rw [hend]
      refine ⟨a.next .drained, videoInv_next h.inv hen', h.control, h.capturing, rfl, ?_, hpushing,
        ?_, h.pushing, nofun⟩
      · rw [hc']
        exact hqueue
      · exact (taking_iff_idle rfl).mpr hc'

/-- A call or a return. -/
theorem both (h : Stands c t a) {room : ℕ} {e : Event RawVideoFrame}
    (hc : recorderClient.step c [e] c') (hs : Step room t [e] t') : ∃ a', Stands c' t' a' := by
  obtain ⟨act, hen, hevents, rfl⟩ := hc
  cases act with
  -- a step alone shows nothing to the queue, so that it has no event in common with it
  | alone => simp [RecorderClient.events] at hevents
  | pushCall data stride =>
    obtain rfl := List.singleton_inj.mp hevents
    cases hs
    exact ⟨a, h.pushCall hen.2 hen.1 data stride rfl rfl rfl⟩
  | pushReturn accepted =>
    obtain ⟨frame, hpushing⟩ := Option.ne_none_iff_exists'.mp hen
    simp only [RecorderClient.events, hpushing, Option.toList_some, List.map_cons, List.map_nil,
      List.cons.injEq, and_true] at hevents
    subst hevents
    cases hs with
    | enqueueReturn hp => exact ⟨a, h.pushReturn hp rfl rfl rfl⟩
  | takeCall =>
    obtain rfl := List.singleton_inj.mp hevents
    cases hs with
    | look _ hidle => exact ⟨a, h.takeCall hen rfl hidle rfl rfl⟩
  | takeReturn result out =>
    obtain rfl := List.singleton_inj.mp hevents
    cases hs with
    | lookReturn hanswered => exact h.takeReturn hen hanswered rfl rfl rfl
  -- the failed allocation is seen by both and concerns neither
  | noMemory =>
    obtain rfl := List.singleton_inj.mp hevents
    cases hs with
    | failMemory hp =>
      obtain ⟨rfl, hoffered⟩ := h.producer.of_pending hp
      exact ⟨a, h.inv, h.control, h.capturing, h.encoding, h.queue, hoffered.pushing_pending rfl,
        h.consumer, h.pushing, h.taking⟩

end Stands

/-- A step of the threads over an atomic queue. -/
theorem stands_step {room : ℕ} {p p' : RecorderClient × State RawVideoFrame}
    {es : List (Event RawVideoFrame)} (h : Stands p.1 p.2 a)
    (hs : ((queue RawVideoFrame room).serving recorderClient).step p es p') :
    ∃ a', Stands p'.1 p'.2 a' := by
  cases hs with
  -- the thread moves alone, and the queue is as it was
  | client hc =>
    obtain ⟨act, hen, hevents, rfl⟩ := hc
    cases act with
    | alone act => exact ⟨_, h.alone hen.1 hen.2⟩
    | pushReturn accepted =>
      obtain ⟨frame, hpushing⟩ := Option.ne_none_iff_exists'.mp hen
      simp [RecorderClient.events, hpushing] at hevents
    | _ => simp [RecorderClient.events] at hevents
  | service hs => exact h.service hs
  | both hc hs => exact h.both hc hs

theorem stands_of_runs {room : ℕ} {p p' : RecorderClient × State RawVideoFrame}
    {es : List (Event RawVideoFrame)} (h : Stands p.1 p.2 a)
    (hruns : Runs ((queue RawVideoFrame room).serving recorderClient) p es p') :
    ∃ a', Stands p'.1 p'.2 a' := by
  induction hruns with
  | refl => exact ⟨a, h⟩
  | concat _ hs ih =>
    obtain ⟨a', ha'⟩ := ih
    exact stands_step ha' hs

/-- The threads before the first start, with an empty queue. -/
theorem stands_init (hinit : recorderClient.init c) : Stands c {} c.recorder := by
  obtain ⟨width, height, capacity, hc⟩ := hinit
  have hreach : Reachable (recorderSystem 0) c.recorder :=
    .init ⟨width, height, capacity, congrArg RecorderClient.recorder hc⟩
  subst hc
  exact ⟨videoInv_of_reach hreach, rfl, rfl, rfl, rfl, ⟨rfl, rfl, rfl, rfl⟩, rfl,
    fun h => absurd rfl h, nofun⟩

/-- What has been dropped is dropped from the recorder that the threads stand for. -/
theorem Stands.count_dropped_le (h : Stands c t a) (x : Int) :
    c.recorder.queue.dropped.count x ≤ a.queue.dropped.count x := by
  have hpushing := h.producer
  unfold Pushing at hpushing
  split at hpushing
  · rw [hpushing.2.2.2]
  · -- the push that has been answered is dropped already in the recorder of the model
    rcases hpushing with ⟨_, _, _, _, -, -, -, -, hdropped⟩ | ⟨_, -, -, -, hdropped⟩
    · rw [hdropped]
    · rw [hdropped, List.count_append]
      exact Nat.le_add_right _ _

/-- A timestamp is in one place, if it is in any. -/
theorem Stands.count_le_one (h : Stands c t a) (x : Int) :
    c.recorder.queue.encoder.submitted.count x + c.recorder.queue.dropped.count x ≤ 1 := by
  have hacc := h.inv.ordered.accounted
  have hdropped := h.count_dropped_le x
  rw [← h.encoder]
  by_cases hissued : x ∈ a.issued
  · have hone := hacc.count_eq_one hissued
    omega
  · -- a timestamp that was not issued is nowhere
    have hcount := hacc.count_eq x
    rw [List.count_eq_zero_of_not_mem hissued] at hcount
    omega

theorem Stands.count_eq_one (h : Stands c t a)
    (hstopped : c.recorder.control = .encoderJoined ∨ c.recorder.control = .stopped) {x : Int}
    (hissued : x ∈ c.recorder.issued) :
    c.recorder.queue.encoder.submitted.count x + c.recorder.queue.dropped.count x = 1 := by
  -- when the encoding thread has been joined, nothing waits for it
  have hempty : a.queue.frameQueue = [] := h.inv.stopped (by rwa [h.control])
  -- and the capture thread has been joined before, so that it is in no call
  have hidle : c.pushing = none := by
    by_contra hpushing
    have hcapturing : a.capturing = true := h.capturing.trans (h.pushing hpushing)
    have hcontrol := h.inv.capturing hcapturing
    rw [h.control] at hcontrol
    rcases hstopped with hs | hs <;> simp [hs] at hcontrol
  have hpushing := h.producer
  unfold Pushing at hpushing
  rw [hidle] at hpushing
  obtain ⟨-, -, hsame, hdropped⟩ := hpushing
  have hone := h.inv.ordered.accounted.count_eq_one (hsame ▸ hissued)
  -- all of the timestamps are then with the encoder or dropped
  have hqueued : a.queue.queued = [] := by
    unfold VideoEncoderQueue.queued
    rw [hempty]
    rfl
  rwa [hqueued, List.count_nil, Nat.add_zero, h.encoder, hdropped] at hone

end Stands

/-! ## The recorder over the lock-free queue -/

theorem queue_single (α : Type) (room : ℕ) : (queue α room).Single := by
  intro s es s' hs
  cases hs <;> simp

theorem readerWriterQueue_single (α : Type) (maxBlockSize size : ℕ) :
    (readerWriterQueue α maxBlockSize size).Single := by
  rintro s es s' ⟨act, -, rfl, -⟩
  -- a step has one event at most
  cases act with
  | enqueue | look => simp [QueueState.events]
  | produce memory =>
    unfold QueueState.events
    cases s.producer <;> cases memory <;> simp
  | consume =>
    unfold QueueState.events
    cases s.consumer <;> simp

theorem recorderClient_single : recorderClient.Single := by
  rintro c es c' ⟨act, -, rfl, -⟩
  cases act with
  | pushReturn => cases hp : c.pushing <;> simp [RecorderClient.events, hp]
  | _ => simp [RecorderClient.events]

/-- **Every timestamp over the lock-free queue.** In every run of the threads of the recorder,
    interleaved with every access to the memory of the queue, no assertion of the queue fails; the
    timestamps passed to the encoder increase strictly; none is passed twice, or passed and
    dropped; and when `stop` has returned, each one that was issued has been passed to the
    encoder, or its frame has been refused by the queue. What `get_encoded_frames` returns
    increases strictly. -/
theorem videoRecorder_accounts {p p' : RecorderClient × QueueState RawVideoFrame}
    {es : List (Event RawVideoFrame)} (hinit : videoRecorder.init p)
    (h : Runs videoRecorder p es p') :
    (p'.2.producer ≠ .crashed ∧ p'.2.consumer ≠ .crashed) ∧
      p'.1.recorder.queue.encoder.submitted.Pairwise (· < ·) ∧
      (∀ x, p'.1.recorder.queue.encoder.submitted.count x +
        p'.1.recorder.queue.dropped.count x ≤ 1) ∧
      (p'.1.recorder.control = .encoderJoined ∨ p'.1.recorder.control = .stopped →
        ∀ x ∈ p'.1.recorder.issued, p'.1.recorder.queue.encoder.submitted.count x +
          p'.1.recorder.queue.dropped.count x = 1) ∧
      (p'.1.recorder.queue.getEncodedFrames.map EncodedVideoFrame.pts).Pairwise (· < ·) := by
  obtain ⟨hclient, hqueue⟩ := hinit
  have hsim := (simulates (α := RawVideoFrame) (2 ^ 9) 1024).serving (queue_single _ _)
    recorderClient
  have hstart : Simulated 1024 p.2 {} := by
    rw [hqueue]
    exact simulated_make (by decide) (by decide) (by decide)
  -- the run over the lock-free queue is one over the atomic queue, and that one of the recorder
  obtain ⟨⟨c, t⟩, hruns, hc, hsimulated⟩ := hsim.runs (t := (p.1, {})) ⟨rfl, hstart⟩ h
  obtain rfl : p'.1 = c := hc
  obtain ⟨a, hstands⟩ := stands_of_runs (stands_init hclient) hruns
  have hacc := hstands.inv.ordered
  refine ⟨hsimulated.not_crashed, ?_, hstands.count_le_one,
    fun hstopped x hx => hstands.count_eq_one hstopped hx, ?_⟩
  · rw [← hstands.encoder]
    exact hacc.accounted.delivered_increasing
  · have hsnapshot := hacc.snapshot_increasing
    rwa [hstands.queue] at hsnapshot

/-! A session of one frame; the drain loop finds nothing more. -/

def oneFrame : RawVideoFrame :=
  { data := [0, 0, 0, 255], stride := 4, pts := 0, width := 1, height := 1 }

def oneFrameClient : List ClientAction :=
  [.alone .startEncoding, .alone .startCapture, .pushCall [0, 0, 0, 255] 4, .pushReturn true,
    .takeCall, .takeReturn (some oneFrame) (.packet 0 [1] 0 1), .alone .store,
    .alone .requestStop, .alone .captureEnd, .alone .joinCapture, .alone .requestEncodingStop,
    .alone .stopSeen, .takeCall, .takeReturn none .noPacket, .alone .joinEncoding]

def oneFrameQueue : List (QueueAction RawVideoFrame) :=
  .enqueue oneFrame false :: List.replicate 4 (.produce true) ++
    .look .take :: List.replicate 5 .consume ++ .look .take :: List.replicate 4 .consume

def oneFrameEvents : List (Event RawVideoFrame) :=
  [.enqueueCall oneFrame false, .enqueueReturn oneFrame true, .lookCall .take,
    .lookReturn .take (some oneFrame), .lookCall .take, .lookReturn .take none]

def oneFrameStart : RecorderClient × QueueState RawVideoFrame :=
  ({ recorder := { queue := { width := 1, height := 1 } } }, { queue := .make (2 ^ 9) 1024 })

def oneFrameEnd : RecorderClient × QueueState RawVideoFrame :=
  (oneFrameClient.foldl RecorderClient.next oneFrameStart.1,
    oneFrameQueue.foldl (QueueState.next (2 ^ 9)) oneFrameStart.2)

theorem runs_oneFrame : Runs videoRecorder oneFrameStart oneFrameEvents oneFrameEnd := by
  have hclient : replay RecorderClient.enabled RecorderClient.next RecorderClient.events
      oneFrameStart.1 oneFrameClient = some oneFrameEvents := by decide
  have hqueue : replay QueueState.enabled (QueueState.next (2 ^ 9)) QueueState.events
      oneFrameStart.2 oneFrameQueue = some oneFrameEvents := by decide
  exact Runs.meet recorderClient_single (readerWriterQueue_single _ _ _)
    (runs_of_replay _ hclient) (runs_of_replay _ hqueue)

theorem videoRecorder_accounts_oneFrame :
    oneFrameEnd.1.recorder.control = .encoderJoined ∧
      ∀ x ∈ oneFrameEnd.1.recorder.issued,
        oneFrameEnd.1.recorder.queue.encoder.submitted.count x +
          oneFrameEnd.1.recorder.queue.dropped.count x = 1 := by
  have hinit : videoRecorder.init oneFrameStart := ⟨⟨1, 1, 0, rfl⟩, rfl⟩
  have haccounts := videoRecorder_accounts hinit runs_oneFrame
  exact ⟨rfl, haccounts.2.2.2.1 (.inl rfl)⟩

end AVCapture.Platform
