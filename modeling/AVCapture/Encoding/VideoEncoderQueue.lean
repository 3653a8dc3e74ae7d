import AVCapture.Core.Frames
import AVCapture.Lib.LossyQueue
import AVCapture.Utils.CircularBuffer
import AVCapture.Utils.Error
import Mathlib.Algebra.Order.Group.Unbundled.Int

/-!
# The Video Encoder Queue

Model of `VideoEncoder::encode_frame` (`core/video/VideoEncoder.cpp`) and of
`VideoEncoderQueue` (`core/video/VideoEncoderQueue.cpp`): frames go from the capture
thread through a lock-free queue to the encoding thread, and their packets into the
encoded-frame buffer. `Platform.ScreenRecorderBase` puts the threads around it.

The vendored queue is a bounded first-in first-out queue for one producer and one
consumer. The encoder is FFmpeg's: with `max_b_frames = 0` it gives at most one packet
for each frame it has accepted, in the order of the frames, with the frame's timestamp.

## Main definitions

- `VideoEncoder.encodeFrame`, `VideoEncoderQueue.pushFrame`, `encodeNext`, `storeEncoded`
- `Ordered`: the timestamps from the capture to the buffer, and what each operation does
-/

namespace AVCapture.Encoding

open AVCapture.Utils AVCapture.Core

/-! ## The encoder -/

/-- The encoder context: the timestamps of the frames it has accepted and not yet given a
    packet for, oldest first. `submitted` records every timestamp passed to it. -/
structure VideoEncoder where
  pending : List Int := []
  submitted : List Int := []

/-- What FFmpeg does in one `encode_frame`; `noPacket` stands for `EAGAIN` and `EOF`. For
    `packet`, the first `skipped` pending frames get no packet at all, and the next one
    gets this packet. -/
inductive EncodeOutcome where
  | sendFails
  | noPacket
  | receiveFails (ret : Int)
  | packet (skipped : Nat) (data : List UInt8) (dts : Int) (flags : BitVec 32)

/-- There is a frame left to give the packet for. -/
def EncodeOutcome.Possible (enc : VideoEncoder) : EncodeOutcome → Prop
  | .packet skipped .. => skipped < enc.pending.length + 1
  | _ => True

instance (enc : VideoEncoder) (out : EncodeOutcome) : Decidable (out.Possible enc) :=
  match out with
  | .sendFails => isTrue trivial
  | .noPacket => isTrue trivial
  | .receiveFails _ => isTrue trivial
  | .packet .. => inferInstanceAs (Decidable (_ < _))

def VideoEncoder.encodeFrame (enc : VideoEncoder) (pts : Int) (out : EncodeOutcome) :
    Result EncodedVideoFrame × VideoEncoder :=
  let submitted := enc.submitted ++ [pts]
  match out with
  | .sendFails =>
    (.error (makeError.withContext "Failed sending frame to encoder context"),
      { enc with submitted := submitted })
  | .noPacket =>
    (.error (makeError.withContext "Failed receiving packet from encoder context"),
      { pending := enc.pending ++ [pts], submitted := submitted })
  | .receiveFails ret =>
    (.error (makeError.withContext ("Error receiving encoded packet: " ++ toString ret)),
      { pending := enc.pending ++ [pts], submitted := submitted })
  | .packet skipped data dts flags =>
    let pending := enc.pending ++ [pts]
    (.ok { data := data, pts := (pending[skipped]?).getD pts, dts := dts, flags := flags },
      { pending := pending.drop (skipped + 1), submitted := submitted })

/-! ## The queue -/

/-- `VideoEncoderQueue`. `encoded` is the local variable of the encoding loop, from
    `encode_frame` to the push into the buffer; `dropped` records the timestamps of the
    frames that the queue has refused. -/
structure VideoEncoderQueue where
  width : Int := 0
  height : Int := 0
  frameQueue : List RawVideoFrame := []
  encoder : VideoEncoder := {}
  encoded : Option EncodedVideoFrame := none
  encodedBuffer : CircularBuffer EncodedVideoFrame := {}
  dropped : List Int := []

namespace VideoEncoderQueue

/-- `push_frame`; `enqueued` is what `try_enqueue` returns. -/
def pushFrame (q : VideoEncoderQueue) (data : List UInt8) (stride pts : Int)
    (enqueued : Bool) : VoidResult × VideoEncoderQueue :=
  let frameSize := (stride * q.height).toNat
  let frame : RawVideoFrame :=
    { data := data.take frameSize, stride := stride, pts := pts
      width := q.width, height := q.height }
  if enqueued then (.ok (), { q with frameQueue := q.frameQueue ++ [frame] })
  else
    (.error (makeError.withContext
        ("Frame queue full, dropping frame with PTS " ++ toString pts)),
      { q with dropped := q.dropped ++ [pts] })

/-- One `try_dequeue` of the encoding loop, and the `encode_frame` that follows when it
    finds a frame. -/
def encodeNext (q : VideoEncoderQueue) (out : EncodeOutcome) : VideoEncoderQueue :=
  match q.frameQueue with
  | [] => q
  | frame :: rest =>
    let (res, encoder) := q.encoder.encodeFrame frame.pts out
    { q with frameQueue := rest, encoder := encoder, encoded := res.toOption }

/-- The push of an encoded frame into the buffer. -/
def storeEncoded (q : VideoEncoderQueue) : VideoEncoderQueue :=
  match q.encoded with
  | none => q
  | some frame => { q with encoded := none, encodedBuffer := q.encodedBuffer.push frame }

def clearFrames (q : VideoEncoderQueue) : VideoEncoderQueue :=
  { q with encodedBuffer := q.encodedBuffer.clear }

def getEncodedFrames (q : VideoEncoderQueue) : List EncodedVideoFrame :=
  q.encodedBuffer.snapshot

/-! ## Timestamps on their way -/

/-- The timestamps waiting in the queue. -/
def queued (q : VideoEncoderQueue) : List Int := q.frameQueue.map RawVideoFrame.pts

/-- The timestamps of the packets given or still to come: in the buffer, in the hands of
    the encoding thread, and pending in the encoder. -/
def packets (q : VideoEncoderQueue) : List Int :=
  q.encodedBuffer.buffer.map EncodedVideoFrame.pts ++
    (q.encoded.toList.map EncodedVideoFrame.pts ++ q.encoder.pending)

/-- Every timestamp issued is submitted, queued or dropped; those submitted and queued
    are in order, and the packets are some of those submitted, in the same order. -/
structure Ordered (next : Int) (issued : List Int) (q : VideoEncoderQueue) : Prop where
  accounted : LossyQueue.Accounted next issued q.encoder.submitted q.queued q.dropped
  packets_sublist : q.packets.Sublist q.encoder.submitted

section Steps

variable {next : Int} {issued : List Int} {q : VideoEncoderQueue}

theorem Ordered.pushFrame (h : Ordered next issued q) (data : List UInt8) (stride : Int)
    (enqueued : Bool) :
    Ordered (next + 1) (issued ++ [next]) (q.pushFrame data stride next enqueued).2 := by
  have hlt : next < next + 1 := Int.lt_succ next
  cases enqueued with
  | true =>
    refine ⟨?_, h.packets_sublist⟩
    have hqueued : (q.pushFrame data stride next true).2.queued = q.queued ++ [next] := by
      simp [VideoEncoderQueue.pushFrame, queued]
    rw [hqueued]
    exact h.accounted.accept hlt
  | false => exact ⟨h.accounted.refuse hlt, h.packets_sublist⟩

/-- The packets that a call of the encoder gives or leaves to come are some of those
    pending before it, in their order. -/
theorem encodeFrame_sublist (enc : VideoEncoder) (pts : Int) (out : EncodeOutcome)
    (hpossible : out.Possible enc) :
    ((enc.encodeFrame pts out).1.toOption.toList.map EncodedVideoFrame.pts ++
      (enc.encodeFrame pts out).2.pending).Sublist (enc.pending ++ [pts]) := by
  cases out with
  | sendFails => exact List.sublist_append_left _ _
  | noPacket => exact List.Sublist.refl _
  | receiveFails ret => exact List.Sublist.refl _
  | packet skipped data dts flags =>
    have hlt : skipped < (enc.pending ++ [pts]).length := by
      rw [List.length_append]
      exact hpossible
    have hget : (enc.pending ++ [pts])[skipped]? = some (enc.pending ++ [pts])[skipped] :=
      List.getElem?_eq_getElem hlt
    -- the packet's frame and those after it are the list from `skipped` on
    have hdrop : (enc.pending ++ [pts]).drop skipped =
        (enc.pending ++ [pts])[skipped] :: (enc.pending ++ [pts]).drop (skipped + 1) :=
      List.drop_eq_getElem_cons hlt
    have hgiven : (enc.encodeFrame pts (.packet skipped data dts flags)).1.toOption.toList.map
          EncodedVideoFrame.pts = [(enc.pending ++ [pts])[skipped]] := by
      simp [VideoEncoder.encodeFrame, Except.toOption, hget]
    rw [hgiven]
    show ([_] ++ (enc.pending ++ [pts]).drop (skipped + 1)).Sublist _
    rw [List.singleton_append, ← hdrop]
    exact List.drop_sublist _ _

theorem submitted_encodeFrame (enc : VideoEncoder) (pts : Int) (out : EncodeOutcome) :
    (enc.encodeFrame pts out).2.submitted = enc.submitted ++ [pts] := by
  cases out <;> rfl

theorem Ordered.encodeNext (h : Ordered next issued q) (hidle : q.encoded = none)
    (out : EncodeOutcome) (hpossible : out.Possible q.encoder) :
    Ordered next issued (q.encodeNext out) := by
  unfold VideoEncoderQueue.encodeNext
  cases hq : q.frameQueue with
  | nil => exact h
  | cons frame rest =>
    obtain ⟨hacc, hsub⟩ := h
    have hqueued : q.queued = frame.pts :: rest.map RawVideoFrame.pts := by
      simp [queued, hq]
    have hpackets : q.packets =
        q.encodedBuffer.buffer.map EncodedVideoFrame.pts ++ q.encoder.pending := by
      simp [packets, hidle]
    rw [hqueued] at hacc
    rw [hpackets] at hsub
    refine ⟨?_, ?_⟩
    · -- the stamp at the front of the queue is submitted, whatever the encoder answers
      show LossyQueue.Accounted next issued
        (q.encoder.encodeFrame frame.pts out).2.submitted (rest.map RawVideoFrame.pts) q.dropped
      rw [submitted_encodeFrame]
      exact hacc.deliver
    · show (q.encodedBuffer.buffer.map EncodedVideoFrame.pts ++ _).Sublist
        (q.encoder.encodeFrame frame.pts out).2.submitted
      rw [submitted_encodeFrame]
      have hstep := (encodeFrame_sublist q.encoder frame.pts out hpossible).append_left
        (q.encodedBuffer.buffer.map EncodedVideoFrame.pts)
      apply hstep.trans
      rw [← List.append_assoc]
      exact hsub.append_right [frame.pts]

theorem Ordered.storeEncoded (h : Ordered next issued q) :
    Ordered next issued q.storeEncoded := by
  unfold VideoEncoderQueue.storeEncoded
  cases he : q.encoded with
  | none => exact h
  | some frame =>
    refine ⟨h.accounted, List.Sublist.trans ?_ h.packets_sublist⟩
    -- the frame moves into the buffer, which may drop its oldest one for it
    have hpush := (q.encodedBuffer.push_sublist frame).map EncodedVideoFrame.pts
    rw [List.map_append] at hpush
    have hpackets : q.packets = q.encodedBuffer.buffer.map EncodedVideoFrame.pts ++
        [frame].map EncodedVideoFrame.pts ++ q.encoder.pending := by
      simp [packets, he]
    rw [hpackets]
    exact hpush.append_right _

theorem Ordered.clearFrames (h : Ordered next issued q) :
    Ordered next issued q.clearFrames := by
  refine ⟨h.accounted, List.Sublist.trans ?_ h.packets_sublist⟩
  -- only the buffer's share of the packets goes
  exact List.sublist_append_right _ _

/-- The snapshot is in order, because it is some of what was submitted. -/
theorem Ordered.snapshot_increasing (h : Ordered next issued q) :
    (q.getEncodedFrames.map EncodedVideoFrame.pts).Pairwise (· < ·) := by
  have hsub : (q.getEncodedFrames.map EncodedVideoFrame.pts).Sublist q.packets :=
    List.sublist_append_left _ _
  exact h.accounted.delivered_increasing.sublist (hsub.trans h.packets_sublist)

end Steps

end VideoEncoderQueue

end AVCapture.Encoding
