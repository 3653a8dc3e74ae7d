import Mathlib.Tactic.Ring
import AVCapture.Core.Frames
import AVCapture.Core.RecordingConfig
import AVCapture.Utils.CircularBuffer

/-!
# The Audio Mixer

Model of a round of `AudioMixer::mixer_loop` (`core/audio/AudioMixer.cpp`) with
`AudioEncoder::encode_frame` (`core/audio/AudioEncoder.cpp`): the frames of the streams are
mixed into one buffer, and the encoder is given the buffer with the timestamp `pts_`.

The timestamp belongs to the mixer, but only the encoder knows whether a frame was accepted:
`encode_frame` returns an error both for a frame that was refused and for one whose packet
could not be received, and `false` for one that was accepted and has no packet yet.

## Main results

- `accepted_runRounds`: the timestamps of the accepted frames
- `acceptedPts_eq_steps_iff`: when they are a sequence of equal steps
- `ptsAdvance_iff`: the runs in which they follow the audio
-/

namespace AVCapture.Encoding

open AVCapture.Utils AVCapture.Core

/-! ## The encoder -/

/-- What FFmpeg does in one `encode_frame`, in the order of the calls. -/
inductive AudioEncodeOutcome where
  | frameAllocFails
  | frameBufferFails
  | convertFails
  | convertsNothing
  | packetAllocFails
  | sendFails
  | again
  | eof
  | receiveFails
  | packet (data : List UInt8) (pts dts : Int) (isKeyFrame : Bool)
  deriving DecidableEq

/-- `avcodec_send_frame` has taken the frame. -/
def AudioEncodeOutcome.accepts : AudioEncodeOutcome → Bool
  | .again | .eof | .receiveFails | .packet .. => true
  | _ => false

def AudioEncodeOutcome.givesPacket : AudioEncodeOutcome → Bool
  | .packet .. => true
  | _ => false

/-- A call of `swr_convert`: the input and its number of samples per channel. -/
structure Conversion where
  input : List Int
  inCount : Int
  deriving DecidableEq, Repr

/-- The encoder: whether `codec_ctx_` and `swr_ctx_` are there. Recorded besides: the calls
    of `swr_convert`, and the timestamps of the frames that `avcodec_send_frame` has
    accepted. -/
structure AudioEncoder where
  initialized : Bool := true
  conversions : List Conversion := []
  accepted : List Int := []
  deriving DecidableEq

/-- `encode_frame`; `none` is the result `false`, and a frame is `out_frame` with the result
    `true`. -/
def AudioEncoder.encodeFrame (enc : AudioEncoder) (pcmData : List Int) (sampleCount pts : Int)
    (out : AudioEncodeOutcome) : Result (Option EncodedAudioFrame) × AudioEncoder :=
  let failed (text : String) : Result (Option EncodedAudioFrame) :=
    .error (makeError.withContext text)
  let converted : AudioEncoder :=
    { enc with conversions := enc.conversions ++ [{ input := pcmData, inCount := sampleCount }] }
  let sent : AudioEncoder := { converted with accepted := enc.accepted ++ [pts] }
  if !enc.initialized then (failed "codec was not initialized", enc)
  else
    match out with
    | .frameAllocFails => (failed "Failed allocating frame", enc)
    | .frameBufferFails =>
      -- `cleanup()` frees both contexts
      (failed "Failed to allocated audio frame buffer", { enc with initialized := false })
    | .convertFails => (failed "Audio resampling failed", converted)
    | .convertsNothing => (failed "Could not convert samples", converted)
    | .packetAllocFails => (failed "ffmpeg packet was not initialized", converted)
    | .sendFails => (failed "Failed to send audio frame to encoder", converted)
    -- the frame is taken in each of these cases, whatever is returned
    | .again | .eof => (.ok none, sent)
    | .receiveFails => (failed "Failed to recieve audio packet", sent)
    | .packet data pts dts isKeyFrame =>
      (.ok (some { data := data, pts := pts, dts := dts, isKeyFrame := isKeyFrame }), sent)

/-! ## The mixer -/

/-- One sample of `mix_samples`: the sum, clipped to 16 bits. -/
def mixSample (a b : Int) : Int := max (-32768) (min (a + b) 32767)

/-- `mix_samples`: the samples of the input are added, as far as there are any. -/
def mixSamples : List Int → List Int → List Int
  | a :: output, b :: input => mixSample a b :: mixSamples output input
  | output, _ => output

@[simp] theorem length_mixSamples (output input : List Int) :
    (mixSamples output input).length = output.length := by
  induction output generalizing input with
  | nil => simp [mixSamples]
  | cons a output ih =>
    cases input with
    | nil => simp [mixSamples]
    | cons b input => simp [mixSamples, ih]

structure AudioMixer where
  config : AudioConfig := {}
  encoder : AudioEncoder := {}
  audioBuffer : CircularBuffer EncodedAudioFrame := {}
  pts : Int := 0

namespace AudioMixer

/-- The size of `mixed_buffer`. -/
def mixedSize (m : AudioMixer) : ℕ := m.config.bufferFrameSize * m.config.channels.toNat

/-- `mixed_buffer` after the frames of a round, in the order of the streams. -/
def mix (m : AudioMixer) (frames : List (List Int)) : List Int :=
  frames.foldl mixSamples (List.replicate m.mixedSize 0)

/-- A round of `mixer_loop` from the mixing on: `frames` are the current frames of the
    streams. -/
def round (m : AudioMixer) (frames : List (List Int)) (out : AudioEncodeOutcome) : AudioMixer :=
  let mixedBuffer := m.mix frames
  match m.encoder.encodeFrame mixedBuffer mixedBuffer.length m.pts out with
  | (.error _, enc) => { m with encoder := enc } -- only logged
  | (.ok none, enc) => { m with encoder := enc }
  | (.ok (some frame), enc) =>
    { m with
      encoder := enc
      pts := m.pts + mixedBuffer.length
      audioBuffer := m.audioBuffer.push frame }

def runRounds (m : AudioMixer) (rounds : List (List (List Int) × AudioEncodeOutcome)) :
    AudioMixer :=
  rounds.foldl (fun m r => m.round r.1 r.2) m

@[simp] theorem length_mix (m : AudioMixer) (frames : List (List Int)) :
    (m.mix frames).length = m.mixedSize := by
  unfold mix
  generalize hbuffer : List.replicate m.mixedSize (0 : Int) = buffer
  have hlen : buffer.length = m.mixedSize := by rw [← hbuffer, List.length_replicate]
  clear hbuffer
  induction frames generalizing buffer with
  | nil => exact hlen
  | cons frame frames ih => exact ih _ (by rw [length_mixSamples, hlen])

end AudioMixer

/-! ## The timestamps of a run -/

/-- The rounds whose frame the encoder accepts: none after the contexts were freed. -/
def acceptedRounds : List AudioEncodeOutcome → List AudioEncodeOutcome
  | [] => []
  | .frameBufferFails :: _ => []
  | out :: outs => if out.accepts then out :: acceptedRounds outs else acceptedRounds outs

/-- The timestamps of accepted frames, from `pts` on: `step` further after each packet. -/
def acceptedPts (step : Int) : Int → List AudioEncodeOutcome → List Int
  | _, [] => []
  | pts, out :: outs =>
    pts :: acceptedPts step (if out.givesPacket then pts + step else pts) outs

/-- `n` timestamps, `step` apart. -/
def steps (step : Int) : Int → ℕ → List Int
  | _, 0 => []
  | pts, n + 1 => pts :: steps step (pts + step) n

/-- **What a round does**: the contexts go, or the frame is refused, or its timestamp is
    used, and the next one is further on if there was a packet. -/
theorem round_spec (m : AudioMixer) (frames : List (List Int)) (out : AudioEncodeOutcome)
    (hinit : m.encoder.initialized = true) :
    (m.round frames out).mixedSize = m.mixedSize ∧
      (m.round frames out).encoder.initialized = decide (out ≠ .frameBufferFails) ∧
      (m.round frames out).encoder.accepted =
        m.encoder.accepted ++ (if out.accepts then [m.pts] else []) ∧
      (m.round frames out).pts = (if out.givesPacket then m.pts + m.mixedSize else m.pts) := by
  cases out <;>
    simp [AudioMixer.round, AudioEncoder.encodeFrame, hinit, AudioMixer.mixedSize,
      AudioEncodeOutcome.accepts, AudioEncodeOutcome.givesPacket]

/-- Without the contexts no frame is accepted any more. -/
theorem accepted_runRounds_of_not_initialized {m : AudioMixer}
    (h : m.encoder.initialized = false) (rounds : List (List (List Int) × AudioEncodeOutcome)) :
    (m.runRounds rounds).encoder.accepted = m.encoder.accepted := by
  induction rounds generalizing m with
  | nil => rfl
  | cons r rounds ih =>
    have hround : m.round r.1 r.2 = m := by simp [AudioMixer.round, AudioEncoder.encodeFrame, h]
    show ((m.round r.1 r.2).runRounds rounds).encoder.accepted = _
    rw [hround]
    exact ih h

/-- **The accepted timestamps** of a run, from the outcomes of its rounds. -/
theorem accepted_runRounds (m : AudioMixer) (hinit : m.encoder.initialized = true)
    (rounds : List (List (List Int) × AudioEncodeOutcome)) :
    (m.runRounds rounds).encoder.accepted =
      m.encoder.accepted ++
        acceptedPts m.mixedSize m.pts (acceptedRounds (rounds.map Prod.snd)) := by
  induction rounds generalizing m with
  | nil => simp [AudioMixer.runRounds, acceptedRounds, acceptedPts]
  | cons r rounds ih =>
    obtain ⟨frames, out⟩ := r
    obtain ⟨hsize, hinit', haccepted, hpts⟩ := round_spec m frames out hinit
    show ((m.round frames out).runRounds rounds).encoder.accepted = _
    -- the round that frees the contexts is the last one to reach the encoder
    by_cases hclosed : out = .frameBufferFails
    · subst hclosed
      rw [accepted_runRounds_of_not_initialized (by rw [hinit']; rfl), haccepted]
      rfl
    · rw [ih _ (by rw [hinit', decide_eq_true hclosed]), haccepted, hsize, hpts]
      cases out <;>
        simp_all [acceptedRounds, acceptedPts, AudioEncodeOutcome.accepts,
          AudioEncodeOutcome.givesPacket]

/-- The second timestamp is one step after the first exactly if the first frame gives a
    packet that moves the timestamps on by it. -/
theorem acceptedPts_cons_cons_eq_steps_iff {step f : Int} (hf : 0 < f) (pts : Int)
    (out out' : AudioEncodeOutcome) (outs : List AudioEncodeOutcome) :
    acceptedPts step pts (out :: out' :: outs) =
        steps f pts (out :: out' :: outs).length ↔
      (out.givesPacket = true ∧ step = f) ∧
        acceptedPts step (pts + f) (out' :: outs) =
          steps f (pts + f) (out' :: outs).length := by
  cases hpacket : out.givesPacket with
  | false =>
    -- the second timestamp repeats the first
    simp only [acceptedPts, steps, hpacket, List.length_cons, List.cons.injEq]
    refine ⟨fun h => ?_, fun h => ?_⟩
    · have hrepeat := h.2.1
      simp at hrepeat
      omega
    · exact absurd h.1.1 (by simp)
  | true =>
    simp only [acceptedPts, steps, hpacket, List.length_cons, List.cons.injEq, if_true]
    refine ⟨fun h => ?_, fun h => ?_⟩
    · -- the second timestamp fixes the step
      have hstep : step = f := by
        have hpts := h.2.1
        omega
      subst hstep
      exact ⟨⟨trivial, rfl⟩, trivial, h.2.2⟩
    · obtain ⟨⟨_, rfl⟩, _, hrest⟩ := h
      exact ⟨trivial, rfl, hrest⟩

/-- **Equal steps**: the accepted timestamps are `f` apart exactly when at most one frame is
    accepted, or a packet moves them on by `f` and every accepted frame but the last one
    gives a packet. -/
theorem acceptedPts_eq_steps_iff {step f : Int} (hf : 0 < f) (pts : Int)
    (outs : List AudioEncodeOutcome) :
    acceptedPts step pts outs = steps f pts outs.length ↔
      outs.length ≤ 1 ∨ (step = f ∧ ∀ out ∈ outs.dropLast, out.givesPacket = true) := by
  induction outs generalizing pts with
  | nil => simp [acceptedPts, steps]
  | cons out outs ih =>
    cases outs with
    | nil => simp [acceptedPts, steps]
    | cons out' outs =>
      rw [acceptedPts_cons_cons_eq_steps_iff hf, ih (pts + f)]
      have hdrop : (out :: out' :: outs).dropLast = out :: (out' :: outs).dropLast := rfl
      have hlen : ¬ (out :: out' :: outs).length ≤ 1 := by simp
      rw [hdrop, List.forall_mem_cons]
      refine ⟨fun h => Or.inr ⟨h.1.2, h.1.1, ?_⟩, fun h => ?_⟩
      · rcases h.2 with hone | hrest
        · have hnil : outs = [] := List.eq_nil_of_length_eq_zero (by simpa using hone)
          subst hnil
          simp
        · exact hrest.2
      · obtain ⟨hstep, hout, hrest⟩ := h.resolve_left hlen
        exact ⟨⟨hout, hstep⟩, Or.inr ⟨hstep, hrest⟩⟩

theorem length_acceptedPts (step pts : Int) (outs : List AudioEncodeOutcome) :
    (acceptedPts step pts outs).length = outs.length := by
  induction outs generalizing pts with
  | nil => rfl
  | cons out outs ih => simp [acceptedPts, ih]

theorem steps_eq (step pts : Int) (n : ℕ) :
    steps step pts n = (List.range n).map fun k : ℕ => pts + (k : Int) * step := by
  induction n generalizing pts with
  | zero => rfl
  | succ n ih =>
    rw [steps, ih, List.range_succ_eq_map, List.map_cons, List.map_map]
    refine congrArg₂ List.cons (by simp) (List.map_congr_left fun k _ => ?_)
    simp only [Function.comp, Nat.succ_eq_add_one, Nat.cast_add, Nat.cast_one]
    ring

/-- The accepted timestamps are 0, `f`, `2f` and so on, for the frame size `f`. -/
def PtsFollowAudio (config : AudioConfig) (accepted : List Int) : Prop :=
  accepted = (List.range accepted.length).map fun k : ℕ => (k : Int) * config.bufferFrameSize

instance (config : AudioConfig) (accepted : List Int) :
    Decidable (PtsFollowAudio config accepted) := inferInstanceAs (Decidable (_ = _))

/-- **Where the timestamps follow the audio**: the accepted timestamps of a new mixer are 0,
    `f`, `2f` and so on exactly when at most one frame is accepted, or there is one channel
    and each accepted frame that another one follows gives a packet. -/
theorem ptsAdvance_iff (m : AudioMixer) (hpts : m.pts = 0) (henc : m.encoder = {})
    (hframe : 1 ≤ m.config.bufferFrameSize) (hchannels : 1 ≤ m.config.channels)
    (rounds : List (List (List Int) × AudioEncodeOutcome)) :
    PtsFollowAudio m.config (m.runRounds rounds).encoder.accepted ↔
      (acceptedRounds (rounds.map Prod.snd)).length ≤ 1 ∨ (m.config.channels = 1 ∧
        ∀ out ∈ (acceptedRounds (rounds.map Prod.snd)).dropLast, out.givesPacket = true) := by
  have haccepted : (m.runRounds rounds).encoder.accepted =
      acceptedPts m.mixedSize 0 (acceptedRounds (rounds.map Prod.snd)) := by
    rw [accepted_runRounds m (by rw [henc]), henc, hpts, List.nil_append]
  have hone : (m.mixedSize : Int) = m.config.bufferFrameSize ↔ m.config.channels = 1 := by
    have hsize : (m.mixedSize : Int) = m.config.bufferFrameSize * m.config.channels := by
      unfold AudioMixer.mixedSize
      rw [Nat.cast_mul, Int.toNat_of_nonneg (by omega)]
    have hpos : (m.config.bufferFrameSize : Int) ≠ 0 := by omega
    rw [hsize]
    exact ⟨fun h => mul_left_cancel₀ hpos (by rw [h, mul_one]), fun h => by rw [h, mul_one]⟩
  unfold PtsFollowAudio
  rw [haccepted, length_acceptedPts, ← hone,
    ← acceptedPts_eq_steps_iff (show (0 : Int) < m.config.bufferFrameSize by omega) 0, steps_eq]
  simp only [zero_add]

/-- The witness: two mono frames, with a packet after the first. -/
theorem ptsAdvance_iff_mono :
    PtsFollowAudio {} (({} : AudioMixer).runRounds
      [([], .packet [1] 0 0 true), ([], .again)]).encoder.accepted :=
  (ptsAdvance_iff {} rfl rfl (by decide) (by decide) _).mpr (Or.inr ⟨rfl, by decide⟩)

/-- Two stereo frames of 1024 samples: the second one is given the timestamp 2048. -/
theorem stereo_doubleStep :
    (({ config := { channels := 2 } } : AudioMixer).runRounds
        [([], .packet [1] 0 0 true), ([], .again)]).encoder.accepted = [0, 2048] ∧
      ¬ PtsFollowAudio { channels := 2 } [0, 2048] := by
  refine ⟨?_, by decide⟩
  rw [accepted_runRounds _ rfl]
  rfl

end AVCapture.Encoding
