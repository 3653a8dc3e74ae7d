import AVCapture.Encoding.MixOrder

/-!
# From the Audio Callbacks to the Resampler

Model of `system_audio_callback` and `mic_audio_callback` of `AudioCapturer`
(`core/audio/AudioCapturer.cpp`), and the way of a block of samples from there through
`RawAudioFrame` and the mixed buffer to `swr_convert`.

A block of `n` sample frames holds `n * channels` interleaved values. The callbacks copy
`n_frames` values of it, and the mixer passes the number of values in its buffer where
`swr_convert` counts samples per channel; both are right for one channel.

## Main results

- `mixRound_single`: the only stream is mixed unchanged
- `handlesBlock_iff`: the configurations in which a block gets through
-/

namespace AVCapture.Core

open AVCapture.Utils AVCapture.Encoding

/-! ## The callbacks -/

/-- What the callbacks of an `AudioCapturer` read and write; the streams are those of its
    mixer. -/
structure AudioCapturer where
  isCapturing : Bool := false
  systemDeviceId : ℤ := -1
  micDeviceId : ℤ := -1
  streams : AudioStreams := {}

/-- The conversion of an `int` to `unsigned int`. -/
def toUnsigned (i : ℤ) : ℕ := (i % 2 ^ 32).toNat

namespace AudioCapturer

/-- The body that both callbacks have, for the device of one of them. A status is only
    logged, and so is the result of `push_audio`; `none` is the failed assertion of
    `RawAudioFrame`. -/
def audioCallback (deviceId : ℤ) (cap : AudioCapturer) (inputBuffer : Option (List Int16))
    (nFrames : ℕ) (enqueued : Bool) : Option AudioCapturer :=
  if !cap.isCapturing then some cap
  else
    match inputBuffer with
    | none => some cap
    | some data =>
      let samplesCount := nFrames
      if h : samplesCount ≤ kMaxSamples then
        let frame := RawAudioFrame.ofSource data samplesCount 0 h
        some { cap with
          streams := (cap.streams.pushAudio (toUnsigned deviceId) frame enqueued).2 }
      else none

def systemAudioCallback (cap : AudioCapturer) : Option (List Int16) → ℕ → Bool →
    Option AudioCapturer :=
  audioCallback cap.systemDeviceId cap

def micAudioCallback (cap : AudioCapturer) : Option (List Int16) → ℕ → Bool →
    Option AudioCapturer :=
  audioCallback cap.micDeviceId cap

end AudioCapturer

inductive AudioSource where
  | system
  | mic
  deriving DecidableEq, Repr

namespace AudioSource

def deviceId (source : AudioSource) (cap : AudioCapturer) : ℕ :=
  match source with
  | .system => toUnsigned cap.systemDeviceId
  | .mic => toUnsigned cap.micDeviceId

def callback (source : AudioSource) (cap : AudioCapturer) : Option (List Int16) → ℕ → Bool →
    Option AudioCapturer :=
  match source with
  | .system => cap.systemAudioCallback
  | .mic => cap.micAudioCallback

end AudioSource

/-! ## The way of a block -/

/-- A block of `buffer_frame_size_` sample frames is handled: all its values are in the frame
    that is pushed, they are the mixed buffer if the stream is the only one, and what
    `swr_convert` is told to read is no longer than the buffer that it is given. -/
def HandlesBlock (m : AudioMixer) (cap : AudioCapturer) (source : AudioSource)
    (block : List Int16) : Prop :=
  ∃ cap' frame,
    source.callback cap (some block) m.config.bufferFrameSize true = some cap' ∧
    cap'.streams.queue (source.deviceId cap) =
      cap.streams.queue (source.deviceId cap) ++ [frame] ∧
    frame.samples = block ∧
    (cap.streams.ids = [source.deviceId cap] →
      m.mixRound cap.streams.ids (fun _ => some frame.samples) = pcm block) ∧
    ∀ frames out, ∀ conversion ∈ (m.round frames out).encoder.conversions,
      conversion.inCount * m.config.channels ≤ conversion.input.length

/-- What a callback does while capturing, for a device whose stream is registered. -/
theorem callback_eq {cap : AudioCapturer} {source : AudioSource} (hcapturing : cap.isCapturing)
    (hreg : source.deviceId cap ∈ cap.streams.ids) (block : List Int16) {nFrames : ℕ}
    (h : nFrames ≤ kMaxSamples) :
    ∃ cap', source.callback cap (some block) nFrames true = some cap' ∧
      cap'.streams.queue (source.deviceId cap) =
        cap.streams.queue (source.deviceId cap) ++ [RawAudioFrame.ofSource block nFrames 0 h] := by
  have hpush (deviceId : ℤ) (hreg : toUnsigned deviceId ∈ cap.streams.ids) :
      ∃ cap', cap.audioCallback deviceId (some block) nFrames true = some cap' ∧
        cap'.streams.queue (toUnsigned deviceId) = cap.streams.queue (toUnsigned deviceId) ++
          [RawAudioFrame.ofSource block nFrames 0 h] := by
    simp [AudioCapturer.audioCallback, hcapturing, h, AudioStreams.pushAudio, hreg]
  cases source with
  | system => exact hpush _ hreg
  | mic => exact hpush _ hreg

/-- **The only stream** appears unchanged in the mixed buffer. -/
theorem mixRound_single (m : AudioMixer) (deviceId : ℕ) {samples : List Int16}
    (hlen : samples.length = m.mixedSize) :
    m.mixRound [deviceId] (fun _ => some samples) = pcm samples := by
  apply List.ext_getElem?
  intro i
  by_cases hi : i < m.mixedSize
  · have hlt : i < (pcm samples).length := by rw [length_pcm, hlen]; exact hi
    have hsamples : samplesAt [deviceId] (fun _ => some samples) i = [(pcm samples)[i]] :=
      List.filterMap_cons_some (List.getElem?_eq_getElem hlt)
    have hbounds := pcm_bounds (List.getElem?_eq_getElem hlt)
    rw [getElem?_mixRound m _ _ hi, hsamples, List.getElem?_eq_getElem hlt,
      Saturation.sum_eq_clamp (by decide) (by decide) (Saturation.fits_of_one _),
      List.sum_singleton]
    -- a sample has 16 bits already
    refine congrArg some ?_
    unfold Saturation.clamp
    omega
  · have hmixed : (m.mixRound [deviceId] fun _ => some samples).length = m.mixedSize :=
      m.length_mix _
    rw [List.getElem?_eq_none (by omega), List.getElem?_eq_none (by rw [length_pcm]; omega)]

/-- `encode_frame` passes the number of values in the buffer on. -/
theorem conversions_round {m : AudioMixer} (henc : m.encoder = {}) (frames : List (List Int))
    (out : AudioEncodeOutcome) {conversion : Conversion}
    (h : conversion ∈ (m.round frames out).encoder.conversions) :
    conversion.inCount = m.mixedSize ∧ conversion.input.length = m.mixedSize := by
  have hone : (m.round frames out).encoder.conversions ⊆
      [{ input := m.mix frames, inCount := (m.mix frames).length }] := by
    cases out <;> simp [AudioMixer.round, AudioEncoder.encodeFrame, henc]
  have heq := List.mem_singleton.mp (hone h)
  rw [heq]
  exact ⟨by rw [m.length_mix], m.length_mix frames⟩

theorem mixedSize_of_mono {m : AudioMixer} (h : m.config.channels = 1) :
    m.mixedSize = m.config.bufferFrameSize := by
  unfold AudioMixer.mixedSize
  rw [h]
  exact Nat.mul_one _

theorem mixedSize_of_stereo {m : AudioMixer} (h : m.config.channels = 2) :
    m.mixedSize = m.config.bufferFrameSize * 2 := by
  unfold AudioMixer.mixedSize
  rw [h]
  rfl

/-- **The audio path handles a block** of `buffer_frame_size_` sample frames exactly if there
    is one channel, or the blocks are empty. -/
theorem handlesBlock_iff (m : AudioMixer) (henc : m.encoder = {})
    (hchannels : m.config.channels = 1 ∨ m.config.channels = 2)
    (hmax : m.mixedSize ≤ kMaxSamples) (cap : AudioCapturer) (hcapturing : cap.isCapturing)
    (source : AudioSource) (hreg : source.deviceId cap ∈ cap.streams.ids) (block : List Int16)
    (hblock : block.length = m.mixedSize) :
    HandlesBlock m cap source block ↔
      m.config.channels = 1 ∨ m.config.bufferFrameSize = 0 := by
  have hframe : m.config.bufferFrameSize ≤ m.mixedSize := by
    rcases hchannels with hone | htwo
    · rw [mixedSize_of_mono hone]
    · rw [mixedSize_of_stereo htwo]
      omega
  obtain ⟨cap', hcall, hqueue⟩ :=
    callback_eq hcapturing hreg block (Nat.le_trans hframe hmax)
  have hsamples := RawAudioFrame.samples_ofSource 0 (Nat.le_trans hframe hmax)
    (Nat.le_trans hframe hblock.ge)
  refine ⟨?_, ?_⟩
  · intro h
    obtain ⟨cap'', frame, hcall', hqueue', hall, _, _⟩ := h
    -- the frame holds as many values as the block has sample frames
    obtain rfl : cap' = cap'' := Option.some.inj (hcall.symm.trans hcall')
    obtain rfl : RawAudioFrame.ofSource block m.config.bufferFrameSize 0 _ = frame := by
      simpa using hqueue.symm.trans hqueue'
    have hlen := congrArg List.length (hsamples.symm.trans hall)
    rw [List.length_take, hblock, Nat.min_eq_left hframe] at hlen
    rcases hchannels with hone | htwo
    · exact Or.inl hone
    · refine Or.inr ?_
      rw [mixedSize_of_stereo htwo] at hlen
      omega
  · intro h
    have hsize : m.mixedSize = m.config.bufferFrameSize := by
      rcases h with hone | hzero
      · exact mixedSize_of_mono hone
      · unfold AudioMixer.mixedSize
        rw [hzero, Nat.zero_mul]
    have hall : (RawAudioFrame.ofSource block m.config.bufferFrameSize 0
        (Nat.le_trans hframe hmax)).samples = block := by
      rw [hsamples, ← hsize, ← hblock, List.take_length]
    refine ⟨cap', _, hcall, hqueue, hall, ?_, ?_⟩
    · intro hids
      rw [hids, hall]
      exact mixRound_single m _ hblock
    · intro frames out conversion hconversion
      obtain ⟨hcount, hinput⟩ := conversions_round henc frames out hconversion
      rw [hcount, hinput, hsize]
      rcases h with hone | hzero
      · rw [hone, mul_one]
      · rw [hzero]
        simp

/-- A capturer with one stream, the system's. -/
def AudioCapturer.systemOnly : AudioCapturer :=
  { isCapturing := true
    systemDeviceId := 7
    streams := { ids := [7], nodup := List.nodup_singleton 7 } }

/-- The witness: three mono samples. -/
theorem handlesBlock_iff_mono :
    HandlesBlock { config := { bufferFrameSize := 3 } } AudioCapturer.systemOnly .system
      [5, -6, 32767] :=
  (handlesBlock_iff _ rfl (Or.inl rfl) (by decide) _ rfl _ (by decide) _ rfl).mpr (Or.inl rfl)

/-- Two stereo sample frames: the callback takes the first one only. -/
theorem stereo_loses_half :
    ¬ HandlesBlock { config := { bufferFrameSize := 2, channels := 2 } }
      AudioCapturer.systemOnly .system [1, 2, 3, 4] := by
  intro h
  obtain ⟨cap', frame, hcall, hqueue, hsamples, _⟩ := h
  obtain ⟨_, hcall', hqueue'⟩ :=
    @callback_eq AudioCapturer.systemOnly .system rfl (by decide) [1, 2, 3, 4] 2 (by decide)
  obtain rfl := Option.some.inj (hcall.symm.trans hcall')
  obtain rfl := List.singleton_inj.mp (List.append_cancel_left (hqueue'.symm.trans hqueue))
  revert hsamples
  decide

end AVCapture.Core
