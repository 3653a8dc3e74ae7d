import AVCapture.Encoding.AudioMixer
import Mathlib.Logic.Function.Basic

/-!
# Raw Audio and the Streams of the Mixer

`RawAudioFrame` (`types.hpp`) and the map `audio_streams_` of the mixer
(`core/audio/AudioMixer.cpp`): one queue of frames for each device. A queue is first-in
first-out, with one producer and one consumer.

The map is unordered. `ids` is the order in which the loops over it find the streams, which
is the same for all of them as long as no stream is added or removed.

## Main definitions

- `RawAudioFrame`, `AudioStreams`
- `AudioStreams.addStream`, `AudioStreams.pushAudio`, `AudioStreams.tryDequeue`
- `AudioMixer.mixRound`: the mixed buffer of one round
-/

namespace AVCapture.Encoding

open AVCapture.Utils

/-! ## Raw audio -/

def kMaxSamples : ℕ := 1024

/-- `RawAudioFrame`: the array `data_` and the number of its elements that are used. -/
structure RawAudioFrame where
  data : List Int16
  actualSize : ℕ
  pts : ℤ := 0
  length_data : data.length = kMaxSamples
  actualSize_le : actualSize ≤ kMaxSamples

/-- The constructor: `count` values are copied from the source into an array of zeros. -/
def RawAudioFrame.ofSource (source : List Int16) (count : ℕ) (pts : ℤ)
    (hcount : count ≤ kMaxSamples) : RawAudioFrame where
  data := (source.take count ++ List.replicate kMaxSamples 0).take kMaxSamples
  actualSize := count
  pts := pts
  length_data := by simp
  actualSize_le := hcount

/-- `samples()` -/
def RawAudioFrame.samples (frame : RawAudioFrame) : List Int16 := frame.data.take frame.actualSize

/-- What has been copied from a source that is long enough. -/
theorem RawAudioFrame.samples_ofSource {source : List Int16} {count : ℕ} (pts : ℤ)
    (hcount : count ≤ kMaxSamples) (hsource : count ≤ source.length) :
    (RawAudioFrame.ofSource source count pts hcount).samples = source.take count := by
  have hlen : (source.take count).length = count := by
    rw [List.length_take, Nat.min_eq_left hsource]
  unfold samples ofSource
  rw [List.take_take, Nat.min_eq_left hcount]
  calc (source.take count ++ List.replicate kMaxSamples 0).take count
      = (source.take count ++ List.replicate kMaxSamples 0).take (source.take count).length := by
        rw [hlen]
    _ = source.take count := List.take_left

/-- Samples as the numbers that they are. -/
def pcm (samples : List Int16) : List Int := samples.map Int16.toInt

@[simp] theorem length_pcm (samples : List Int16) : (pcm samples).length = samples.length :=
  List.length_map _

/-! ## The streams -/

/-- `audio_streams_`: the devices in the order of the iteration, each one once, and the queue
    of each. -/
structure AudioStreams where
  ids : List ℕ := []
  queue : ℕ → List RawAudioFrame := fun _ => []
  nodup : ids.Nodup := by exact List.nodup_nil

namespace AudioStreams

def addStream (streams : AudioStreams) (deviceId : ℕ) : VoidResult × AudioStreams :=
  if h : deviceId ∈ streams.ids then
    (.error (makeError.withContext "Audio stream already exists"), streams)
  else
    (.ok (),
      { ids := deviceId :: streams.ids
        queue := Function.update streams.queue deviceId []
        nodup := List.nodup_cons.mpr ⟨h, streams.nodup⟩ })

def removeStream (streams : AudioStreams) (deviceId : ℕ) : VoidResult × AudioStreams :=
  if deviceId ∈ streams.ids then
    (.ok (), { streams with ids := streams.ids.erase deviceId, nodup := streams.nodup.erase _ })
  else (.error (makeError.withContext "Audio stream not found"), streams)

/-- The streams after calls of `add_stream`. -/
def addStreams (deviceIds : List ℕ) : AudioStreams :=
  deviceIds.foldl (fun streams deviceId => (streams.addStream deviceId).2) {}

/-- `push_audio`; `enqueued` is whether the queue has memory for the frame. The text of the
    first error is the source's. -/
def pushAudio (streams : AudioStreams) (deviceId : ℕ) (frame : RawAudioFrame)
    (enqueued : Bool) : VoidResult × AudioStreams :=
  if deviceId ∉ streams.ids then
    (.error (makeError.withContext "Audio stream already exists"), streams)
  else if !enqueued then (.error (makeError.withContext "Queue is full"), streams)
  else
    (.ok (),
      { streams with
        queue := Function.update streams.queue deviceId (streams.queue deviceId ++ [frame]) })

/-- `peek() != nullptr` -/
def ready (streams : AudioStreams) (deviceId : ℕ) : Bool := !(streams.queue deviceId).isEmpty

/-- `try_dequeue` -/
def tryDequeue (streams : AudioStreams) (deviceId : ℕ) : Option RawAudioFrame × AudioStreams :=
  ((streams.queue deviceId).head?,
    { streams with
      queue := Function.update streams.queue deviceId (streams.queue deviceId).tail })

end AudioStreams

/-! ## A round -/

/-- The mixed buffer of a round: the streams in the order of the iteration, those without a
    current frame left out. -/
def AudioMixer.mixRound (m : AudioMixer) (ids : List ℕ) (current : ℕ → Option (List Int16)) :
    List Int :=
  m.mix (ids.filterMap fun deviceId => (current deviceId).map pcm)

end AVCapture.Encoding
