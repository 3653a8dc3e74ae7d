import AVCapture.Core.Frames
import AVCapture.Utils.Error

/-!
# Writing One Segment

Model of `RollingSegment::save_av_to_ts` and `RollingSegment::write_packet_to_stream`
(`core/RollingSegments.cpp`): the two snapshots are interleaved by timestamp into one
MPEG-TS file.

FFmpeg is not part of the sources. Its timestamp functions are the fields of `Muxer`,
and which of its calls succeed is the environment's choice (`MuxCalls`).

## Main definitions

- `writePacketToStream`: one packet
- `interleave`: the loop over the two snapshots
- `saveAvToTs`: the whole function, with each early return
- `packetsToWrite`: how many packets the loop writes when every call succeeds
-/

namespace AVCapture.Core

open AVCapture.Utils

/-! ## What FFmpeg does -/

/-- The timestamp functions of FFmpeg (`av_compare_ts`, and `av_packet_rescale_ts` on
    one timestamp), and the time bases that writing the header leaves in the streams. -/
structure Muxer where
  compareTs : Int → AVRational → Int → AVRational → Int
  rescaleTs : Int → AVRational → AVRational → Int
  videoTimeBase : AVRational
  audioTimeBase : AVRational

/-- The calls that one packet needs: `av_packet_alloc`, `av_new_packet` and
    `av_interleaved_write_frame`; `true` is success. -/
structure PacketCalls where
  packetAlloc : Bool := true
  newPacket : Bool := true
  interleavedWrite : Bool := true
  deriving DecidableEq, Repr

def PacketCalls.succeed (c : PacketCalls) : Bool :=
  c.packetAlloc && c.newPacket && c.interleavedWrite

/-- Outcome of `avio_open2` with `AVIO_FLAG_WRITE`. A successful open truncates the
    file; whether a failed one has done so already is left open. -/
inductive OpenOutcome where
  | opened
  | failed (truncated : Bool)
  deriving DecidableEq, Repr

/-- Which FFmpeg calls of one `save_av_to_ts` run succeed, in the order of the function.
    `strerror` is the text that `av_strerror` gives for the result of `avio_open2`, and
    `packet n` are the calls made for the `n`-th packet. -/
structure MuxCalls where
  allocOutputContext : Bool := true
  newVideoStream : Bool := true
  videoParameters : Bool := true
  newAudioStream : Bool := true
  audioParameters : Bool := true
  avioOpen : OpenOutcome := .opened
  strerror : String := ""
  writeHeader : Bool := true
  packet : Nat → PacketCalls := fun _ => {}

/-! ## Packets and files -/

structure AVPacket where
  data : List UInt8
  pts : Int
  dts : Int
  streamIndex : Nat
  isKeyFrame : Bool
  deriving DecidableEq, Repr

/-- A segment file: the header, the packets the muxer has accepted, in that order, and
    the trailer. -/
structure TsFile where
  header : Bool := false
  packets : List AVPacket := []
  trailer : Bool := false
  deriving DecidableEq, Repr

def TsFile.truncated : TsFile := {}

/-- One call of `write_packet_to_stream`: its arguments and what it returned. The stream
    index is 0 for video and 1 for audio. -/
structure WriteCall where
  streamIndex : Nat
  data : List UInt8
  pts : Int
  dts : Int
  isKeyFrame : Bool
  result : Result AVPacket
  deriving DecidableEq

def WriteCall.failed (w : WriteCall) : Bool := w.result.failed

def WriteCall.packet? (w : WriteCall) : Option AVPacket := w.result.toOption

def writePacketToStream (mx : Muxer) (calls : PacketCalls) (streamIndex : Nat)
    (streamTimeBase srcTimeBase : AVRational) (data : List UInt8) (pts dts : Int)
    (isKeyFrame : Bool) : Result AVPacket :=
  if !calls.packetAlloc then .error makeError
  else if !calls.newPacket then .error makeError
  else if !calls.interleavedWrite then .error makeError
  else .ok
    { data := data
      pts := mx.rescaleTs pts srcTimeBase streamTimeBase
      dts := mx.rescaleTs dts srcTimeBase streamTimeBase
      streamIndex := streamIndex
      isKeyFrame := isKeyFrame }

@[simp] theorem failed_writePacketToStream (mx : Muxer) (calls : PacketCalls) (i : Nat)
    (tb src : AVRational) (data : List UInt8) (pts dts : Int) (key : Bool) :
    (writePacketToStream mx calls i tb src data pts dts key).failed = !calls.succeed := by
  obtain ⟨a, n, w⟩ := calls
  cases a <;> cases n <;> cases w <;> rfl

/-! ## The interleaving loop -/

/-- What the loop reads besides the frames: the encoder contexts, and the two shifts
    `video_frames_diff` and `audio_frames_diff`. -/
structure LoopParams where
  mx : Muxer
  videoCodec : AVCodecContext
  audioCodec : AVCodecContext
  videoDiff : Int
  audioDiff : Int

def LoopParams.writeVideo (p : LoopParams) (calls : PacketCalls)
    (frame : EncodedVideoFrame) : WriteCall :=
  { streamIndex := 0
    data := frame.data
    pts := frame.pts - p.videoDiff
    dts := frame.dts - p.videoDiff
    isKeyFrame := frame.isKeyFrame
    result := writePacketToStream p.mx calls 0 p.mx.videoTimeBase p.videoCodec.timeBase
      frame.data (frame.pts - p.videoDiff) (frame.dts - p.videoDiff) frame.isKeyFrame }

def LoopParams.writeAudio (p : LoopParams) (calls : PacketCalls)
    (frame : EncodedAudioFrame) : WriteCall :=
  { streamIndex := 1
    data := frame.data
    pts := frame.pts - p.audioDiff
    dts := frame.dts - p.audioDiff
    isKeyFrame := frame.isKeyFrame
    result := writePacketToStream p.mx calls 1 p.mx.audioTimeBase p.audioCodec.timeBase
      frame.data (frame.pts - p.audioDiff) (frame.dts - p.audioDiff) frame.isKeyFrame }

def LoopParams.videoFirst (p : LoopParams) (v : EncodedVideoFrame) (a : EncodedAudioFrame) :
    Prop :=
  p.mx.compareTs (v.pts - p.videoDiff) p.videoCodec.timeBase
    (a.pts - p.audioDiff) p.audioCodec.timeBase ≤ 0

instance (p : LoopParams) (v : EncodedVideoFrame) (a : EncodedAudioFrame) :
    Decidable (p.videoFirst v a) := inferInstanceAs (Decidable (_ ≤ _))

/-- The `while` loop of `save_av_to_ts`, on the frames from `video_idx` and `audio_idx`
    on; `n` counts the packets before. It ends when a stream runs out, and it breaks at
    the first packet that is not accepted. Each round uses up one frame, so the number
    of frames is enough fuel (`interleave_fuel`). -/
def interleave (p : LoopParams) (calls : Nat → PacketCalls) :
    Nat → Nat → List EncodedVideoFrame → List EncodedAudioFrame → List WriteCall
  | fuel + 1, n, v :: vs, a :: as =>
    if p.videoFirst v a then
      let w := p.writeVideo (calls n) v
      w :: if w.failed then [] else interleave p calls fuel (n + 1) vs (a :: as)
    else
      let w := p.writeAudio (calls n) a
      w :: if w.failed then [] else interleave p calls fuel (n + 1) (v :: vs) as
  | _, _, _, _ => []

/-- The loop never runs out of fuel: from the number of frames on, more fuel changes
    nothing. -/
theorem interleave_fuel (p : LoopParams) (calls : Nat → PacketCalls) (fuel extra n : Nat)
    (vs : List EncodedVideoFrame) (as : List EncodedAudioFrame)
    (h : vs.length + as.length ≤ fuel) :
    interleave p calls (fuel + extra) n vs as = interleave p calls fuel n vs as := by
  induction fuel generalizing n vs as with
  | zero =>
    have hvs : vs = [] := List.eq_nil_of_length_eq_zero (by omega)
    subst hvs
    cases extra <;> rfl
  | succ fuel ih =>
    cases vs with
    | nil => rw [Nat.succ_add]; rfl
    | cons v vs =>
      cases as with
      | nil => rw [Nat.succ_add]; rfl
      | cons a as =>
        -- either branch goes on with one frame less and one unit of fuel less
        simp only [List.length_cons] at h
        rw [Nat.succ_add]
        simp only [interleave]
        rw [ih (n + 1) vs (a :: as) (by simp only [List.length_cons]; omega),
          ih (n + 1) (v :: vs) as (by simp only [List.length_cons]; omega)]

@[simp] theorem LoopParams.failed_writeVideo (p : LoopParams) (calls : PacketCalls)
    (frame : EncodedVideoFrame) : (p.writeVideo calls frame).failed = !calls.succeed :=
  failed_writePacketToStream ..

@[simp] theorem LoopParams.failed_writeAudio (p : LoopParams) (calls : PacketCalls)
    (frame : EncodedAudioFrame) : (p.writeAudio calls frame).failed = !calls.succeed :=
  failed_writePacketToStream ..

/-- **Where an error strikes**: the loop makes a failing call exactly when some packet
    that it would write without errors has a failing call. -/
theorem exists_failed_interleave (p : LoopParams) (calls : Nat → PacketCalls) (fuel n m : Nat)
    (vs : List EncodedVideoFrame) (as : List EncodedAudioFrame) :
    (∃ w ∈ interleave p calls fuel n vs as, w.failed = true) ↔
      ∃ i < (interleave p (fun _ => {}) fuel m vs as).length, (calls (n + i)).succeed = false := by
  induction fuel generalizing n m vs as with
  | zero => simp [interleave]
  | succ fuel ih =>
    match vs, as with
    | [], _ => simp [interleave]
    | _ :: _, [] => simp [interleave]
    | v :: vs, a :: as =>
      -- one packet is attempted; the rest of the loop runs only if it is accepted.
      -- Both branches of the round are alike in this, whichever stream comes first
      have hgood : ({} : PacketCalls).succeed = true := rfl
      have hround : ∀ rest restOk : List WriteCall,
          ((∃ w ∈ rest, w.failed = true) ↔
            ∃ i < restOk.length, (calls (n + 1 + i)).succeed = false) →
          (((calls n).succeed = false ∨ (calls n).succeed = true ∧ ∃ w ∈ rest, w.failed = true) ↔
            ∃ i < restOk.length + 1, (calls (n + i)).succeed = false) := by
        intro rest restOk hrest
        rw [hrest]
        refine ⟨?_, ?_⟩
        · intro h
          rcases h with h | ⟨_, i, hi, hf⟩
          · exact ⟨0, by omega, h⟩
          · exact ⟨i + 1, by omega, by rw [← hf]; congr 2; omega⟩
        · intro h
          obtain ⟨i, hi, hf⟩ := h
          cases hn : (calls n).succeed with
          | false => exact Or.inl rfl
          | true =>
            cases i with
            | zero => rw [Nat.add_zero, hn] at hf; simp at hf
            | succ i =>
              exact Or.inr ⟨rfl, i, by omega, by rw [← hf]; congr 2; omega⟩
      by_cases hfirst : p.videoFirst v a
      · have := hround _ _ (ih (n + 1) (m + 1) vs (a :: as))
        cases hn : (calls n).succeed <;>
          simpa [interleave, hfirst, hn, hgood] using this
      · have := hround _ _ (ih (n + 1) (m + 1) (v :: vs) as)
        cases hn : (calls n).succeed <;>
          simpa [interleave, hfirst, hn, hgood] using this

/-! ## The whole function -/

/-- The constant surroundings of every save: FFmpeg's functions and the two encoder
    contexts. -/
structure SegmentEnv where
  mx : Muxer
  videoCodec : AVCodecContext
  audioCodec : AVCodecContext

/-- An MPEG-TS muxer (90 kHz in both streams, exact comparison) behind a video encoder
    with time base `1/fps` and an audio encoder with time base `1/sampleRate`. -/
def SegmentEnv.mpegts (fps sampleRate frameSize : Int) : SegmentEnv :=
  { mx :=
      { compareTs := fun a tbA b tbB => Int.sign (a * tbA.num * tbB.den - b * tbB.num * tbA.den)
        rescaleTs := fun ts src dst => ts * src.num * dst.den / (src.den * dst.num)
        videoTimeBase := ⟨1, 90000⟩
        audioTimeBase := ⟨1, 90000⟩ }
    videoCodec := { timeBase := ⟨1, fps⟩ }
    audioCodec := { timeBase := ⟨1, sampleRate⟩, frameSize := frameSize } }

/-- What a run of `save_av_to_ts` leaves: its result, the file at the path, and the calls
    of `write_packet_to_stream` it has made. -/
structure SaveOutcome where
  result : VoidResult
  file : Option TsFile
  writes : List WriteCall

/-- `video_frames_diff`: from the last timestamp and the number of frames, not below 0. -/
def videoFramesDiff (videoFrames : List EncodedVideoFrame) : Int :=
  let diff := (videoFrames.getLast?.map (·.pts)).getD 0 - ((videoFrames.length : Int) - 1)
  if diff < 0 then 0 else diff

def audioFramesDiff (frameSize : Int) (audioFrames : List EncodedAudioFrame) : Int :=
  let diff := (audioFrames.getLast?.map (·.pts)).getD 0 -
    ((audioFrames.length : Int) - 1) * frameSize
  if diff < 0 then 0 else diff

def SegmentEnv.loopParams (env : SegmentEnv) (videoFrames : List EncodedVideoFrame)
    (audioFrames : List EncodedAudioFrame) : LoopParams :=
  { mx := env.mx
    videoCodec := env.videoCodec
    audioCodec := env.audioCodec
    videoDiff := videoFramesDiff videoFrames
    audioDiff := audioFramesDiff env.audioCodec.frameSize audioFrames }

/-- Step 4 of `save_av_to_ts`: the loop from the first frames on. -/
def SegmentEnv.muxLoop (env : SegmentEnv) (calls : Nat → PacketCalls)
    (videoFrames : List EncodedVideoFrame) (audioFrames : List EncodedAudioFrame) :
    List WriteCall :=
  interleave (env.loopParams videoFrames audioFrames) calls
    (videoFrames.length + audioFrames.length) 0 videoFrames audioFrames

/-- The early returns before the file is opened: the text of the first one taken. -/
def setupError (calls : MuxCalls) (videoFrames : List EncodedVideoFrame)
    (audioFrames : List EncodedAudioFrame) : Option String :=
  if videoFrames.isEmpty then some "No video frames to write"
  else if !calls.allocOutputContext then some "Failed allocating format context"
  else if !calls.newVideoStream then some "Failed to allocate output format context"
  else if !calls.videoParameters then some "Failed to copy video codec parameters"
  else if audioFrames.isEmpty then some "No audio frames to write"
  else if !calls.newAudioStream then some "Failed to create audio stream"
  else if !calls.audioParameters then some "Failed to copy audio copy parameters"
  else none

/-- `save_av_to_ts`, on the two snapshots and the file that was at the path. An error in
    the loop is logged and ends the loop; the trailer is written and success returned
    all the same. -/
def saveAvToTs (env : SegmentEnv) (calls : MuxCalls) (tsPath : String)
    (videoFrames : List EncodedVideoFrame) (audioFrames : List EncodedAudioFrame)
    (before : Option TsFile) : SaveOutcome :=
  let unexpected (text : String) (file : Option TsFile) : SaveOutcome :=
    { result := .error (makeError.withContext text), file := file, writes := [] }
  match setupError calls videoFrames audioFrames with
  | some text => unexpected text before -- the path has not been touched yet
  | none =>
    -- the format keeps its output in a file, so this is never skipped
    match calls.avioOpen with
    | .failed truncated =>
      unexpected ("Failed opening file handle for " ++ tsPath ++ ": " ++ calls.strerror)
        (if truncated then some TsFile.truncated else before)
    | .opened =>
      if !calls.writeHeader then unexpected "Failed writing file header" (some TsFile.truncated)
      else
        -- a `break` out of the loop comes to the same trailer and the same return
        let writes := env.muxLoop calls.packet videoFrames audioFrames
        { result := .ok ()
          file := some
            { header := true, packets := writes.filterMap WriteCall.packet?, trailer := true }
          writes := writes }

/-- The calls before the loop all succeed on these snapshots. -/
def MuxCalls.setupSucceeds (calls : MuxCalls) (videoFrames : List EncodedVideoFrame)
    (audioFrames : List EncodedAudioFrame) : Prop :=
  setupError calls videoFrames audioFrames = none ∧ calls.avioOpen = .opened ∧
    calls.writeHeader = true

/-- The file at the path has been truncated when an error is returned: it was opened and
    the header failed, or the failed open had truncated it. -/
def MuxCalls.truncates (calls : MuxCalls) (videoFrames : List EncodedVideoFrame)
    (audioFrames : List EncodedAudioFrame) : Prop :=
  setupError calls videoFrames audioFrames = none ∧
    (calls.avioOpen = .opened ∧ calls.writeHeader = false ∨ calls.avioOpen = .failed true)

instance (calls : MuxCalls) (vs : List EncodedVideoFrame) (as : List EncodedAudioFrame) :
    Decidable (calls.setupSucceeds vs as) := inferInstanceAs (Decidable (_ ∧ _ ∧ _))

instance (calls : MuxCalls) (vs : List EncodedVideoFrame) (as : List EncodedAudioFrame) :
    Decidable (calls.truncates vs as) := inferInstanceAs (Decidable (_ ∧ (_ ∧ _ ∨ _)))

/-- How many packets the loop hands to the muxer when every one of them is accepted. -/
def SegmentEnv.packetsToWrite (env : SegmentEnv) (videoFrames : List EncodedVideoFrame)
    (audioFrames : List EncodedAudioFrame) : Nat :=
  (env.muxLoop (fun _ => {}) videoFrames audioFrames).length

/-- **Spec of `save_av_to_ts`, success**: when the calls before the loop succeed it
    returns success and leaves a complete file of the accepted packets, whatever became of
    the others. -/
theorem saveAvToTs_of_setupSucceeds (env : SegmentEnv) {calls : MuxCalls} (tsPath : String)
    {vs : List EncodedVideoFrame} {as : List EncodedAudioFrame} (before : Option TsFile)
    (h : calls.setupSucceeds vs as) :
    (saveAvToTs env calls tsPath vs as before).result = .ok () ∧
      (saveAvToTs env calls tsPath vs as before).writes = env.muxLoop calls.packet vs as ∧
      (saveAvToTs env calls tsPath vs as before).file = some
        { header := true
          packets := (env.muxLoop calls.packet vs as).filterMap WriteCall.packet?
          trailer := true } := by
  obtain ⟨hsetup, hopen, hheader⟩ := h
  simp [saveAvToTs, hsetup, hopen, hheader]

/-- **Spec of `save_av_to_ts`, error**: when a call before the loop fails it returns an
    error, no packet has been written, and the file is as it was or truncated. -/
theorem saveAvToTs_of_not_setupSucceeds (env : SegmentEnv) {calls : MuxCalls} (tsPath : String)
    {vs : List EncodedVideoFrame} {as : List EncodedAudioFrame} (before : Option TsFile)
    (h : ¬ calls.setupSucceeds vs as) :
    (saveAvToTs env calls tsPath vs as before).result.failed = true ∧
      (saveAvToTs env calls tsPath vs as before).writes = [] ∧
      (saveAvToTs env calls tsPath vs as before).file =
        if calls.truncates vs as then some TsFile.truncated else before := by
  cases hsetup : setupError calls vs as with
  | some text => simp [saveAvToTs, MuxCalls.truncates, hsetup]
  | none =>
    cases hopen : calls.avioOpen with
    | failed truncated =>
      cases truncated <;> simp [saveAvToTs, MuxCalls.truncates, hsetup, hopen]
    | opened =>
      have hheader : calls.writeHeader = false := by
        cases hw : calls.writeHeader with
        | false => rfl
        | true => exact absurd ⟨hsetup, hopen, hw⟩ h
      simp [saveAvToTs, MuxCalls.truncates, hsetup, hopen, hheader]

/-- `save_av_to_ts` returns an error exactly when a call before the loop fails. -/
theorem saveAvToTs_failed_iff (env : SegmentEnv) (calls : MuxCalls) (tsPath : String)
    (vs : List EncodedVideoFrame) (as : List EncodedAudioFrame) (before : Option TsFile) :
    (saveAvToTs env calls tsPath vs as before).result.failed = true ↔
      ¬ calls.setupSucceeds vs as := by
  refine ⟨?_, fun h => (saveAvToTs_of_not_setupSucceeds env tsPath before h).1⟩
  intro hfailed hsetup
  rw [(saveAvToTs_of_setupSucceeds env tsPath before hsetup).1] at hfailed
  simp at hfailed

/-- A save that succeeds leaves a file. -/
theorem exists_file_of_not_failed (env : SegmentEnv) (calls : MuxCalls) (tsPath : String)
    (vs : List EncodedVideoFrame) (as : List EncodedAudioFrame) (before : Option TsFile)
    (h : (saveAvToTs env calls tsPath vs as before).result.failed = false) :
    ∃ file, (saveAvToTs env calls tsPath vs as before).file = some file := by
  have hsetup : calls.setupSucceeds vs as := by
    by_contra hnot
    rw [(saveAvToTs_failed_iff ..).mpr hnot] at h
    cases h
  exact ⟨_, (saveAvToTs_of_setupSucceeds env tsPath before hsetup).2.2⟩

end AVCapture.Core
