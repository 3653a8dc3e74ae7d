import AVCapture.Core.RecordingConfig
import AVCapture.Core.RollingSegments
import AVCapture.Platform.ScreenRecorderBase
import AVCapture.Settings.LogSize

/-!
# Setting up the Media Recorder

Model of `MediaRecorder::initialize` (`core/MediaRecorder.cpp`) with what it calls:
`ScreenRecorderBase::initialize` with the `init_platform` of the two platforms,
`VideoEncoderQueue::initialize` and `RollingSegment::initialize`. They turn the numbers of
the settings into the capacity of the video buffer and the size of the segment ring. Before
it comes what `main` does with the settings, the log included.

A conversion that the language leaves undefined ends the model (`none`), so that nothing is
said about what comes after it.

## Main results

- `initialize_queue_init`: what is set up is where a run of the recorder's threads begins
- `segmentsToExport_of_initialize`: a save asks for the whole ring
- `settingsSafe_iff`: the settings with which every conversion and division is defined
-/

namespace AVCapture

open AVCapture.Utils Toml Rounding

/-! ## The host -/

namespace Core

/-- What `init_platform` finds: `width_`, `height_` and `rotation_`. -/
structure Display where
  width : Int
  height : Int
  rotation : RotationType

/-- The answers of the machine during one `initialize`: of the screen, of FFmpeg for the
    video encoder, and of the audio devices and the audio encoder. On Windows
    `init_platform` sets up an encoder of its own, before the base class does
    (`startupEncoder`). -/
structure Host where
  openDisplay : Result Display
  startupEncoder : Option VoidResult
  openVideoEncoder : VoidResult
  initAudio : VoidResult
  tempDirectory : String

/-- There is no screen to capture, or the first encoder for it cannot be opened. -/
def Host.RefusesBeforeBuffer (host : Host) : Prop :=
  host.openDisplay.failed ∨ (host.startupEncoder.getD host.openVideoEncoder).failed

/-- Something fails that is asked for when a video buffer has been set up. -/
def Host.RefusesAfterBuffer (host : Host) : Prop :=
  (host.startupEncoder.isSome ∧ host.openVideoEncoder.failed) ∨ host.initAudio.failed

instance (host : Host) : Decidable host.RefusesBeforeBuffer := inferInstanceAs (Decidable (_ ∨ _))

instance (host : Host) : Decidable host.RefusesAfterBuffer :=
  inferInstanceAs (Decidable ((_ ∧ _) ∨ _))

end Core

open AVCapture.Core

/-! ## The video encoder queue -/

namespace Encoding

/-- `VideoEncoder::create`; `opened` is what `VideoEncoder::initialize` returns. -/
def VideoEncoder.create (opened : VoidResult) : Result VideoEncoder :=
  Result.context "Failed initializing video encoder" (opened.map fun _ => {})

/-- `max_frames`: the length of the recording in frames, as the buffer's capacity. -/
def maxFrames (r : Mode) (config : VideoConfig) : Option Nat :=
  (Double.mul r config.recordingLengthSeconds (.ofInt config.fps)).toSizeT

/-- `VideoEncoderQueue::initialize` -/
def VideoEncoderQueue.initialize (r : Mode) (opened : VoidResult) (config : VideoConfig) :
    Option (Result VideoEncoderQueue) :=
  match Result.context "Failed initializing video encoder" (VideoEncoder.create opened) with
  | .error e => some (.error e)
  | .ok encoder =>
    match maxFrames r config with
    | none => none
    | some maxFrames =>
      some (.ok
        { width := config.width, height := config.height, encoder := encoder
          encodedBuffer := CircularBuffer.setCapacity {} maxFrames })

theorem queue_initialize_of_failed (r : Mode) {opened : VoidResult} (config : VideoConfig)
    (h : opened.failed = true) :
    ∃ e, VideoEncoderQueue.initialize r opened config = some (.error e) := by
  cases opened with
  | ok u => cases h
  | error e => exact ⟨_, rfl⟩

/-- With an encoder, the queue is set up exactly if the capacity is defined. -/
theorem queue_initialize_of_opened (r : Mode) {opened : VoidResult} (config : VideoConfig)
    (h : opened.failed = false) :
    VideoEncoderQueue.initialize r opened config =
      (maxFrames r config).map fun n => .ok
        { width := config.width, height := config.height
          encodedBuffer := { capacity := n } } := by
  cases opened with
  | error e => cases h
  | ok u =>
    unfold VideoEncoderQueue.initialize
    simp only [VideoEncoder.create, Except.map, Result.context]
    cases maxFrames r config with
    | none => rfl
    | some n => rfl

end Encoding

/-! ## The screen recorder -/

namespace Platform

open AVCapture.Encoding

/-- `ScreenRecorderBase` as `initialize` leaves it. -/
structure ScreenRecorder where
  config : VideoConfig
  queue : VideoEncoderQueue

/-- The configuration of the encoder: width and height are exchanged if the screen is
    rotated by a quarter turn. -/
def encoderConfig (display : Display) (config : VideoConfig) : VideoConfig :=
  let quarterTurn := display.rotation = .rotate90 ∨ display.rotation = .rotate270
  { width := if quarterTurn then display.height else display.width
    height := if quarterTurn then display.width else display.height
    fps := config.fps
    bitrate := config.bitrate
    rotation := display.rotation
    recordingLengthSeconds := config.recordingLengthSeconds }

/-- `init_platform`. On Windows it ends with `init_encoder`, whose queue the base class
    sets up once more. -/
def initPlatform (r : Mode) (host : Host) (config : VideoConfig) : Option (Result Display) :=
  match host.openDisplay with
  | .error e => some (.error e)
  | .ok display =>
    match host.startupEncoder with
    -- on Linux no encoder is opened at startup
    | none => some (.ok display)
    | some opened =>
      match VideoEncoderQueue.initialize r opened (encoderConfig display config) with
      | none => none
      | some (.error e) =>
        some (.error (makeError.withContext
          ("Failed to initialise encoder at startup: " ++ e.what)))
      | some (.ok _) => some (.ok display)

/-- `ScreenRecorderBase::initialize`, on a recorder that is not initialized yet. -/
def ScreenRecorder.initialize (r : Mode) (host : Host) (config : VideoConfig) :
    Option (Result ScreenRecorder) :=
  match initPlatform r host config with
  | none => none
  | some (.error e) =>
    some (.error (e.withContext "Failed initializing platform specific screen recorder"))
  | some (.ok display) =>
    match VideoEncoderQueue.initialize r host.openVideoEncoder
        (encoderConfig display config) with
    | none => none
    | some (.error e) =>
      some (.error (e.withContext "Failed initializing video encoder thread"))
    | some (.ok queue) => some (.ok { config := config, queue := queue })

section ScreenRecorder

variable (r : Mode) {host : Host} (config : VideoConfig)

theorem maxFrames_encoderConfig (display : Display) :
    maxFrames r (encoderConfig display config) = maxFrames r config := rfl

theorem screenRecorder_initialize_of_refuses (h : host.RefusesBeforeBuffer) :
    ∃ e, ScreenRecorder.initialize r host config = some (.error e) := by
  unfold ScreenRecorder.initialize initPlatform
  -- without a display nothing else is tried
  cases hdisplay : host.openDisplay with
  | error e => exact ⟨_, rfl⟩
  | ok display =>
    have hfirst : (host.startupEncoder.getD host.openVideoEncoder).failed = true := by
      simpa [Host.RefusesBeforeBuffer, hdisplay] using h
    -- the first encoder is that of the startup, or else that of the queue
    cases hstartup : host.startupEncoder with
    | none =>
      rw [hstartup] at hfirst
      obtain ⟨e, he⟩ := queue_initialize_of_failed r (encoderConfig display config) hfirst
      simp only [Option.getD_none] at he
      simp only [he]
      exact ⟨_, rfl⟩
    | some opened =>
      rw [hstartup] at hfirst
      obtain ⟨e, he⟩ := queue_initialize_of_failed r (encoderConfig display config) hfirst
      simp only [Option.getD_some] at he
      simp only [he]
      exact ⟨_, rfl⟩

/-- The first queue is set up with the capacity of the configuration, if that is defined. -/
theorem initPlatform_of_gives (h : ¬ host.RefusesBeforeBuffer) :
    ∃ display, initPlatform r host config =
      if host.startupEncoder.isSome then (maxFrames r config).map fun _ => .ok display
      else some (.ok display) := by
  obtain ⟨hdisplay, hfirst⟩ := not_or.mp h
  unfold initPlatform
  cases hopen : host.openDisplay with
  | error e => simp [hopen] at hdisplay
  | ok display =>
    refine ⟨display, ?_⟩
    cases hstartup : host.startupEncoder with
    | none => rfl
    | some opened =>
      have hopened : opened.failed = false := by simpa [hstartup] using hfirst
      simp only [queue_initialize_of_opened r _ hopened, maxFrames_encoderConfig]
      cases maxFrames r config with
      | none => rfl
      | some n => rfl

theorem screenRecorder_initialize_of_undefined (h : ¬ host.RefusesBeforeBuffer)
    (hmax : maxFrames r config = none) : ScreenRecorder.initialize r host config = none := by
  obtain ⟨display, hplatform⟩ := initPlatform_of_gives r config h
  unfold ScreenRecorder.initialize
  rw [hplatform, hmax]
  -- the first queue that is set up needs the capacity, whichever it is
  cases hstartup : host.startupEncoder with
  | some opened => rfl
  | none =>
    have hopened : host.openVideoEncoder.failed = false := by
      simpa [hstartup] using (not_or.mp h).2
    simp [queue_initialize_of_opened r _ hopened, maxFrames_encoderConfig, hmax]

/-- With a capacity that is defined, only the second encoder can still fail; otherwise the
    screen recorder has an empty queue, and a buffer of that capacity. -/
theorem screenRecorder_initialize_of_defined (h : ¬ host.RefusesBeforeBuffer) {n : Nat}
    (hmax : maxFrames r config = some n) :
    ((host.startupEncoder.isSome ∧ host.openVideoEncoder.failed) →
      ∃ e, ScreenRecorder.initialize r host config = some (.error e)) ∧
    (¬ (host.startupEncoder.isSome ∧ host.openVideoEncoder.failed) →
      ∃ width height, ScreenRecorder.initialize r host config = some (.ok
        { config := config
          queue := { width := width, height := height,
                     encodedBuffer := { capacity := n } } })) := by
  obtain ⟨display, hplatform⟩ := initPlatform_of_gives r config h
  -- with a capacity the platform is set up on either system
  have hgiven : initPlatform r host config = some (.ok display) := by
    rw [hplatform, hmax]
    split <;> rfl
  unfold ScreenRecorder.initialize
  rw [hgiven]
  -- the encoder of the second queue, or on Linux of the only one
  cases hopened : host.openVideoEncoder.failed with
  | true =>
    obtain ⟨e, he⟩ := queue_initialize_of_failed r (encoderConfig display config) hopened
    simp only [he]
    refine ⟨fun _ => ⟨_, rfl⟩, fun hnot => ?_⟩
    -- on Linux it is the first encoder that has failed
    have hstartup : host.startupEncoder = none := by simpa using hnot
    exact absurd (Or.inr (by rw [hstartup]; exact hopened)) h
  | false =>
    simp only [queue_initialize_of_opened r _ hopened, maxFrames_encoderConfig, hmax]
    exact ⟨fun hfailed => absurd hfailed.2 Bool.false_ne_true, fun _ => ⟨_, _, rfl⟩⟩

end ScreenRecorder

end Platform

/-! ## The media recorder -/

namespace Core

open AVCapture.Platform AVCapture.Encoding

/-- `MediaRecorder` as `initialize` leaves it: the configurations that its three parts
    keep, and the video queue. -/
structure MediaRecorder where
  recorderConfig : RecordingConfig
  screenRecorder : ScreenRecorder
  audioConfig : AudioConfig
  segmentConfig : Config

/-- What the screen recorder is configured with: it keeps the frames of one segment. -/
def screenRecorderConfig (cfg : RecordingConfig) : VideoConfig :=
  { fps := cfg.video.fps
    bitrate := cfg.video.bitrate
    recordingLengthSeconds := cfg.video.segmentBufferSeconds }

/-- `MediaRecorder::initialize`. The screen recorder is a new one, and the audio capturer
    is not initialized yet. -/
def MediaRecorder.initialize (r : Mode) (host : Host) (cfg : RecordingConfig) :
    Option (Result MediaRecorder) :=
  match ScreenRecorder.initialize r host (screenRecorderConfig cfg) with
  | none => none
  | some (.error e) => some (.error (e.withContext "Failed to initialize screen recorder"))
  | some (.ok screenRecorder) =>
    let audioConfig : AudioConfig :=
      { cfg.audio with recordingLengthSeconds := cfg.video.segmentBufferSeconds }
    match Result.context "Failed to initialize audio capturer" host.initAudio with
    | .error e => some (.error e)
    | .ok () =>
      match cfg.video.segmentBufferSeconds.toInt32 with
      | none => none
      | some segmentBufferSeconds =>
        match (Double.div r cfg.video.recordingLengthSeconds
            cfg.video.segmentBufferSeconds).toSizeT with
        | none => none
        | some ringSize =>
          -- `RollingSegment::initialize` keeps its configuration and succeeds
          some (.ok
            { recorderConfig := cfg
              screenRecorder := screenRecorder
              audioConfig := audioConfig
              segmentConfig :=
                { dir := inDir (inDir host.tempDirectory "AVCapture") "ring"
                  segmentBufferSeconds := segmentBufferSeconds
                  ringSize := ringSize } })

/-- `segments_to_export` of `save_recording_to` -/
def MediaRecorder.segmentsToExport (r : Mode) (recorder : MediaRecorder) : Option Nat :=
  (Double.div r recorder.recorderConfig.video.recordingLengthSeconds
    recorder.recorderConfig.video.segmentBufferSeconds).toSizeT

/-! ## Defined arithmetic -/

/-- Nothing that the threads compute from the configuration is undefined, and the video
    buffer is bounded: the ratio behind the ring size is finite and not negative, `seq_` can
    be divided by the ring size, and a second by the frame rate. -/
structure MediaRecorder.ArithmeticDefined (r : Mode) (recorder : MediaRecorder) : Prop where
  ratio : ∃ q, Double.div r recorder.recorderConfig.video.recordingLengthSeconds
    recorder.recorderConfig.video.segmentBufferSeconds = .finite q ∧ 0 ≤ q
  ringSize : 1 ≤ recorder.segmentConfig.ringSize
  fps : recorder.screenRecorder.config.fps ≠ 0
  capacity : 1 ≤ recorder.screenRecorder.queue.encodedBuffer.capacity

/-- `initialize` returns an error, or a recorder whose arithmetic is defined. -/
def InitializesSafely (r : Mode) (host : Host) (cfg : RecordingConfig) : Prop :=
  match MediaRecorder.initialize r host cfg with
  | none => False
  | some (.error _) => True
  | some (.ok recorder) => recorder.ArithmeticDefined r

/-- `main` up to the configuration of the recorder; `none` if it has ended before. -/
def mainConfig (build : Build) (values : NodeValues) (logHost : Log.LogHost)
    (file : Except String Table) : Option RecordingConfig :=
  match Settings.load file with
  | .error _ => none
  | .ok settings =>
    match Log.initLoggingFromSettings build values logHost settings with
    | .crashed _ | .stopped | .stoppedLogging _ _ => none
    | .started _ _ _ => makeRecordingConfig build values settings

/-- Whatever configuration the program makes of its settings file, the recorder is
    initialized safely. -/
def SettingsSafe (r : Mode) (host : Host) (build : Build) (values : NodeValues)
    (logHost : Log.LogHost) (file : Except String Table) : Prop :=
  ∀ cfg, mainConfig build values logHost file = some cfg → InitializesSafely r host cfg

/-- The lengths and the frame rate that give a ring with a slot and a bounded buffer. -/
def RingAndBuffer (fps len seg : Int) : Prop :=
  (0 < seg ∧ seg ≤ len ∧ 0 < fps) ∨ (len ≤ seg ∧ seg < 0 ∧ fps < 0)

instance (fps len seg : Int) : Decidable (RingAndBuffer fps len seg) :=
  inferInstanceAs (Decidable (_ ∨ _))

/-! ## What is set up -/

/-- A media recorder that `initialize` has set up: its screen recorder was set up for the
    length of a segment, and its ring has as many slots as the ratio gives. -/
theorem initialize_ok_inv {r : Mode} {host : Host} {cfg : RecordingConfig}
    {recorder : MediaRecorder}
    (h : MediaRecorder.initialize r host cfg = some (.ok recorder)) :
    ScreenRecorder.initialize r host (screenRecorderConfig cfg) =
      some (.ok recorder.screenRecorder) ∧
    recorder.recorderConfig = cfg ∧
    (Double.div r cfg.video.recordingLengthSeconds cfg.video.segmentBufferSeconds).toSizeT =
      some recorder.segmentConfig.ringSize := by
  unfold MediaRecorder.initialize at h
  -- each of the parts has been set up, or it would not be `ok`
  split at h
  · cases h
  · cases h
  · rename_i screenRecorder hscreen
    split at h
    · cases h
    · split at h
      · cases h
      · split at h
        · cases h
        · rename_i ringSize hring
          cases h
          exact ⟨hscreen, rfl, hring⟩

theorem queue_of_screenRecorder_initialize {r : Mode} {host : Host} {config : VideoConfig}
    {screenRecorder : ScreenRecorder}
    (h : ScreenRecorder.initialize r host config = some (.ok screenRecorder)) :
    ∃ width height capacity, screenRecorder.queue =
      { width := width, height := height, encodedBuffer := { capacity := capacity } } := by
  -- with a refusal or without a capacity there would be no screen recorder
  by_cases hrefuses : host.RefusesBeforeBuffer
  · obtain ⟨e, he⟩ := screenRecorder_initialize_of_refuses r config hrefuses
    rw [he] at h
    cases h
  · cases hmax : maxFrames r config with
    | none =>
      rw [screenRecorder_initialize_of_undefined r config hrefuses hmax] at h
      cases h
    | some n =>
      obtain ⟨hlate, hok⟩ := screenRecorder_initialize_of_defined r config hrefuses hmax
      by_cases hsecond : host.startupEncoder.isSome ∧ host.openVideoEncoder.failed
      · obtain ⟨e, he⟩ := hlate hsecond
        rw [he] at h
        cases h
      · obtain ⟨width, height, hqueue⟩ := hok hsecond
        rw [hqueue] at h
        cases h
        exact ⟨width, height, n, rfl⟩

/-- **The threads start here**: the recorder's queue is one that a run of its threads may
    begin with. -/
theorem initialize_queue_init {r : Mode} {host : Host} {cfg : RecordingConfig}
    {recorder : MediaRecorder} (bound : Nat)
    (h : MediaRecorder.initialize r host cfg = some (.ok recorder)) :
    (recorderSystem bound).init { queue := recorder.screenRecorder.queue } := by
  obtain ⟨hscreen, -, -⟩ := initialize_ok_inv h
  obtain ⟨width, height, capacity, hqueue⟩ := queue_of_screenRecorder_initialize hscreen
  exact ⟨width, height, capacity, by rw [hqueue]⟩

/-- **A save asks for the whole ring**: `save_recording_to` computes the number of slots
    again. -/
theorem segmentsToExport_of_initialize {r : Mode} {host : Host} {cfg : RecordingConfig}
    {recorder : MediaRecorder}
    (h : MediaRecorder.initialize r host cfg = some (.ok recorder)) :
    recorder.segmentsToExport r = some recorder.segmentConfig.ringSize := by
  obtain ⟨-, hcfg, hring⟩ := initialize_ok_inv h
  unfold MediaRecorder.segmentsToExport
  rw [hcfg]
  exact hring

/-- Where the arithmetic is defined, every tick writes a slot of the ring. -/
theorem MediaRecorder.ArithmeticDefined.nextSlot_lt {r : Mode} {recorder : MediaRecorder}
    (h : recorder.ArithmeticDefined r) (s : Segmenter) :
    s.nextSlot recorder.segmentConfig < recorder.segmentConfig.ringSize :=
  Nat.mod_lt _ h.ringSize

/-! ## When the settings are safe -/

section Main

variable {build : Build} {values : NodeValues} {file : Except String Table}
  {settings : Settings} {cfg : RecordingConfig}

theorem mainConfig_of_logReadable (logHost : Log.LogHost)
    (hload : Settings.load file = .ok settings) (h : Log.LogReadable build values settings) :
    mainConfig build values logHost file = makeRecordingConfig build values settings := by
  obtain ⟨sink, warning, level, hstarted⟩ :=
    (Log.initLoggingFromSettings_started_iff build values logHost settings).mpr h
  unfold mainConfig
  simp only [hload, hstarted]

theorem logReadable_of_mainConfig {logHost : Log.LogHost}
    (hload : Settings.load file = .ok settings)
    (h : mainConfig build values logHost file = some cfg) :
    Log.LogReadable build values settings := by
  rw [← Log.initLoggingFromSettings_started_iff build values logHost settings]
  unfold mainConfig at h
  simp only [hload] at h
  -- the log was set up, and the program is still running
  split at h
  · cases h
  · cases h
  · cases h
  · rename_i sink warning level hstarted
    exact ⟨sink, warning, level, hstarted⟩

end Main

theorem product_nonneg_of_ringAndBuffer {fps len seg : Int} (h : RingAndBuffer fps len seg) :
    0 ≤ seg * fps := by
  -- both factors are positive, or both are negative
  rcases h with ⟨hseg, -, hfps⟩ | ⟨-, hseg, hfps⟩
  · exact (mul_pos hseg hfps).le
  · exact (mul_pos_of_neg_of_neg hseg hfps).le

/-- The numbers are right exactly if both conversions give at least 1. -/
theorem ringAndBuffer_iff (r : Mode) {fps len seg : Int} (hfps : IsInt32 fps)
    (hlen : IsInt32 len) (hseg : IsInt32 seg) :
    RingAndBuffer fps len seg ↔
      (∃ n, (Double.div r (.ofInt len) (.ofInt seg)).toSizeT = some n ∧ 1 ≤ n) ∧
      ∃ n, (Double.mul r (.ofInt seg) (.ofInt fps)).toSizeT = some n ∧ 1 ≤ n := by
  rw [toSizeT_div_pos_iff r hlen hseg, toSizeT_mul_pos_iff r hseg hfps, RingAndBuffer]
  omega

/-- A recorder is initialized safely exactly if the host refuses something at once, or
    later on with a capacity that is defined, or the numbers are right. -/
theorem initializesSafely_iff (r : Mode) (host : Host) {cfg : RecordingConfig}
    {fps len seg : Int} (hfps : cfg.video.fps = fps)
    (hlen : cfg.video.recordingLengthSeconds = .ofInt len)
    (hseg : cfg.video.segmentBufferSeconds = .ofInt seg)
    (hfps32 : IsInt32 fps) (hlen32 : IsInt32 len) (hseg32 : IsInt32 seg) :
    InitializesSafely r host cfg ↔
      host.RefusesBeforeBuffer ∨ (host.RefusesAfterBuffer ∧ 0 ≤ seg * fps) ∨
        RingAndBuffer fps len seg := by
  -- the capacity is computed from the length of a segment
  have hmax : maxFrames r (screenRecorderConfig cfg) =
      (Double.mul r (.ofInt seg) (.ofInt fps)).toSizeT := by
    rw [← hseg, ← hfps]
    rfl
  have hmul := toSizeT_mul_isSome_iff r hseg32 hfps32
  have hright := ringAndBuffer_iff r hfps32 hlen32 hseg32
  unfold InitializesSafely MediaRecorder.initialize
  by_cases hrefuses : host.RefusesBeforeBuffer
  · obtain ⟨e, he⟩ :=
      screenRecorder_initialize_of_refuses r (screenRecorderConfig cfg) hrefuses
    simp only [he, hrefuses, true_or]
  · simp only [hrefuses, false_or]
    cases hcapacity : (Double.mul r (.ofInt seg) (.ofInt fps)).toSizeT with
    | none =>
      -- a negative product, and nothing that could still fail has been asked for
      have hneg : ¬ 0 ≤ seg * fps := by simp [← hmul, hcapacity]
      have hwrong : ¬ RingAndBuffer fps len seg :=
        fun h => hneg (product_nonneg_of_ringAndBuffer h)
      rw [hcapacity] at hmax
      simp only [screenRecorder_initialize_of_undefined r _ hrefuses hmax, hneg, hwrong,
        and_false, or_self]
    | some maxFrames =>
      have hnonneg : 0 ≤ seg * fps := by simp [← hmul, hcapacity]
      rw [hcapacity] at hmax
      obtain ⟨hlate, hok⟩ := screenRecorder_initialize_of_defined r _ hrefuses hmax
      unfold Host.RefusesAfterBuffer
      -- the second encoder is opened behind the capacity, and the audio after that
      by_cases hsecond : host.startupEncoder.isSome ∧ host.openVideoEncoder.failed
      · obtain ⟨e, he⟩ := hlate hsecond
        simp only [he, hsecond, and_self, true_or, hnonneg]
      · obtain ⟨width, height, hqueue⟩ := hok hsecond
        simp only [hqueue, hsecond, false_or, hnonneg, and_true, hlen, hseg,
          Double.toInt32_ofInt hseg32]
        cases haudio : host.initAudio with
        | error e => simp [Result.context]
        | ok given =>
          simp only [Result.context, Result.failed_ok, Bool.false_eq_true, false_or, hright]
          cases hratio : (Double.div r (.ofInt len) (.ofInt seg)).toSizeT with
          | none => simp
          | some ringSize =>
            simp only [hcapacity, Option.some.injEq, exists_eq_left']
            -- with both conversions right, everything else that is computed is defined
            refine ⟨fun h => ⟨h.ringSize, h.capacity⟩, fun h => ⟨?_, h.1, ?_, h.2⟩⟩
            · obtain ⟨q, hq, hone⟩ := finite_of_toSizeT_pos hratio h.1
              refine ⟨q, ?_, by linarith⟩
              rw [hlen, hseg, hq]
            · have hsigns :=
                (toSizeT_mul_pos_iff r hseg32 hfps32).mp ⟨maxFrames, hcapacity, h.2⟩
              show cfg.video.fps ≠ 0
              omega

/-- **Safe settings**: for a file whose frame rate and lengths are integers, the recorder
    is initialized safely, or with an error, exactly if

    - the program ends before, in the settings of its log or of the recording, or
    - the host refuses something, and where that is after the capacity has been computed,
      the capacity is not negative, or
    - the recording is at least one segment long and the frame rate is positive, or all
      three numbers are negative and the ratio of the lengths is at least 1.

    The numbers are those that the lookups give: the ones of the file where they fit an
    `int`. -/
theorem settingsSafe_iff (r : Mode) (host : Host) (build : Build) (values : NodeValues)
    (logHost : Log.LogHost) {file : Except String Table} {settings : Settings}
    {fps len seg : Int} (hload : Settings.load file = .ok settings)
    (hints : IntegersAt settings fps len seg) :
    SettingsSafe r host build values logHost file ↔
      (Log.LogReadable build values settings → OthersReadable build values settings →
        ∀ fps' len' seg', NumbersRead build fps len seg fps' len' seg' →
          host.RefusesBeforeBuffer ∨ (host.RefusesAfterBuffer ∧ 0 ≤ seg' * fps') ∨
            RingAndBuffer fps' len' seg') := by
  -- from a safe file to its numbers: a program that comes so far has made its configuration of them
  constructor
  · intro hsafe hlog hothers fps' len' seg' hnumbers
    obtain ⟨cfg, hcfg, hfps, hlen, hseg⟩ :=
      makeRecordingConfig_of_readable values hints hnumbers hothers
    obtain ⟨hfps32, hlen32, hseg32⟩ := hnumbers.isInt32
    have hmain : mainConfig build values logHost file = some cfg :=
      (mainConfig_of_logReadable logHost hload hlog).trans hcfg
    exact (initializesSafely_iff r host hfps hlen hseg hfps32 hlen32 hseg32).mp
      (hsafe cfg hmain)
  · -- and back: a configuration that was made shows that the program has come so far
    intro h cfg hmain
    have hlog := logReadable_of_mainConfig hload hmain
    rw [mainConfig_of_logReadable logHost hload hlog] at hmain
    obtain ⟨hothers, fps', len', seg', hnumbers, hfps, hlen, hseg⟩ :=
      readable_of_makeRecordingConfig hints hmain
    obtain ⟨hfps32, hlen32, hseg32⟩ := hnumbers.isInt32
    exact (initializesSafely_iff r host hfps hlen hseg hfps32 hlen32 hseg32).mpr
      (h hlog hothers fps' len' seg' hnumbers)

/-- A Linux host that has everything. -/
def completeHost : Host where
  openDisplay := .ok { width := 1920, height := 1080, rotation := .identity }
  startupEncoder := none
  openVideoEncoder := .ok ()
  initAudio := .ok ()
  tempDirectory := "/tmp"

/-- The settings of an empty file. -/
theorem emptyFile_safe :
    SettingsSafe .ideal completeHost .debug .exact Log.sinkHost (.ok .nil) := by
  have hints : IntegersAt { table := Settings.mergeInto Settings.defaults .nil } 30 10 2 :=
    ⟨rfl, rfl, rfl⟩
  have hread : NumbersRead .debug 30 10 2 30 10 2 :=
    numbersRead_of_isInt32 .debug (by decide) (by decide) (by decide)
  refine (settingsSafe_iff .ideal completeHost .debug .exact Log.sinkHost rfl hints).mpr ?_
  intro _ _ fps' len' seg' hnumbers
  obtain ⟨rfl, rfl, rfl⟩ := hread.unique hnumbers
  exact .inr (.inr (by decide))

/-- A recording of one second, with segments of two. -/
def shortRecording : Table :=
  .ofList [("recording", .table (.ofList
    [("recording_length_seconds", .integer 1), ("segment_buffer_seconds", .integer 2)]))]

/-- The ring gets no slot, and nothing refuses that. -/
theorem shortRecording_has_no_ring :
    ¬ SettingsSafe .ideal completeHost .debug .exact Log.sinkHost (.ok shortRecording) := by
  -- the ratio of one to two gives a ring without a slot
  intro hsafe
  let settings : Settings := { table := Settings.mergeInto Settings.defaults shortRecording }
  have hints : IntegersAt settings 30 1 2 := ⟨rfl, rfl, rfl⟩
  have hlog : Log.LogReadable .debug .exact settings :=
    ⟨⟨"5mb", 5242880, rfl, by decide⟩, rfl, rfl⟩
  have hread : NumbersRead .debug 30 1 2 30 1 2 :=
    numbersRead_of_isInt32 .debug (by decide) (by decide) (by decide)
  obtain ⟨cfg, hcfg, hfps, hlen, hseg⟩ :=
    makeRecordingConfig_of_readable .exact hints hread ⟨rfl, rfl, rfl, rfl⟩
  have hmain : mainConfig .debug .exact Log.sinkHost (.ok shortRecording) = some cfg :=
    (mainConfig_of_logReadable Log.sinkHost rfl hlog).trans hcfg
  have houtcome := hsafe cfg hmain
  rw [initializesSafely_iff .ideal completeHost hfps hlen hseg (by decide) (by decide)
    (by decide)] at houtcome
  exact absurd houtcome (by decide)

end Core

end AVCapture
