import AVCapture.Settings

/-!
# The Recording Configuration

Model of `RecordingConfig`, `VideoConfig` and `AudioConfig` (`core/RecordingConfig.hpp`,
`core/video/VideoConfig.hpp`, `core/audio/AudioConfig.hpp`), and of
`make_recording_config` (`main.cpp`), which fills them from the settings.

## Main results

- `makeRecordingConfig_of_readable`, `readable_of_makeRecordingConfig`: from which settings
  a configuration is made, and with which numbers
-/

namespace AVCapture.Core

open AVCapture Toml Rounding

/-! ## Configurations -/

inductive RotationType where
  | unspecified
  | identity
  | rotate90
  | rotate180
  | rotate270
  deriving DecidableEq, Repr

/-- `width_` and `height_` have no default in the source, and only the copy for the encoder
    is ever read. -/
structure VideoConfig where
  width : Int := 0
  height : Int := 0
  fps : Int := 5
  bitrate : Int := 4000000
  recordingLengthSeconds : Double := .finite 10
  segmentBufferSeconds : Double := .finite 2
  rotation : RotationType := .unspecified

structure AudioConfig where
  sampleRate : Int := 8000
  channels : Int := 1
  bitrate : Int := 48000
  recordingLengthSeconds : Double := .finite 10
  bufferFrameSize : Nat := 1024
  outputDeviceName : String := ""
  inputDeviceName : String := ""

structure RecordingConfig where
  video : VideoConfig := {}
  audio : AudioConfig := {}
  outputDirectory : String := ""

/-! ## From the settings -/

/-- `make_recording_config`; `none` when one of the lookups ends the program. -/
def makeRecordingConfig (build : Build) (values : NodeValues) (settings : Settings) :
    Option RecordingConfig := do
  let fps ← settings.getInt build values Settings.Path.kFPS
  let recordingLengthSeconds ←
    settings.getInt build values Settings.Path.kRECORDING_LENGTH_SECONDS
  let segmentBufferSeconds ← settings.getInt build values Settings.Path.kSEGMENT_BUFFER_SECONDS
  let bitrate ← settings.getInt build values Settings.Path.kBITRATE
  let outputDeviceName ← settings.getString build values Settings.Path.kOUTPUT_DEVICE_NAME
  let inputDeviceName ← settings.getString build values Settings.Path.kINPUT_DEVICE_NAME
  let outputDirectory ← settings.getString build values Settings.Path.kOUTPUT_DIRECTORY
  return {
    video := {
      fps := fps
      recordingLengthSeconds := .ofInt recordingLengthSeconds
      segmentBufferSeconds := .ofInt segmentBufferSeconds
      bitrate := bitrate }
    audio := { outputDeviceName := outputDeviceName, inputDeviceName := inputDeviceName }
    outputDirectory := outputDirectory }

/-- The settings of a recording apart from its three numbers: no lookup of one of them ends
    the program. -/
structure OthersReadable (build : Build) (values : NodeValues) (settings : Settings) :
    Prop where
  bitrate : (settings.getInt build values Settings.Path.kBITRATE).isSome
  outputDeviceName :
    (settings.getString build values Settings.Path.kOUTPUT_DEVICE_NAME).isSome
  inputDeviceName : (settings.getString build values Settings.Path.kINPUT_DEVICE_NAME).isSome
  outputDirectory : (settings.getString build values Settings.Path.kOUTPUT_DIRECTORY).isSome

/-- The three numbers are integers in the settings. -/
structure IntegersAt (settings : Settings) (fps len seg : Int) : Prop where
  fps : settings.table.atPath Settings.Path.kFPS = some (.integer fps)
  recordingLengthSeconds :
    settings.table.atPath Settings.Path.kRECORDING_LENGTH_SECONDS = some (.integer len)
  segmentBufferSeconds :
    settings.table.atPath Settings.Path.kSEGMENT_BUFFER_SECONDS = some (.integer seg)

/-- The three numbers that the lookups give for these integers. -/
structure NumbersRead (build : Build) (fps len seg fps' len' seg' : Int) : Prop where
  fps : build.number Settings.Path.kFPS fps = some fps'
  recordingLengthSeconds :
    build.number Settings.Path.kRECORDING_LENGTH_SECONDS len = some len'
  segmentBufferSeconds : build.number Settings.Path.kSEGMENT_BUFFER_SECONDS seg = some seg'

/-- Integers that fit an `int` are read as they are. -/
theorem numbersRead_of_isInt32 (build : Build) {fps len seg : Int} (hfps : IsInt32 fps)
    (hlen : IsInt32 len) (hseg : IsInt32 seg) :
    NumbersRead build fps len seg fps len seg :=
  ⟨build.number_of_isInt32 _ hfps, build.number_of_isInt32 _ hlen,
    build.number_of_isInt32 _ hseg⟩

/-- Each number is read once. -/
theorem NumbersRead.unique {build : Build} {fps len seg fps₁ len₁ seg₁ fps₂ len₂ seg₂ : Int}
    (h₁ : NumbersRead build fps len seg fps₁ len₁ seg₁)
    (h₂ : NumbersRead build fps len seg fps₂ len₂ seg₂) :
    fps₁ = fps₂ ∧ len₁ = len₂ ∧ seg₁ = seg₂ :=
  ⟨Option.some.inj (h₁.fps.symm.trans h₂.fps),
    Option.some.inj (h₁.recordingLengthSeconds.symm.trans h₂.recordingLengthSeconds),
    Option.some.inj (h₁.segmentBufferSeconds.symm.trans h₂.segmentBufferSeconds)⟩

theorem NumbersRead.isInt32 {build : Build} {fps len seg fps' len' seg' : Int}
    (h : NumbersRead build fps len seg fps' len' seg') :
    IsInt32 fps' ∧ IsInt32 len' ∧ IsInt32 seg' :=
  ⟨Build.isInt32_of_number h.fps, Build.isInt32_of_number h.recordingLengthSeconds,
    Build.isInt32_of_number h.segmentBufferSeconds⟩

section Lookups

variable {build : Build} {values : NodeValues} {settings : Settings}
  {fps len seg fps' len' seg' : Int}

variable (values) in
/-- Where no lookup ends the program, it has a configuration with the numbers read. -/
theorem makeRecordingConfig_of_readable (hints : IntegersAt settings fps len seg)
    (hnumbers : NumbersRead build fps len seg fps' len' seg')
    (hothers : OthersReadable build values settings) :
    ∃ cfg, makeRecordingConfig build values settings = some cfg ∧ cfg.video.fps = fps' ∧
      cfg.video.recordingLengthSeconds = .ofInt len' ∧
      cfg.video.segmentBufferSeconds = .ofInt seg' := by
  obtain ⟨bitrate, hbitrate⟩ := Option.isSome_iff_exists.mp hothers.bitrate
  obtain ⟨outputName, houtput⟩ := Option.isSome_iff_exists.mp hothers.outputDeviceName
  obtain ⟨inputName, hinput⟩ := Option.isSome_iff_exists.mp hothers.inputDeviceName
  obtain ⟨directory, hdirectory⟩ := Option.isSome_iff_exists.mp hothers.outputDirectory
  -- each number is looked up where the file has an integer
  have hfps := (Settings.getInt_of_integer build values hints.fps).trans hnumbers.fps
  have hlen := (Settings.getInt_of_integer build values hints.recordingLengthSeconds).trans
    hnumbers.recordingLengthSeconds
  have hseg := (Settings.getInt_of_integer build values hints.segmentBufferSeconds).trans
    hnumbers.segmentBufferSeconds
  simp [makeRecordingConfig, hfps, hlen, hseg, hbitrate, houtput, hinput, hdirectory]

/-- A configuration is made in no other way, and it has the numbers read. -/
theorem readable_of_makeRecordingConfig {cfg : RecordingConfig}
    (hints : IntegersAt settings fps len seg)
    (h : makeRecordingConfig build values settings = some cfg) :
    OthersReadable build values settings ∧
      ∃ fps' len' seg', NumbersRead build fps len seg fps' len' seg' ∧
        cfg.video.fps = fps' ∧ cfg.video.recordingLengthSeconds = .ofInt len' ∧
        cfg.video.segmentBufferSeconds = .ofInt seg' := by
  -- the lookups that have given something, one by one
  simp only [makeRecordingConfig, Settings.getInt_of_integer build values hints.fps,
    Settings.getInt_of_integer build values hints.recordingLengthSeconds,
    Settings.getInt_of_integer build values hints.segmentBufferSeconds, Option.bind_eq_bind,
    Option.bind_eq_some_iff, Option.some.injEq, Option.pure_def] at h
  obtain ⟨fps', hfps, len', hlen, seg', hseg, bitrate, hbitrate, outputName, houtput,
    inputName, hinput, directory, hdirectory, rfl⟩ := h
  refine ⟨⟨?_, ?_, ?_, ?_⟩, fps', len', seg', ⟨hfps, hlen, hseg⟩, rfl, rfl, rfl⟩
  · simp [hbitrate]
  · simp [houtput]
  · simp [hinput]
  · simp [hdirectory]

end Lookups

end AVCapture.Core
