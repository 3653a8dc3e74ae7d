import AVCapture.Settings.Lookups

/-!
# The Settings Dialog

Model of `Tray::SettingsDialog` (`tray/SettingsDialog.cpp`): the form that is filled from
the settings file when the dialog is opened, and the file that is written when it is saved.

Whatever the form shows, the recorder reads it back from the file that is written
(`reads_root`). What the form shows of a file is another matter: a number outside the range
of its box is moved into it (`load_readings`).

## Main results

- `reads_root`, `fits_readings`: from form to file to the recorder
- `load_readings`: from file to form
- `open_and_save`: opening and saving
-/

namespace AVCapture.Tray

open AVCapture Toml Settings Widgets Saturation

/-! ## The form -/

def kLogLevels : List String := ["trace", "debug", "info", "warn", "error", "critical", "off"]

/-- The widgets, with the ranges that the constructor sets. A number box starts at zero, and
    the level at the first item. -/
structure SettingsDialog where
  apiAddress : String := ""
  apiPort : SpinBox 1 65535 := .ofRange (by decide) 0
  apiKey : String := ""
  fps : SpinBox 1 240 := .ofRange (by decide) 0
  bitrate : SpinBox 1 100000000 := .ofRange (by decide) 0
  recordingLengthSeconds : SpinBox 1 3600 := .ofRange (by decide) 0
  segmentBufferSeconds : SpinBox 1 3600 := .ofRange (by decide) 0
  outputDirectory : String := ""
  outputDeviceName : String := ""
  inputDeviceName : String := ""
  logLevel : ComboBox kLogLevels := ⟨⟨0, by decide⟩⟩
  maxLogSize : String := ""
  maxFiles : SpinBox 1 1000 := .ofRange (by decide) 0

namespace SettingsDialog

/-- The widgets before the file is loaded. -/
def init : SettingsDialog := {}

/-- The level that is shown; one that is not in the list leaves the box as it is. -/
def showLevel (box : ComboBox kLogLevels) (level : String) : ComboBox kLogLevels :=
  match box.findText level with
  | some index => box.setCurrentIndex index
  | none => box

theorem showLevel_of_mem {level : String} (h : level ∈ kLogLevels) (box : ComboBox kLogLevels) :
    (showLevel box level).currentText = level := by
  obtain ⟨index, hindex⟩ := ComboBox.findText_of_mem h box
  rw [showLevel, hindex]
  exact ComboBox.currentText_of_findText hindex

/-- `load`; on a parse error there is a warning, and the widgets stay as they are. -/
def load (dialog : SettingsDialog) (values : PortValues) (file : Except String Document) :
    SettingsDialog :=
  match file with
  | .error _ => dialog
  | .ok document =>
    let t := document.table
    { apiAddress := t.valueOr values.string ["api", "address"] "127.0.0.1"
      apiPort := dialog.apiPort.setValue (t.valueOr values.int ["api", "port"] 8084)
      apiKey := t.valueOr values.string ["api", "api_key"] ""
      fps := dialog.fps.setValue (t.valueOr values.int ["recording", "fps"] 30)
      bitrate := dialog.bitrate.setValue (t.valueOr values.int ["recording", "bitrate"] 4000000)
      recordingLengthSeconds := dialog.recordingLengthSeconds.setValue
        (t.valueOr values.int ["recording", "recording_length_seconds"] 10)
      segmentBufferSeconds := dialog.segmentBufferSeconds.setValue
        (t.valueOr values.int ["recording", "segment_buffer_seconds"] 2)
      outputDirectory :=
        t.valueOr values.string ["recording", "output_directory"] "recordings"
      outputDeviceName := t.valueOr values.string ["audio", "output_device_name"] ""
      inputDeviceName := t.valueOr values.string ["audio", "input_device_name"] ""
      logLevel := showLevel dialog.logLevel (t.valueOr values.string ["log", "level"] "info")
      maxLogSize := t.valueOr values.string ["log", "max_log_size"] "5mb"
      maxFiles := dialog.maxFiles.setValue (t.valueOr values.int ["log", "max_files"] 5) }

/-- What the widgets show. -/
def readings (dialog : SettingsDialog) : Readings where
  apiAddress := dialog.apiAddress
  apiPort := dialog.apiPort.value
  apiKey := dialog.apiKey
  fps := dialog.fps.value
  bitrate := dialog.bitrate.value
  recordingLengthSeconds := dialog.recordingLengthSeconds.value
  segmentBufferSeconds := dialog.segmentBufferSeconds.value
  outputDirectory := dialog.outputDirectory
  outputDeviceName := dialog.outputDeviceName
  inputDeviceName := dialog.inputDeviceName
  logLevel := dialog.logLevel.currentText
  maxLogSize := dialog.maxLogSize
  maxFiles := dialog.maxFiles.value

def apiTable (r : Readings) : Table :=
  .ofInserts
    [("address", .string r.apiAddress), ("port", .integer r.apiPort),
      ("api_key", .string r.apiKey)]

def recordingTable (r : Readings) : Table :=
  .ofInserts
    [("fps", .integer r.fps), ("bitrate", .integer r.bitrate),
      ("recording_length_seconds", .integer r.recordingLengthSeconds),
      ("segment_buffer_seconds", .integer r.segmentBufferSeconds),
      ("output_directory", .string r.outputDirectory)]

def audioTable (r : Readings) : Table :=
  .ofInserts
    [("output_device_name", .string r.outputDeviceName),
      ("input_device_name", .string r.inputDeviceName)]

def logTable (r : Readings) : Table :=
  .ofInserts
    [("level", .string r.logLevel), ("max_log_size", .string r.maxLogSize),
      ("max_files", .integer r.maxFiles)]

/-- A table with no table in it. -/
theorem sorted_of_leaves {entries : List (String × Node)}
    (h : ∀ entry ∈ entries, entry.2.isTable = false) : (Table.ofInserts entries).Sorted := by
  refine Table.sorted_ofInserts fun entry hentry => ?_
  have hleaf := h entry hentry
  cases hnode : entry.2 with
  | table t =>
    rw [hnode] at hleaf
    cases hleaf
  | _ => trivial

/-- The table that `on_save_clicked` makes of what the widgets show. -/
def root (r : Readings) : Document where
  table := .ofInserts
    [("api", .table (apiTable r)), ("recording", .table (recordingTable r)),
      ("audio", .table (audioTable r)), ("log", .table (logTable r))]
  sorted := by
    have hapi : (apiTable r).Sorted := sorted_of_leaves (by simp [Node.isTable])
    have hrecording : (recordingTable r).Sorted := sorted_of_leaves (by simp [Node.isTable])
    have haudio : (audioTable r).Sorted := sorted_of_leaves (by simp [Node.isTable])
    have hlog : (logTable r).Sorted := sorted_of_leaves (by simp [Node.isTable])
    refine Table.sorted_ofInserts ?_
    simp only [List.forall_mem_cons, List.not_mem_nil, false_implies, implies_true, and_true]
    exact ⟨hapi, hrecording, haudio, hlog⟩

/-- What is written is of the kind that is read back. -/
theorem plain_root {r : Readings} (h : r.Fits) : (root r).table.Plain := by
  have hstring (s : String) : (Node.string s).Plain := trivial
  -- every integer that is written fits 64 bits
  have hint {i : Int} (hi : Rounding.IsInt32 i) : (Node.integer i).Plain := by
    unfold Rounding.IsInt32 at hi
    exact ⟨by omega, by omega⟩
  have hport : (Node.integer r.apiPort).Plain := by
    have hrange := h.apiPort
    exact ⟨by omega, by omega⟩
  have hapi : (apiTable r).Plain := Table.plain_ofInserts (by simp [hstring, hport])
  have hrecording : (recordingTable r).Plain :=
    Table.plain_ofInserts (by
      simp [hstring, hint h.fps, hint h.bitrate, hint h.recordingLengthSeconds,
        hint h.segmentBufferSeconds])
  have haudio : (audioTable r).Plain := Table.plain_ofInserts (by simp [hstring])
  have hlog : (logTable r).Plain :=
    Table.plain_ofInserts (by simp [hstring, hint h.maxFiles])
  refine Table.plain_ofInserts ?_
  simp only [List.forall_mem_cons, List.not_mem_nil, false_implies, implies_true, and_true]
  exact ⟨hapi, hrecording, haudio, hlog⟩

/-- `on_save_clicked`: the file that it leaves, and whether `settingsSaved` is emitted. Where
    the file cannot be opened, nothing is written. -/
def onSaveClicked {File : Type} (files : TomlFiles File) (dialog : SettingsDialog)
    (canOpen : Bool) (file : File) : File × Bool :=
  -- a stream that could not be opened has written nothing
  if canOpen then (files.print (root dialog.readings), true) else (file, false)

/-! ## From form to file -/

theorem root_api (r : Readings) : (root r).table.get "api" = some (.table (apiTable r)) := by
  rw [root, Table.get_ofInserts]
  rfl

theorem root_recording (r : Readings) :
    (root r).table.get "recording" = some (.table (recordingTable r)) := by
  rw [root, Table.get_ofInserts]
  rfl

theorem root_audio (r : Readings) :
    (root r).table.get "audio" = some (.table (audioTable r)) := by
  rw [root, Table.get_ofInserts]
  rfl

theorem root_log (r : Readings) : (root r).table.get "log" = some (.table (logTable r)) := by
  rw [root, Table.get_ofInserts]
  rfl

section Reading

variable {values : PortValues} {user : Document} {path : List String}

/-- A leaf of the file wins against the defaults. -/
theorem get_of_leaf {α : Type} {value : Node → Option α} {node : Node} {v : α}
    (hnode : user.table.atPath path = some node) (hleaf : node.isTable = false)
    (hvalue : value node = some v) :
    (Settings.mk (mergeInto defaults user.table)).get value path = some v := by
  rw [get_eq, (deepMerge user.sorted defaults path).leaf node hnode hleaf]
  exact hvalue

theorem get_string {s : String} (h : user.table.atPath path = some (.string s)) :
    (Settings.mk (mergeInto defaults user.table)).get values.string path = some s :=
  get_of_leaf h rfl (values.string_string s)

theorem get_int {i : Int} (hint : Rounding.IsInt32 i)
    (h : user.table.atPath path = some (.integer i)) :
    (Settings.mk (mergeInto defaults user.table)).get values.int path = some i :=
  get_of_leaf h rfl ((values.int_integer i).trans (if_pos hint))

theorem get_ushort {i : Int} (hrange : 0 ≤ i ∧ i < 2 ^ 16)
    (h : user.table.atPath path = some (.integer i)) :
    (Settings.mk (mergeInto defaults user.table)).get values.ushort path = some i :=
  get_of_leaf h rfl ((values.ushort_integer i).trans (if_pos hrange))

end Reading

/-- **What is written** is what the recorder reads. -/
theorem reads_root (values : PortValues) {r : Readings} (h : r.Fits) :
    (Settings.mk (mergeInto defaults (root r).table)).Reads values r where
  apiAddress := get_string (Table.atPath_of_lookup (root_api r) rfl)
  apiPort := get_ushort h.apiPort (Table.atPath_of_lookup (root_api r) rfl)
  apiKey := get_string (Table.atPath_of_lookup (root_api r) rfl)
  fps := get_int h.fps (Table.atPath_of_lookup (root_recording r) rfl)
  bitrate := get_int h.bitrate (Table.atPath_of_lookup (root_recording r) rfl)
  recordingLengthSeconds :=
    get_int h.recordingLengthSeconds (Table.atPath_of_lookup (root_recording r) rfl)
  segmentBufferSeconds :=
    get_int h.segmentBufferSeconds (Table.atPath_of_lookup (root_recording r) rfl)
  outputDirectory := get_string (Table.atPath_of_lookup (root_recording r) rfl)
  outputDeviceName := get_string (Table.atPath_of_lookup (root_audio r) rfl)
  inputDeviceName := get_string (Table.atPath_of_lookup (root_audio r) rfl)
  logLevel := get_string (Table.atPath_of_lookup (root_log r) rfl)
  maxLogSize := get_string (Table.atPath_of_lookup (root_log r) rfl)
  maxFiles := get_int h.maxFiles (Table.atPath_of_lookup (root_log r) rfl)

/-- The ranges of the boxes lie in the types. -/
theorem fits_readings (dialog : SettingsDialog) : dialog.readings.Fits := by
  -- the range of a box with these bounds is one of `int`
  have hint {maximum : ℤ} (hmax : maximum ≤ 100000000) (box : SpinBox 1 maximum) :
      Rounding.IsInt32 box.value := by
    have hlo := box.minimum_le
    have hhi := box.le_maximum
    unfold Rounding.IsInt32
    omega
  have hport : 0 ≤ dialog.apiPort.value ∧ dialog.apiPort.value < 2 ^ 16 := by
    have hlo := dialog.apiPort.minimum_le
    have hhi := dialog.apiPort.le_maximum
    omega
  exact ⟨hport, hint (by decide) dialog.fps, hint (by decide) dialog.bitrate,
    hint (by decide) dialog.recordingLengthSeconds, hint (by decide) dialog.segmentBufferSeconds,
    hint (by decide) dialog.maxFiles⟩

/-! ## From file to form -/

/-- What the dialog shows of settings: the numbers are moved into the ranges of their boxes,
    and the level is one of the list. -/
def shown (r : Readings) (level : String) : Readings :=
  { r with
    apiPort := clamp 1 65535 r.apiPort
    fps := clamp 1 240 r.fps
    bitrate := clamp 1 100000000 r.bitrate
    recordingLengthSeconds := clamp 1 3600 r.recordingLengthSeconds
    segmentBufferSeconds := clamp 1 3600 r.segmentBufferSeconds
    logLevel := level
    maxFiles := clamp 1 1000 r.maxFiles }

/-- **What is shown of a file** that the recorder can read. -/
theorem load_readings {values : PortValues} {user : Document} {r : Readings}
    (hreads : (Settings.mk (mergeInto defaults user.table)).Reads values r)
    (dialog : SettingsDialog) :
    ∃ level, (r.logLevel ∈ kLogLevels → level = r.logLevel) ∧
      (dialog.load values (.ok user)).readings = shown r level := by
  -- the level is looked up by its text in the list of the box
  have hlevel : user.table.valueOr values.string Path.kLOG_LEVEL "info" = r.logLevel :=
    valueOr_string rfl hreads.logLevel
  refine ⟨(showLevel dialog.logLevel r.logLevel).currentText,
    fun hmem => showLevel_of_mem hmem dialog.logLevel, ?_⟩
  -- text fields show what was read, and boxes move it into their range
  ext1
  · exact valueOr_string rfl hreads.apiAddress
  · exact congrArg (clamp 1 65535) (valueOr_port rfl (by decide) hreads.apiPort)
  · exact valueOr_string rfl hreads.apiKey
  · exact congrArg (clamp 1 240) (valueOr_int rfl (by decide) hreads.fps)
  · exact congrArg (clamp 1 100000000) (valueOr_int rfl (by decide) hreads.bitrate)
  · exact congrArg (clamp 1 3600) (valueOr_int rfl (by decide) hreads.recordingLengthSeconds)
  · exact congrArg (clamp 1 3600) (valueOr_int rfl (by decide) hreads.segmentBufferSeconds)
  · exact valueOr_string rfl hreads.outputDirectory
  · exact valueOr_string rfl hreads.outputDeviceName
  · exact valueOr_string rfl hreads.inputDeviceName
  · exact congrArg (fun text => (showLevel dialog.logLevel text).currentText) hlevel
  · exact valueOr_string rfl hreads.maxLogSize
  · exact congrArg (clamp 1 1000) (valueOr_int rfl (by decide) hreads.maxFiles)

/-! ## Opening and saving -/

/-- The file after a dialog has been opened on it, and saved as it is. -/
def openAndSave {File : Type} (files : TomlFiles File) (values : PortValues) (file : File) :
    File :=
  (onSaveClicked files (init.load values (files.parse file)) true file).1

/-- Every number is in the range of its box. -/
structure InRanges (r : Readings) : Prop where
  apiPort : 1 ≤ r.apiPort ∧ r.apiPort ≤ 65535
  fps : 1 ≤ r.fps ∧ r.fps ≤ 240
  bitrate : 1 ≤ r.bitrate ∧ r.bitrate ≤ 100000000
  recordingLengthSeconds : 1 ≤ r.recordingLengthSeconds ∧ r.recordingLengthSeconds ≤ 3600
  segmentBufferSeconds : 1 ≤ r.segmentBufferSeconds ∧ r.segmentBufferSeconds ≤ 3600
  maxFiles : 1 ≤ r.maxFiles ∧ r.maxFiles ≤ 1000

theorem shown_of_inRanges {r : Readings} (h : InRanges r) : shown r r.logLevel = r := by
  ext1
  · rfl
  · exact clamp_eq_self h.apiPort.1 h.apiPort.2
  · rfl
  · exact clamp_eq_self h.fps.1 h.fps.2
  · exact clamp_eq_self h.bitrate.1 h.bitrate.2
  · exact clamp_eq_self h.recordingLengthSeconds.1 h.recordingLengthSeconds.2
  · exact clamp_eq_self h.segmentBufferSeconds.1 h.segmentBufferSeconds.2
  · rfl
  · rfl
  · rfl
  · rfl
  · rfl
  · exact clamp_eq_self h.maxFiles.1 h.maxFiles.2

/-- What the recorder reads afterwards is what the dialog has shown. -/
theorem reads_openAndSave {File : Type} (files : TomlFiles File) {values : PortValues}
    {file : File} {settings : Settings} {r : Readings}
    (hload : loadFile files file = .ok settings) (hreads : settings.Reads values r) :
    ∃ settings' level, loadFile files (openAndSave files values file) = .ok settings' ∧
      (r.logLevel ∈ kLogLevels → level = r.logLevel) ∧
      settings'.Reads values (shown r level) := by
  obtain ⟨document, hparse, rfl⟩ := exists_of_loadFile hload
  obtain ⟨level, hlevel, hshown⟩ := load_readings hreads init
  -- the form is saved as it is shown
  have hsaved : openAndSave files values file = files.print (root (shown r level)) := by
    rw [openAndSave, hparse, onSaveClicked, if_pos rfl, hshown]
  -- what is shown is what some dialog shows, and so it fits
  have hfits : (shown r level).Fits := hshown ▸ fits_readings _
  rw [hsaved]
  exact ⟨_, level, loadFile_of_parse (files.parse_print _ (plain_root hfits)), hlevel,
    reads_root values hfits⟩

/-- **Opening and saving** a file that the recorder can read leaves one that it can read,
    with the same strings. A number is moved into the range of its box; the level is the same
    if it is one of the list. Where no number is outside and the level is one of the list,
    nothing changes. -/
theorem open_and_save {File : Type} (files : TomlFiles File) (values : PortValues)
    {file : File} {settings : Settings} {r : Readings}
    (hload : loadFile files file = .ok settings) (hreads : settings.Reads values r) :
    ∃ settings' level, loadFile files (openAndSave files values file) = .ok settings' ∧
      settings'.Reads values (shown r level) ∧
      (r.logLevel ∈ kLogLevels → level = r.logLevel) ∧
      (InRanges r → r.logLevel ∈ kLogLevels → settings'.Reads values r) := by
  obtain ⟨settings', level, hload', hlevel, hreads'⟩ := reads_openAndSave files hload hreads
  refine ⟨settings', level, hload', hreads', hlevel, fun hranges hmem => ?_⟩
  rwa [hlevel hmem, shown_of_inRanges hranges] at hreads'

/-- The defaults, with another frame rate. -/
def withFps (fps : Int) : Readings where
  apiAddress := "127.0.0.1"
  apiPort := 8084
  apiKey := ""
  fps := fps
  bitrate := 4000000
  recordingLengthSeconds := 10
  segmentBufferSeconds := 2
  outputDirectory := "recordings"
  outputDeviceName := ""
  inputDeviceName := ""
  logLevel := "info"
  maxLogSize := "5mb"
  maxFiles := 5

theorem fits_withFps {fps : Int} (h : Rounding.IsInt32 fps) : (withFps fps).Fits where
  apiPort := show (0 : Int) ≤ 8084 ∧ (8084 : Int) < 2 ^ 16 by decide
  fps := h
  bitrate := show Rounding.IsInt32 4000000 by decide
  recordingLengthSeconds := show Rounding.IsInt32 10 by decide
  segmentBufferSeconds := show Rounding.IsInt32 2 by decide
  maxFiles := show Rounding.IsInt32 5 by decide

theorem reads_withFps (fps : Int) (h : Rounding.IsInt32 fps) :
    ∃ settings, loadFile TomlFiles.documents (root (withFps fps)) = .ok settings ∧
      settings.Reads PortValues.exact (withFps fps) :=
  ⟨_, loadFile_of_parse rfl, reads_root PortValues.exact (fits_withFps h)⟩

theorem open_and_save_thirty :
    ∃ settings settings' level,
      loadFile TomlFiles.documents (root (withFps 30)) = .ok settings ∧
      loadFile TomlFiles.documents
        (openAndSave TomlFiles.documents PortValues.exact (root (withFps 30))) = .ok settings' ∧
      settings'.Reads PortValues.exact (shown (withFps 30) level) ∧
      ((withFps 30).logLevel ∈ kLogLevels → level = (withFps 30).logLevel) ∧
      (InRanges (withFps 30) → (withFps 30).logLevel ∈ kLogLevels →
        settings'.Reads PortValues.exact (withFps 30)) := by
  obtain ⟨settings, hload, hreads⟩ := reads_withFps 30 ⟨by decide, by decide⟩
  obtain ⟨settings', level, h⟩ := open_and_save TomlFiles.documents PortValues.exact hload hreads
  exact ⟨settings, settings', level, hload, h⟩

/-- 500 frames a second are read, and 240 of them are written. -/
theorem open_and_save_fast :
    ∃ settings settings',
      loadFile TomlFiles.documents (root (withFps 500)) = .ok settings ∧
      settings.Reads PortValues.exact (withFps 500) ∧
      loadFile TomlFiles.documents
        (openAndSave TomlFiles.documents PortValues.exact (root (withFps 500))) = .ok settings' ∧
      settings'.get PortValues.exact.int Path.kFPS = some 240 ∧
      ¬ settings'.Reads PortValues.exact (withFps 500) := by
  obtain ⟨settings, hload, hreads⟩ := reads_withFps 500 ⟨by decide, by decide⟩
  obtain ⟨settings', level, hload', _, hreads'⟩ :=
    reads_openAndSave TomlFiles.documents hload hreads
  -- the frame rate is another one after the save
  refine ⟨settings, settings', hload, hreads, hload', hreads'.fps, fun hsame => ?_⟩
  have hfps : (240 : Int) = 500 := congrArg Readings.fps (hreads'.ext hsame)
  omega

end SettingsDialog

end AVCapture.Tray
