import AVCapture.Lib.Widgets
import AVCapture.Settings.Merge

/-!
# Lookups

Every value that the recorder asks its settings for (`main.cpp`), and the other way of
asking: the tray parses the file once more, without the merge into the defaults, and gives a
default of its own with each lookup. Where the recorder's lookup succeeds, both find the
same.

Reading and writing files is toml++'s; about it the results rely on `TomlFiles`, that what
has been written is read back, where it is made of strings and integers.

## Main results

- `valueOr_of_get`: a lookup in the file alone, with the default of the schema
- `valueOr_string`, `valueOr_int`, `valueOr_port`: its cases
- `Reads.ext`: the lookups determine the readings
-/

namespace AVCapture

open Toml

namespace Toml

/-- `node::value<unsigned short>` as well; a node that has one of these numbers has it as an
    `int`, too. -/
structure PortValues extends NodeValues where
  ushort : Node → Option Int
  ushort_integer : ∀ i, ushort (.integer i) = if 0 ≤ i ∧ i < 2 ^ 16 then some i else none
  ushort_int : ∀ node n, ushort node = some n → int node = some n
  ushort_range : ∀ node n, ushort node = some n → 0 ≤ n ∧ n < 2 ^ 16

/-- An integer node of the type's range, and no other. -/
def ushortExact : Node → Option Int
  | .integer i => if 0 ≤ i ∧ i < 2 ^ 16 then some i else none
  | _ => none

theorem ushortExact_eq_some {node : Node} {n : Int} (h : ushortExact node = some n) :
    node = .integer n ∧ 0 ≤ n ∧ n < 2 ^ 16 := by
  cases node with
  | integer i =>
    obtain ⟨hrange, hi⟩ := Option.ite_none_right_eq_some.mp h
    rw [← Option.some.inj hi]
    exact ⟨rfl, hrange⟩
  | _ => cases h

theorem int_of_ushortExact {node : Node} {n : Int} (h : ushortExact node = some n) :
    NodeValues.exact.int node = some n := by
  obtain ⟨rfl, hrange⟩ := ushortExact_eq_some h
  have hint32 : Rounding.IsInt32 n := by
    unfold Rounding.IsInt32
    omega
  exact if_pos hint32

/-- Retrieval without any conversion. -/
def PortValues.exact : PortValues where
  toNodeValues := NodeValues.exact
  ushort := ushortExact
  ushort_integer _ := rfl
  ushort_int _ _ h := int_of_ushortExact h
  ushort_range _ _ h := (ushortExact_eq_some h).2

mutual

/-- Strings, integers of 64 bits, and tables of them. -/
def Node.Plain : Node → Prop
  | .string _ => True
  | .integer i => -2 ^ 63 ≤ i ∧ i < 2 ^ 63
  | .table t => t.Plain
  | .floating _ | .boolean _ | .dateTime _ | .array _ => False

def Table.Plain : Table → Prop
  | .nil => True
  | .cons _ value rest => value.Plain ∧ rest.Plain

end

theorem Table.plain_insertOrAssign {t : Table} (ht : t.Plain) (k : String) {v : Node}
    (hv : v.Plain) : (t.insertOrAssign k v).Plain := by
  induction t using Table.inductionOn with
  | nil => exact ⟨hv, trivial⟩
  | cons key value rest ih =>
    obtain ⟨hvalue, hrest⟩ := ht
    -- the value in its own place, or before or behind another key
    unfold Table.insertOrAssign
    split
    · exact ⟨hv, hrest⟩
    · split
      · exact ⟨hv, hvalue, hrest⟩
      · exact ⟨hvalue, ih hrest⟩

theorem Table.plain_ofInserts {entries : List (String × Node)}
    (h : ∀ entry ∈ entries, entry.2.Plain) : (Table.ofInserts entries).Plain :=
  Table.ofInserts_invariant Table.Plain Node.Plain trivial
    (fun _ k _ ht hv => Table.plain_insertOrAssign ht k hv) h

/-- What `toml::parse_file` makes of a file, and what a table is written as. -/
structure TomlFiles (File : Type) where
  parse : File → Except String Document
  print : Document → File
  parse_print : ∀ document : Document, document.table.Plain → parse (print document) = .ok document

/-- Files that are kept as the tables in them. -/
def TomlFiles.documents : TomlFiles Document where
  parse := .ok
  print := id
  parse_print _ _ := rfl

/-- `at_path(path).value_or(default)` -/
def Table.valueOr {α : Type} (t : Table) (value : Node → Option α) (path : List String)
    (default : α) : α :=
  ((t.atPath path).bind value).getD default

end Toml

namespace Settings

/-- One value for each path of `Settings::Path`. -/
@[ext]
structure Readings where
  apiAddress : String
  apiPort : Int
  apiKey : String
  fps : Int
  bitrate : Int
  recordingLengthSeconds : Int
  segmentBufferSeconds : Int
  outputDirectory : String
  outputDeviceName : String
  inputDeviceName : String
  logLevel : String
  maxLogSize : String
  maxFiles : Int
  deriving DecidableEq

/-- The numbers have the types that they are looked up with. -/
structure Readings.Fits (r : Readings) : Prop where
  apiPort : 0 ≤ r.apiPort ∧ r.apiPort < 2 ^ 16
  fps : Rounding.IsInt32 r.fps
  bitrate : Rounding.IsInt32 r.bitrate
  recordingLengthSeconds : Rounding.IsInt32 r.recordingLengthSeconds
  segmentBufferSeconds : Rounding.IsInt32 r.segmentBufferSeconds
  maxFiles : Rounding.IsInt32 r.maxFiles

/-- `Settings::load` of a file. -/
def loadFile {File : Type} (files : TomlFiles File) (file : File) : Utils.Result Settings :=
  load ((files.parse file).map Document.table)

theorem loadFile_of_parse {File : Type} {files : TomlFiles File} {file : File}
    {document : Document} (h : files.parse file = .ok document) :
    loadFile files file = .ok { table := mergeInto defaults document.table } := by
  rw [loadFile, h]
  rfl

theorem exists_of_loadFile {File : Type} {files : TomlFiles File} {file : File}
    {settings : Settings} (h : loadFile files file = .ok settings) :
    ∃ document, files.parse file = .ok document ∧
      settings = { table := mergeInto defaults document.table } := by
  cases hparse : files.parse file with
  | error description =>
    rw [loadFile, hparse] at h
    cases h
  | ok document =>
    rw [loadFile_of_parse hparse] at h
    exact ⟨document, rfl, (Except.ok.inj h).symm⟩

/-- Every lookup of the recorder succeeds, with these values. -/
structure Reads (values : PortValues) (settings : Settings) (r : Readings) : Prop where
  apiAddress : settings.get values.string Path.kAPI_ADDRESS = some r.apiAddress
  apiPort : settings.get values.ushort Path.kAPI_PORT = some r.apiPort
  apiKey : settings.get values.string Path.kAPI_KEY = some r.apiKey
  fps : settings.get values.int Path.kFPS = some r.fps
  bitrate : settings.get values.int Path.kBITRATE = some r.bitrate
  recordingLengthSeconds :
    settings.get values.int Path.kRECORDING_LENGTH_SECONDS = some r.recordingLengthSeconds
  segmentBufferSeconds :
    settings.get values.int Path.kSEGMENT_BUFFER_SECONDS = some r.segmentBufferSeconds
  outputDirectory : settings.get values.string Path.kOUTPUT_DIRECTORY = some r.outputDirectory
  outputDeviceName :
    settings.get values.string Path.kOUTPUT_DEVICE_NAME = some r.outputDeviceName
  inputDeviceName : settings.get values.string Path.kINPUT_DEVICE_NAME = some r.inputDeviceName
  logLevel : settings.get values.string Path.kLOG_LEVEL = some r.logLevel
  maxLogSize : settings.get values.string Path.kMAX_LOG_SIZE = some r.maxLogSize
  maxFiles : settings.get values.int Path.kMAX_FILES = some r.maxFiles

/-- **Both ways of asking** agree. A leaf of the defaults is looked up in the merged table,
    and successfully: then the file alone has the same node at the path, or nothing there and
    nothing in the way, and the default is given. -/
theorem valueOr_of_get {user : Table} (huser : user.Sorted) {path : List String} {leaf : Node}
    (hleaf : leaf.isTable = false) (hdefault : defaults.atPath path = some leaf)
    {α : Type} {asked value : Node → Option α} {default v : α}
    (hasked : ∀ node n, asked node = some n → value node = some n)
    (hvalue : value leaf = some default)
    (hget : (Settings.mk (mergeInto defaults user)).get asked path = some v) :
    user.valueOr value path default = v := by
  have hmerge := deepMerge huser defaults path
  rw [get_eq] at hget
  unfold Table.valueOr
  cases hnode : user.atPath path with
  -- the file has nothing there
  | none =>
    -- a leaf on the way would have made the lookup fail
    by_cases hshadow : user.Shadows path
    · rw [hmerge.absent hnode hshadow] at hget
      cases hget
    · rw [hmerge.kept hnode hshadow, hdefault, Option.bind_some] at hget
      have hsame : some default = some v := hvalue.symm.trans (hasked leaf v hget)
      exact Option.some.inj hsame
  -- the file has a node there, which wins
  | some node =>
    -- a table is in the place of the leaf, or another leaf
    have hmerged : (mergeInto defaults user).atPath path = some node := by
      rcases node.table_or_leaf with ⟨sub, rfl⟩ | hnot
      · refine hmerge.fresh sub (fun old hold => ?_) hnode
        rw [hdefault] at hold
        rw [Option.some.inj hold] at hleaf
        cases hleaf
      · exact hmerge.leaf node hnode hnot
    rw [hmerged, Option.bind_some] at hget
    rw [Option.bind_some, hasked node v hget, Option.getD_some]

section Values

variable {values : PortValues} {user : Document} {path : List String}

theorem valueOr_string {s default : String}
    (hdefault : defaults.atPath path = some (.string default))
    (hget : (Settings.mk (mergeInto defaults user.table)).get values.string path = some s) :
    user.table.valueOr values.string path default = s :=
  valueOr_of_get user.sorted rfl hdefault (fun _ _ h => h) (values.string_string default) hget

theorem valueOr_int {i default : Int} (hdefault : defaults.atPath path = some (.integer default))
    (hint : Rounding.IsInt32 default)
    (hget : (Settings.mk (mergeInto defaults user.table)).get values.int path = some i) :
    user.table.valueOr values.int path default = i :=
  valueOr_of_get user.sorted rfl hdefault (fun _ _ h => h)
    ((values.int_integer default).trans (if_pos hint)) hget

/-- The recorder asks for the port as an `unsigned short`, and the tray for an `int`. -/
theorem valueOr_port {i default : Int} (hdefault : defaults.atPath path = some (.integer default))
    (hint : Rounding.IsInt32 default)
    (hget : (Settings.mk (mergeInto defaults user.table)).get values.ushort path = some i) :
    user.table.valueOr values.int path default = i :=
  valueOr_of_get user.sorted rfl hdefault values.ushort_int
    ((values.int_integer default).trans (if_pos hint)) hget

end Values

/-- The lookups determine the readings. -/
theorem Reads.ext {values : PortValues} {settings : Settings} {r r' : Readings}
    (h : settings.Reads values r) (h' : settings.Reads values r') : r = r' := by
  have hsame {α : Type} {found : Option α} {x y : α} (hx : found = some x)
      (hy : found = some y) : x = y := Option.some.inj (hx.symm.trans hy)
  ext1
  · exact hsame h.apiAddress h'.apiAddress
  · exact hsame h.apiPort h'.apiPort
  · exact hsame h.apiKey h'.apiKey
  · exact hsame h.fps h'.fps
  · exact hsame h.bitrate h'.bitrate
  · exact hsame h.recordingLengthSeconds h'.recordingLengthSeconds
  · exact hsame h.segmentBufferSeconds h'.segmentBufferSeconds
  · exact hsame h.outputDirectory h'.outputDirectory
  · exact hsame h.outputDeviceName h'.outputDeviceName
  · exact hsame h.inputDeviceName h'.inputDeviceName
  · exact hsame h.logLevel h'.logLevel
  · exact hsame h.maxLogSize h'.maxLogSize
  · exact hsame h.maxFiles h'.maxFiles

end Settings

end AVCapture
