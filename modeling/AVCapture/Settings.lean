import AVCapture.Lib.Rounding
import AVCapture.Utils.Error

/-!
# Settings

Model of `Settings` (`Settings.hpp`, `Settings.cpp`): the TOML tree, the merge of the
user's file into the defaults, and the typed lookups.

TOML is parsed by toml++, which is not part of the sources. What it makes of a file is the
argument of `load`, and what it gives for a node of another type than the one asked for is
left open (`NodeValues`).

A lookup that fails runs into an assertion. A Release build defines `NDEBUG`
(`CMakeLists.txt`), so that the program goes on there with whatever the empty result holds
(`Build`).

## Main definitions

- `Toml.Node`, `Toml.Table`: parsed TOML
- `Settings.mergeInto`, `Settings.load`, `Settings.tryGet`
- `Settings.getInt`, `Settings.getString`: the lookups as the two builds execute them
-/

namespace AVCapture

open AVCapture.Utils

namespace Toml

mutual

/-- `toml::node` -/
inductive Node where
  | string (s : String)
  | integer (i : Int)
  | floating (d : Rounding.Double)
  | boolean (b : Bool)
  | dateTime (text : String)
  | array (items : Items)
  | table (t : Table)

/-- The nodes of a `toml::array`. -/
inductive Items where
  | nil
  | cons (head : Node) (tail : Items)

/-- `toml::table`, sorted by key as the `std::map` below it is. -/
inductive Table where
  | nil
  | cons (key : String) (value : Node) (rest : Table)

end

namespace Table

/-- `table::get` -/
def get : Table → String → Option Node
  | .nil, _ => none
  | .cons key value rest, k => if key = k then some value else rest.get k

/-- `table::insert_or_assign`, which keeps the order of the keys. -/
def insertOrAssign : Table → String → Node → Table
  | .nil, k, v => .cons k v .nil
  | .cons key value rest, k, v =>
    if key = k then .cons key v rest
    else if k < key then .cons k v (.cons key value rest)
    else .cons key value (rest.insertOrAssign k v)

/-- `table::at_path`, on the keys between the dots of the path. -/
def atPath : Table → List String → Option Node
  -- the empty path is the table itself
  | t, [] => some (.table t)
  | t, [key] => t.get key
  | t, key :: keys =>
    match t.get key with
    | some (.table sub) => sub.atPath keys
    | _ => none

/-- A table with these entries, in this order. -/
def ofList : List (String × Node) → Table
  | [] => .nil
  | (key, value) :: rest => .cons key value (ofList rest)

end Table

/-- `node::value<int>` and `node::value<std::string>`: exact on their own types, and
    whatever conversions toml++ allows on the others. -/
structure NodeValues where
  int : Node → Option Int
  string : Node → Option String
  int_integer : ∀ i, int (.integer i) = if Rounding.IsInt32 i then some i else none
  string_string : ∀ s, string (.string s) = some s

/-- Retrieval without any conversion. -/
def NodeValues.exact : NodeValues where
  int
    | .integer i => if Rounding.IsInt32 i then some i else none
    | _ => none
  string
    | .string s => some s
    | _ => none
  int_integer _ := rfl
  string_string _ := rfl

end Toml

open Toml

/-- How the program is built. In a release build an empty result of `try_get` is
    dereferenced, which the language leaves undefined: `int` and `string` are what is then
    read for a path, and a string that cannot be read ends the program (`none`). -/
inductive Build where
  | debug
  | release (int : List String → Int32) (string : List String → Option String)

namespace Build

/-- What `get<int>` returns where `try_get<int>` has failed. -/
def staleInt : Build → List String → Option Int
  | .debug, _ => none
  | .release int _, path => some (int path).toInt

/-- What `get<std::string>` returns where `try_get<std::string>` has failed. -/
def staleString : Build → List String → Option String
  | .debug, _ => none
  | .release _ string, path => string path

/-- What `get<int>` makes of an integer of the file. -/
def number (build : Build) (path : List String) (i : Int) : Option Int :=
  if Rounding.IsInt32 i then some i else build.staleInt path

theorem number_of_isInt32 (build : Build) (path : List String) {i : Int}
    (h : Rounding.IsInt32 i) : build.number path i = some i := if_pos h

theorem isInt32_of_number {build : Build} {path : List String} {i n : Int}
    (h : build.number path i = some n) : Rounding.IsInt32 n := by
  -- the integer fits, or the build decides what becomes of it
  unfold number at h
  split at h
  next hint =>
    cases h
    exact hint
  next =>
    cases build with
    | debug => cases h -- the program has ended
    | release int string =>
      cases h
      exact ⟨Int32.le_toInt _, Int32.toInt_lt _⟩

end Build

/-- `Settings`: the merged table. -/
structure Settings where
  table : Table

namespace Settings

/-- `kDefaultsToml`, parsed. -/
def defaults : Table :=
  .ofList
    [("api", .table (.ofList
        [("address", .string "127.0.0.1"), ("api_key", .string ""), ("port", .integer 8084)])),
      ("audio", .table (.ofList
        [("input_device_name", .string ""), ("output_device_name", .string "")])),
      ("log", .table (.ofList
        [("level", .string "info"), ("max_files", .integer 5), ("max_log_size", .string "5mb")])),
      ("recording", .table (.ofList
        [("bitrate", .integer 4000000), ("fps", .integer 30),
          ("output_directory", .string "recordings"),
          ("recording_length_seconds", .integer 10), ("segment_buffer_seconds", .integer 2)]))]

namespace Path

def kAPI_ADDRESS : List String := ["api", "address"]
def kAPI_PORT : List String := ["api", "port"]
def kAPI_KEY : List String := ["api", "api_key"]
def kFPS : List String := ["recording", "fps"]
def kBITRATE : List String := ["recording", "bitrate"]
def kRECORDING_LENGTH_SECONDS : List String := ["recording", "recording_length_seconds"]
def kSEGMENT_BUFFER_SECONDS : List String := ["recording", "segment_buffer_seconds"]
def kOUTPUT_DIRECTORY : List String := ["recording", "output_directory"]
def kOUTPUT_DEVICE_NAME : List String := ["audio", "output_device_name"]
def kINPUT_DEVICE_NAME : List String := ["audio", "input_device_name"]
def kLOG_LEVEL : List String := ["log", "level"]
def kMAX_LOG_SIZE : List String := ["log", "max_log_size"]
def kMAX_FILES : List String := ["log", "max_files"]

end Path

mutual

/-- `merge_into(dst, src)`: the entries of `src` one after the other. -/
def mergeInto (dst : Table) : Table → Table
  | .nil => dst
  | .cons key value rest =>
    mergeInto (dst.insertOrAssign key (mergeNode (dst.get key) value)) rest

/-- What is assigned for one entry: tables are merged into a table that is there, and
    everything else replaces what is there. -/
def mergeNode (existing : Option Node) : Node → Node
  | .table src =>
    match existing with
    | some (.table dst) => .table (mergeInto dst src)
    -- a leaf is replaced by a table, as nothing is
    | _ => .table src
  | value => value

end

/-- `Settings::load`, on what parsing the file gives: its table, or the description of the
    parse error. -/
def load (file : Except String Table) : Result Settings :=
  match file with
  | .error description =>
    .error (makeError.withContext ("Settings file parse failed: " ++ description))
  | .ok user => .ok { table := mergeInto defaults user }

/-- `try_get`; a path with nothing at it and a node of another type give the same error. -/
def tryGet {α : Type} (settings : Settings) (value : Node → Option α) (path : List String) :
    Result α :=
  match (settings.table.atPath path).bind value with
  | some v => .ok v
  | none =>
    .error (makeError.withContext
      ("Missing or wrong type at '" ++ ".".intercalate path ++ "'"))

/-- `get`; `none` when its assertion does not hold. -/
def get {α : Type} (settings : Settings) (value : Node → Option α) (path : List String) :
    Option α :=
  (settings.tryGet value path).toOption

/-- `get<int>`; `none` when it ends the program. -/
def getInt (build : Build) (values : NodeValues) (settings : Settings) (path : List String) :
    Option Int :=
  (settings.get values.int path).or (build.staleInt path)

/-- `get<std::string>`; `none` when it ends the program. -/
def getString (build : Build) (values : NodeValues) (settings : Settings)
    (path : List String) : Option String :=
  (settings.get values.string path).or (build.staleString path)

/-- `get` finds what the path leads to, if it has the type. -/
theorem get_eq {α : Type} (settings : Settings) (value : Node → Option α)
    (path : List String) :
    settings.get value path = (settings.table.atPath path).bind value := by
  unfold get tryGet
  cases (settings.table.atPath path).bind value <;> rfl

/-- An integer setting is found exactly if it is a 32-bit integer. -/
theorem get_int_of_integer {settings : Settings} (values : NodeValues) {path : List String}
    {i : Int} (h : settings.table.atPath path = some (.integer i)) :
    settings.get values.int path = if Rounding.IsInt32 i then some i else none := by
  rw [get_eq, h]
  exact values.int_integer i

section Builds

variable (build : Build) (values : NodeValues) {settings : Settings} {path : List String}

theorem getInt_of_integer {i : Int} (h : settings.table.atPath path = some (.integer i)) :
    settings.getInt build values path = build.number path i := by
  unfold getInt Build.number
  rw [get_int_of_integer values h]
  -- an integer that fits, and one that has to be replaced
  split
  · rfl
  · rfl

variable {values} in
theorem getString_of_get {s : String} (h : settings.get values.string path = some s) :
    settings.getString build values path = some s := by
  unfold getString
  rw [h]
  rfl

variable {build values} in
/-- Only the assertion ends the program in the lookup of an integer. -/
theorem getInt_eq_none_iff :
    settings.getInt build values path = none ↔
      build = .debug ∧ settings.get values.int path = none := by
  unfold getInt
  rw [Option.or_eq_none_iff]
  -- a debug build ends there, a release build goes on with some integer
  cases build with
  | debug => simp [Build.staleInt]
  | release int string => simp [Build.staleInt]

end Builds

end Settings

end AVCapture
