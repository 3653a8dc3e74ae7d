import AVCapture.Lib.Narrowing
import AVCapture.Settings.ByteSize

/-!
# The Size of the Log File

Model of `init_logging_from_settings` (`main.cpp`) and of `init_logging` (`utils/log.hpp`)
from the conversion of its arguments on. The size goes from `size_t` through `int` to the
`size_t` of the sink.

The sink is one of spdlog, which is not part of the sources: whether its construction throws
is left open (`LogHost`).

## Main results

- `maxSize_eq_iff`: the sizes that arrive unchanged
- `initLoggingFromSettings_started_iff`: when the program gets past its log
- `logSizeEnforced_iff`: when the sink gets the configured size
-/

namespace AVCapture

open Utils Toml Narrowing

namespace Log

/-- The arguments of `rotating_file_sink_mt` behind the name of the file. -/
structure FileSink where
  maxSize : UInt64
  maxFiles : UInt64
  deriving DecidableEq, Repr

/-- `what()` of the exception, if the sink throws one. -/
structure LogHost where
  fileSink : FileSink → Option String

/-- `init_logging`, without the directory and the archive of the last log: the sink that is
    asked for, and the warning if there is only the console. -/
def initLogging (host : LogHost) (maxLogSize maxFiles : ℤ) : FileSink × Option String :=
  let sink : FileSink := { maxSize := .ofInt maxLogSize, maxFiles := .ofInt maxFiles }
  (sink, (host.fileSink sink).map fun what =>
    "File logging disabled: (" ++ what ++ "). Using console only.")

/-- How far the start of the logging gets. -/
inductive Startup where
  /-- `crash_error` -/
  | crashed (message : String)
  /-- A lookup ends the program before there is a sink. -/
  | stopped
  /-- The lookup of the level ends the program. By then it logs to the sink. -/
  | stoppedLogging (sink : FileSink) (warning : Option String)
  | started (sink : FileSink) (warning : Option String) (level : String)
  deriving DecidableEq, Repr

def initLoggingFromSettings (build : Build) (values : NodeValues) (host : LogHost)
    (settings : Settings) : Startup :=
  match settings.getString build values Settings.Path.kMAX_LOG_SIZE with
  | none => .stopped
  | some maxLogSizeStr =>
    match Settings.parseByteSize maxLogSizeStr with
    | .error e => .crashed ("Invalid log.max_log_size: " ++ e.what)
    | .ok maxLogSize =>
      match settings.getInt build values Settings.Path.kMAX_FILES with
      | none => .stopped
      | some maxLogFiles =>
        let (sink, warning) := initLogging host (toSigned 32 maxLogSize.toNat) maxLogFiles
        -- the level is looked up when the sink is there
        match settings.getString build values Settings.Path.kLOG_LEVEL with
        | none => .stoppedLogging sink warning
        | some level => .started sink warning level

/-- Nothing ends the program while it sets up its log. -/
structure LogReadable (build : Build) (values : NodeValues) (settings : Settings) : Prop where
  maxLogSize : ∃ sizeStr size,
    settings.getString build values Settings.Path.kMAX_LOG_SIZE = some sizeStr ∧
      Settings.parseByteSize sizeStr = .ok size
  maxFiles : (settings.getInt build values Settings.Path.kMAX_FILES).isSome
  level : (settings.getString build values Settings.Path.kLOG_LEVEL).isSome

/-- Whether the program gets past its log does not depend on the sink. -/
theorem initLoggingFromSettings_started_iff (build : Build) (values : NodeValues)
    (host : LogHost) (settings : Settings) :
    (∃ sink warning level, initLoggingFromSettings build values host settings =
      .started sink warning level) ↔ LogReadable build values settings := by
  unfold initLoggingFromSettings
  constructor
  · rintro ⟨sink, warning, level, h⟩
    -- the size, its text, the number of files and the level, in the order of the lookups
    split at h
    · cases h
    · rename_i sizeStr hget
      split at h
      · cases h
      · rename_i size hparse
        split at h
        · cases h
        · rename_i maxFiles hfiles
          dsimp only at h
          split at h
          · cases h
          · rename_i level' hlevel
            exact ⟨⟨sizeStr, size, hget, hparse⟩, by rw [hfiles]; rfl, by rw [hlevel]; rfl⟩
  · rintro ⟨⟨sizeStr, size, hget, hparse⟩, hfiles, hlevel⟩
    obtain ⟨maxFiles, hfiles⟩ := Option.isSome_iff_exists.mp hfiles
    obtain ⟨level, hlevel⟩ := Option.isSome_iff_exists.mp hlevel
    simp only [hget, hparse, hfiles, hlevel]
    exact ⟨_, _, level, rfl⟩

/-! ## The size that arrives -/

theorem toNat_ofInt (i : ℤ) : ((UInt64.ofInt i).toNat : ℤ) = toUnsigned 64 i := by
  -- the remainder fits, so that the conversion to 64 bits keeps it
  have hnonneg : 0 ≤ i % 2 ^ 64 := Int.emod_nonneg _ (by decide)
  have hlt : i % 2 ^ 64 < 2 ^ 64 := Int.emod_lt_of_pos _ (by decide)
  have hnat : (i % 2 ^ 64).toNat < 2 ^ 64 := by omega
  unfold UInt64.ofInt toUnsigned
  rw [UInt64.toNat_ofNat_of_lt' hnat, Int.toNat_of_nonneg hnonneg]

/-- Of the sizes below `2 ^ 63`, those that an `int` can hold. -/
theorem maxSize_eq_iff (host : LogHost) {size : UInt64} (h : size.toNat < 2 ^ 63)
    (maxFiles : ℤ) :
    (initLogging host (toSigned 32 size.toNat) maxFiles).1.maxSize = size ↔
      size.toNat < 2 ^ 31 := by
  show UInt64.ofInt (toSigned 32 size.toNat) = size ↔ _
  rw [← UInt64.toNat_inj, ← Int.natCast_inj, toNat_ofInt,
    toUnsigned_toSigned_eq_iff (by decide) (Int.natCast_nonneg _) (by omega)]
  omega

/-- No sink with another size has been asked for. -/
def LogSizeEnforced (size : UInt64) : Startup → Prop
  | .crashed _ | .stopped => True
  | .stoppedLogging sink _ | .started sink _ _ => sink.maxSize = size

/-- Once the number of files has been looked up, there is a sink, and it has the size that
    has been converted twice. -/
theorem logSizeEnforced_of_maxFiles {build : Build} {values : NodeValues} (host : LogHost)
    {settings : Settings} {sizeStr : String} {size : UInt64} {maxFiles : ℤ}
    (hget : settings.get values.string Settings.Path.kMAX_LOG_SIZE = some sizeStr)
    (hparse : Settings.parseByteSize sizeStr = .ok size)
    (hfiles : settings.getInt build values Settings.Path.kMAX_FILES = some maxFiles) :
    LogSizeEnforced size (initLoggingFromSettings build values host settings) ↔
      (initLogging host (toSigned 32 size.toNat) maxFiles).1.maxSize = size := by
  unfold initLoggingFromSettings
  simp only [Settings.getString_of_get build hget, hparse, hfiles]
  -- whether the level is found makes no difference to the sink
  cases settings.getString build values Settings.Path.kLOG_LEVEL with
  | none => rfl
  | some level => rfl

theorem initLoggingFromSettings_stopped {build : Build} {values : NodeValues} (host : LogHost)
    {settings : Settings} {sizeStr : String} {size : UInt64}
    (hget : settings.get values.string Settings.Path.kMAX_LOG_SIZE = some sizeStr)
    (hparse : Settings.parseByteSize sizeStr = .ok size)
    (hfiles : settings.getInt build values Settings.Path.kMAX_FILES = none) :
    initLoggingFromSettings build values host settings = .stopped := by
  unfold initLoggingFromSettings
  simp only [Settings.getString_of_get build hget, hparse, hfiles]

/-- **The configured log size** is the one that the sink gets exactly if it is below `2 ^ 31`,
    or the assertion on the number of files stops a debug build before there is a sink. -/
theorem logSizeEnforced_iff (build : Build) (values : NodeValues) (host : LogHost)
    (settings : Settings) {sizeStr : String} {size : UInt64}
    (hget : settings.get values.string Settings.Path.kMAX_LOG_SIZE = some sizeStr)
    (hparse : Settings.parseByteSize sizeStr = .ok size) (hsize : size.toNat < 2 ^ 63) :
    LogSizeEnforced size (initLoggingFromSettings build values host settings) ↔
      size.toNat < 2 ^ 31 ∨
        (build = .debug ∧ settings.get values.int Settings.Path.kMAX_FILES = none) := by
  rw [← Settings.getInt_eq_none_iff]
  -- the number of files decides whether a sink is made
  cases hfiles : settings.getInt build values Settings.Path.kMAX_FILES with
  | none =>
    rw [initLoggingFromSettings_stopped host hget hparse hfiles]
    exact iff_of_true trivial (Or.inr rfl)
  | some maxFiles =>
    rw [logSizeEnforced_of_maxFiles host hget hparse hfiles, maxSize_eq_iff host hsize]
    simp

/-- The settings of a file with nothing but a log size. -/
def withLogSize (sizeStr : String) : Settings :=
  { table := Settings.mergeInto Settings.defaults
      (.ofList [("log", .table (.ofList [("max_log_size", .string sizeStr)]))]) }

/-- A sink that is always constructed. -/
def sinkHost : LogHost where
  fileSink _ := none

/-- The default size. -/
theorem defaultSize_enforced :
    LogSizeEnforced 5242880
      (initLoggingFromSettings .debug .exact sinkHost (withLogSize "5mb")) :=
  (logSizeEnforced_iff .debug .exact sinkHost (withLogSize "5mb") rfl (by decide) (by decide)).mpr
    (Or.inl (by decide))

/-- Two gigabytes become `2 ^ 64 - 2 ^ 31` bytes. -/
theorem twoGigabytes_not_enforced :
    ¬ LogSizeEnforced 2147483648
      (initLoggingFromSettings .debug .exact sinkHost (withLogSize "2gb")) := by
  have hparse : Settings.parseByteSize "2gb" = .ok 2147483648 := by decide
  rw [logSizeEnforced_of_maxFiles sinkHost rfl hparse rfl]
  intro h
  have hfits : (2147483648 : UInt64).toNat < 2 ^ 31 :=
    (maxSize_eq_iff sinkHost (by decide) 5).mp h
  revert hfits
  decide

end Log

end AVCapture
