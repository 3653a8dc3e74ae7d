import AVCapture.Core.ConcatList
import AVCapture.Core.SaveRequests
import AVCapture.Lib.CommandLine
import Mathlib.Data.List.TakeWhile

/-!
# The Command of an Export

Model of `run_process` (`utils/subprocess.hpp`) and of the call of ffmpeg in
`RollingSegment::export_last_segments` (`core/RollingSegments.cpp`), on both platforms.

`posix_spawnp` is given the list of the arguments. `_spawnvp` is given it too, but a process of
Windows has one text: the C runtime writes the arguments one after the other, and that of ffmpeg
takes them apart (`Lib.CommandLine`). The paths among them come from the temporary directory and
from the output directory. A path is its text here: that `path::string()` writes it in the code
page of the system on Windows, which has no character for some of it, is left out.

## Main results

- `processArgs_eq_iff`: the arguments that a process finds as they were given
- `exportLastSegments_iff`: the directories with which ffmpeg is run as it is meant to be
-/

namespace AVCapture.Core

open AVCapture.Utils

/-! ## Processes -/

/-- The two branches of `run_process`. -/
inductive Platform where
  | posix
  | windows
  deriving DecidableEq, Repr

/-- What becomes of a process. -/
inductive ProcessEnd where
  | notStarted
  | notWaited
  | killed
  | exited (code : Int)
  deriving DecidableEq, Repr

/-- `arg.c_str()`, which ends at a null character. -/
def cString (arg : String) : List Char := arg.toList.takeWhile (· ≠ '\x00')

/-- What a process finds as its arguments. -/
def processArgs : Platform → List String → List (List Char)
  | .posix, argv => argv.map cString
  | .windows, argv => CommandLine.split (CommandLine.join (argv.map cString))

theorem processArgs_windows (argv : List String) :
    processArgs .windows argv = CommandLine.split (CommandLine.join (argv.map cString)) :=
  rfl

def ProcessEnd.exitCode : ProcessEnd → Int
  | .exited code => code
  | .notStarted | .notWaited | .killed => -1

/-- `run_process`; `run` is what the program makes of its arguments. -/
def runProcess (platform : Platform) (run : List (List Char) → ProcessEnd) (argv : List String) :
    Int :=
  if argv.isEmpty then -1 else (run (processArgs platform argv)).exitCode

/-! ## The export -/

def isDrive (path : String) : Bool :=
  match path.toList with
  | [c, ':'] => c.isAlpha
  | _ => false

/-- `dir / name` -/
def joinPath : Platform → String → String → String
  | .posix, dir, name => inDir dir name
  | .windows, dir, name =>
    if dir.isEmpty || dir.endsWith "\\" || dir.endsWith "/" || isDrive dir then dir ++ name
    else dir ++ "\\" ++ name

/-- `config_.dir_`, as `MediaRecorder::initialize` sets it. -/
def ringDir (platform : Platform) (tempDirectory : String) : String :=
  joinPath platform (joinPath platform tempDirectory "AVCapture") "ring"

/-- The path that `make_output_path` makes for a second of the clock. -/
def outputPath (platform : Platform) (outputDirectory : String) (second : Int) : String :=
  joinPath platform outputDirectory
    (String.ofList (Calendar.text (Calendar.dateTime second)) ++ ".mp4")

theorem outputPath_posix (outputDirectory : String) (second : Int) :
    outputPath .posix outputDirectory second = savePath outputDirectory second :=
  rfl

def exportArgv (listPath outMp4 : String) : List String :=
  ["ffmpeg", "-y", "-hide_banner", "-loglevel", "fatal", "-f", "concat", "-safe", "0", "-i",
    listPath, "-c", "copy", "-bsf:v", "h264_mp4toannexb", "-bsf:a", "aac_adtstoasc",
    "-movflags", "+faststart", outMp4]

/-- What the export comes to, once ffmpeg has ended. -/
def exportResult (listRemoved : Bool) (code : Int) : VoidResult :=
  if code ≠ 0 then .error (makeError.withContext "ffmpeg command failed")
  else if !listRemoved then .error (makeError.withContext "Failed removing temp list.txt")
  else .ok ()

/-- `export_last_segments`, from its call of ffmpeg on. -/
def exportLastSegments (platform : Platform) (run : List (List Char) → ProcessEnd)
    (listRemoved : Bool) (dir outMp4 : String) : VoidResult :=
  exportResult listRemoved
    (runProcess platform run (exportArgv (joinPath platform dir "list.txt") outMp4))

/-! ## Arguments -/

/-- A character that reaches a process as it is. -/
def SafeChar : Platform → Char → Prop
  | .posix, c => c ≠ '\x00'
  | .windows, c => c ≠ '\x00' ∧ c ≠ '"' ∧ CommandLine.isBlank c = false

instance decidableSafeChar : (platform : Platform) → (c : Char) → Decidable (SafeChar platform c)
  | .posix, c => inferInstanceAs (Decidable (c ≠ _))
  | .windows, _ => inferInstanceAs (Decidable (_ ∧ _))

def Safe (platform : Platform) (s : String) : Prop := ∀ c ∈ s.toList, SafeChar platform c

instance (platform : Platform) (s : String) : Decidable (Safe platform s) :=
  List.decidableBAll (SafeChar platform) s.toList

section Arguments

variable {platform : Platform}

theorem safe_append {s t : String} :
    Safe platform (s ++ t) ↔ Safe platform s ∧ Safe platform t := by
  unfold Safe
  rw [String.toList_append]
  exact List.forall_mem_append

theorem cString_eq_iff (s : String) : cString s = s.toList ↔ '\x00' ∉ s.toList := by
  unfold cString
  rw [List.takeWhile_eq_self_iff]
  simp [List.forall_mem_ne']

theorem null_notMem_cString (s : String) : '\x00' ∉ cString s := by
  intro h
  simpa using List.mem_takeWhile_imp h

theorem safe_posix_iff (s : String) : Safe .posix s ↔ cString s = s.toList := by
  rw [cString_eq_iff]
  exact List.forall_mem_ne'

theorem safe_windows_iff (s : String) :
    Safe .windows s ↔ '\x00' ∉ s.toList ∧ CommandLine.Solid s.toList := by
  refine ⟨fun h => ⟨fun hmem => (h _ hmem).1 rfl, fun c hc => (h c hc).2⟩, fun h c hc => ?_⟩
  exact ⟨fun hnull => h.1 (hnull ▸ hc), h.2 c hc⟩

/-- No character after a null character reaches a process of Windows, and a process is given no
    null character. -/
theorem null_notMem_of_split {argv : List String}
    (h : processArgs .windows argv = argv.map String.toList) :
    -- it would be in the command line, which is made of what is before the null characters
    ∀ a ∈ argv, '\x00' ∉ a.toList := by
  intro a ha hnull
  have hmem : a.toList ∈ processArgs .windows argv := h ▸ List.mem_map_of_mem ha
  obtain ⟨b, hb, hb'⟩ :=
    CommandLine.mem_of_mem_split_join (by decide) (by decide) (by decide) hmem hnull
  obtain ⟨s, -, rfl⟩ := List.mem_map.mp hb
  exact null_notMem_cString s hb'

theorem map_cString {argv : List String} (h : ∀ a ∈ argv, '\x00' ∉ a.toList) :
    argv.map cString = argv.map String.toList :=
  List.map_congr_left fun a ha => (cString_eq_iff a).mpr (h a ha)

/-- **The arguments that a process finds** are the ones it was given if every character of them
    is safe, and on Windows none is empty. -/
theorem processArgs_eq_iff {name : String} (hname : Safe .windows name) (args : List String) :
    processArgs platform (name :: args) = (name :: args).map String.toList ↔
      ∀ a ∈ args, Safe platform a ∧ (platform = .windows → a ≠ "") := by
  obtain ⟨hnull, hsolid⟩ := (safe_windows_iff name).mp hname
  -- `posix_spawnp` takes each argument up to its null character
  cases platform with
  | posix =>
    have hnameEq : cString name = name.toList := (cString_eq_iff name).mpr hnull
    show (name :: args).map cString = _ ↔ _
    rw [List.map_cons, List.map_cons, hnameEq, List.cons.injEq, List.map_inj_left]
    simp [safe_posix_iff]
  -- `CreateProcessA` takes one text, which the new process splits
  | windows =>
    have hplain (a : String) : (Safe .windows a ∧ (Platform.windows = .windows → a ≠ "")) ↔
        '\x00' ∉ a.toList ∧ CommandLine.Plain a.toList := by
      rw [safe_windows_iff]
      unfold CommandLine.Plain
      simp only [forall_const, ne_eq, String.toList_eq_nil_iff]
      tauto
    rw [forall₂_congr fun a _ => hplain a]
    refine ⟨fun h a ha => ?_, fun h => ?_⟩
    · have hnone := null_notMem_of_split h
      refine ⟨hnone a (List.mem_cons_of_mem name ha), ?_⟩
      rw [processArgs_windows, map_cString hnone, List.map_cons,
        CommandLine.split_join_eq_iff hsolid] at h
      exact h _ (List.mem_map_of_mem ha)
    · have hnone : ∀ a ∈ name :: args, '\x00' ∉ a.toList :=
        List.forall_mem_cons.mpr ⟨hnull, fun a ha => (h a ha).1⟩
      rw [processArgs_windows, map_cString hnone, List.map_cons,
        CommandLine.split_join_eq_iff hsolid]
      exact List.forall_mem_map.mpr fun a ha => (h a ha).2

/-- The temporary directory of a user with a space in the name. -/
example :
    processArgs .windows ["ffmpeg", "-i", "C:\\Users\\Jane Doe\\AppData\\list.txt"] =
      ["ffmpeg", "-i", "C:\\Users\\Jane", "Doe\\AppData\\list.txt"].map String.toList := by
  decide

end Arguments

/-! ## Paths -/

section Paths

variable {platform : Platform}

theorem exists_separator (platform : Platform) (dir name : String) :
    ∃ separator, Safe platform separator ∧
      joinPath platform dir name = dir ++ (separator ++ name) := by
  cases platform with
  | posix =>
    simp only [joinPath, inDir]
    split_ifs
    · exact ⟨"", by decide, by simp⟩
    · exact ⟨"/", by decide, String.append_assoc⟩
  | windows =>
    simp only [joinPath]
    split_ifs
    · exact ⟨"", by decide, by simp⟩
    · exact ⟨"\\", by decide, String.append_assoc⟩

theorem safe_joinPath {name : String} (hname : Safe platform name) (dir : String) :
    Safe platform (joinPath platform dir name) ↔ Safe platform dir := by
  obtain ⟨separator, hsafe, hpath⟩ := exists_separator platform dir name
  rw [hpath, safe_append, safe_append]
  exact and_iff_left ⟨hsafe, hname⟩

theorem joinPath_ne_empty {name : String} (hname : name ≠ "") (dir : String) :
    joinPath platform dir name ≠ "" := by
  obtain ⟨separator, -, hpath⟩ := exists_separator platform dir name
  simp [hpath, hname]

theorem safe_ringDir (tempDirectory : String) :
    Safe platform (ringDir platform tempDirectory) ↔ Safe platform tempDirectory := by
  unfold ringDir
  rw [safe_joinPath, safe_joinPath]
  · cases platform <;> decide
  · cases platform <;> decide

theorem safe_outputPath (outputDirectory : String) (second : Int) :
    Safe platform (outputPath platform outputDirectory second) ↔
      Safe platform outputDirectory := by
  apply safe_joinPath
  rw [safe_append]
  refine ⟨?_, by cases platform <;> decide⟩
  -- a file name has digits, `-` and `_` besides its `.mp4`
  intro c hc
  rw [String.toList_ofList] at hc
  have hother {d : Char} (hdigit : d.isDigit = false) (hminus : d ≠ '-') (hline : d ≠ '_') :
      c ≠ d := by
    rintro rfl
    rcases Calendar.mem_text hc with h | h | h
    · rw [hdigit] at h
      cases h
    · exact hminus h
    · exact hline h
  have hnull : c ≠ '\x00' := hother rfl (by decide) (by decide)
  cases platform with
  | posix => exact hnull
  | windows =>
    refine ⟨hnull, hother rfl (by decide) (by decide), ?_⟩
    have hspace : c ≠ ' ' := hother rfl (by decide) (by decide)
    have htab : c ≠ '\t' := hother rfl (by decide) (by decide)
    simp [CommandLine.isBlank, hspace, htab]

end Paths

/-! ## ffmpeg -/

/-- The arguments of ffmpeg that are not paths. -/
theorem exportArgs_eq_iff (platform : Platform) {listPath outMp4 : String} (hlist : listPath ≠ "")
    (hout : outMp4 ≠ "") :
    processArgs platform (exportArgv listPath outMp4) =
        (exportArgv listPath outMp4).map String.toList ↔
      Safe platform listPath ∧ Safe platform outMp4 := by
  unfold exportArgv
  rw [processArgs_eq_iff (by decide)]
  -- the two paths are arguments, and the others are safe as they stand
  refine ⟨fun h => ?_, fun h a ha => ?_⟩
  · exact ⟨(h listPath (by simp)).1, (h outMp4 (by simp)).1⟩
  · have hfixed : ∀ a ∈ (exportArgv "-y" "-y").tail,
        Safe platform a ∧ (platform = .windows → a ≠ "") := by
      cases platform <;> decide
    by_cases hpath : a = listPath ∨ a = outMp4
    · rcases hpath with rfl | rfl
      · exact ⟨h.1, fun _ => hlist⟩
      · exact ⟨h.2, fun _ => hout⟩
    · apply hfixed
      simp only [exportArgv, List.tail_cons, List.mem_cons] at ha ⊢
      tauto

/-- **ffmpeg is run as it is meant to be**, whatever it does with its arguments, exactly if no
    character of the two directories is in the way: on Windows no blank, tab or quotation mark. -/
theorem exportLastSegments_iff (platform : Platform) (tempDirectory outputDirectory : String)
    (second : Int) :
    let listPath := joinPath platform (ringDir platform tempDirectory) "list.txt"
    let outMp4 := outputPath platform outputDirectory second
    (∀ run listRemoved,
        exportLastSegments platform run listRemoved (ringDir platform tempDirectory) outMp4 =
          exportResult listRemoved
            (run ((exportArgv listPath outMp4).map String.toList)).exitCode) ↔
      Safe platform tempDirectory ∧ Safe platform outputDirectory := by
  intro listPath outMp4
  -- the argument list comes through exactly if its two paths do
  have hargs : processArgs platform (exportArgv listPath outMp4) =
      (exportArgv listPath outMp4).map String.toList ↔
        Safe platform tempDirectory ∧ Safe platform outputDirectory := by
    have hlist : listPath ≠ "" := joinPath_ne_empty (by decide) _
    have hout : outMp4 ≠ "" := joinPath_ne_empty (by simp) _
    have hname : Safe platform "list.txt" := by cases platform <;> decide
    rw [exportArgs_eq_iff platform hlist hout, safe_joinPath hname, safe_ringDir,
      safe_outputPath]
  rw [← hargs]
  refine ⟨fun h => ?_, fun h run listRemoved => ?_⟩
  · -- an ffmpeg that knows the arguments it is meant to be given
    let run (args : List (List Char)) : ProcessEnd :=
      .exited (if args = (exportArgv listPath outMp4).map String.toList then 0 else 1)
    have hrun := h run true
    by_contra hne
    have hleft : exportLastSegments platform run true (ringDir platform tempDirectory) outMp4 =
        exportResult true (run (processArgs platform (exportArgv listPath outMp4))).exitCode := rfl
    simp [hleft, run, hne, exportResult, ProcessEnd.exitCode] at hrun
  · show exportResult listRemoved (run (processArgs platform _)).exitCode = _
    rw [h]

end AVCapture.Core
