import Mathlib.Algebra.Order.Ring.Int
import AVCapture.Lib.Transition

/-!
# Archiving the Last Log

Model of `find_newest_log` and `archive_last_log` (`utils/log.hpp`), which run at the start
of the program, before the run opens a log file of its own: one log of the run before is to
stay, under the name `last_run.log`.

`find_newest_log` compares `time < newest_time`, so that the file it keeps is the oldest one.

## Main results

- `findNewestLog_cases`, `mem_archiveLastLog_iff`: which file is kept
- `archive_iff`: the directories, and the runs of the program, in which it is the newest
-/

namespace AVCapture.Utils

open Transition

/-! ## The directory -/

/-- A file of the log directory. -/
structure LogFile where
  name : String
  isRegular : Bool := true
  mtime : ℤ
  contents : List UInt8 := []
  deriving DecidableEq, Repr

/-- `path::extension` of a file name: from the last dot on, unless that is the first
    character. -/
def extension (name : String) : List Char :=
  let reversed := name.toList.reverse
  let suffix := reversed.takeWhile (· ≠ '.')
  if suffix.length + 1 < reversed.length ∧ name ≠ ".." then '.' :: suffix.reverse else []

/-- The two conditions of both loops. -/
def LogFile.isLog (file : LogFile) : Bool :=
  file.isRegular && extension file.name = ".log".toList

def lastRunLog : String := "last_run.log"

/-- Which of the file operations succeed, by the file's name. -/
structure FileCalls where
  status : String → Bool := fun _ => true
  lastWriteTime : String → Bool := fun _ => true
  remove : String → Bool := fun _ => true
  rename : Bool := true
  copyFile : Bool := true

/-- The loop of `find_newest_log`, on `newest` and `newest_time` if one is found. An error
    stays in `errc`, which ends the loop at the next file. -/
def findNewestFrom (calls : FileCalls) :
    Option (String × ℤ) → List LogFile → Option (String × ℤ)
  | found, [] => found
  | found, file :: files =>
    if !calls.status file.name then found
    else if !file.isLog then findNewestFrom calls found files
    else if !calls.lastWriteTime file.name then found
    else
      match found with
      | none => findNewestFrom calls (some (file.name, file.mtime)) files
      | some (newest, newestTime) =>
        if file.mtime < newestTime then
          findNewestFrom calls (some (file.name, file.mtime)) files
        else findNewestFrom calls (some (newest, newestTime)) files

/-- `find_newest_log`; `none` is the empty path. -/
def findNewestLog (calls : FileCalls) (dir : List LogFile) : Option String :=
  (findNewestFrom calls none dir).map Prod.fst

/-- The loop of `archive_last_log`: the other `.log` files are removed. -/
def removeOthers (calls : FileCalls) (newest : Option String) : List LogFile → List LogFile
  | [] => []
  | file :: files =>
    if !calls.status file.name then file :: files
    else if file.isLog ∧ some file.name ≠ newest ∧ calls.remove file.name then
      removeOthers calls newest files
    else file :: removeOthers calls newest files

/-- A file takes another name, and the place of a file that has it. -/
def renameFile (src dst : String) (dir : List LogFile) : List LogFile :=
  (dir.filter fun file => file.name = src || file.name ≠ dst).map fun file =>
    if file.name = src then { file with name := dst } else file

/-- `copy_file` with `overwrite_existing`; the copy is as new as the directory makes it. -/
def copyFile (src dst : String) (now : ℤ) (dir : List LogFile) : List LogFile :=
  match dir.find? (·.name = src) with
  | some file =>
    { file with name := dst, mtime := now } :: dir.filter (·.name ≠ dst)
  | none => dir

def archiveLastLog (calls : FileCalls) (now : ℤ) (dir : List LogFile) : List LogFile :=
  let newest := findNewestLog calls dir
  let rest := removeOthers calls newest dir
  -- the file found by its time is kept, under whatever name
  match newest with
  | none => rest
  | some path =>
    if calls.rename then renameFile path lastRunLog rest
    -- where renaming fails, the file is copied and removed
    else
      let copied := if calls.copyFile then copyFile path lastRunLog now rest else rest
      if calls.remove path then copied.filter (·.name ≠ path) else copied

/-! ## Which file is kept -/

def logs (dir : List LogFile) : List LogFile := dir.filter (·.isLog)

/-- No log has been modified before the file. -/
def IsOldest (dir : List LogFile) (file : LogFile) : Prop :=
  file ∈ logs dir ∧ ∀ other ∈ logs dir, file.mtime ≤ other.mtime

/-- No log has been modified after the file. -/
def IsNewest (dir : List LogFile) (file : LogFile) : Prop :=
  file ∈ logs dir ∧ ∀ other ∈ logs dir, other.mtime ≤ file.mtime

instance (dir : List LogFile) (file : LogFile) : Decidable (IsOldest dir file) :=
  inferInstanceAs (Decidable (_ ∧ _))

instance (dir : List LogFile) (file : LogFile) : Decidable (IsNewest dir file) :=
  inferInstanceAs (Decidable (_ ∧ _))

theorem mem_logs {dir : List LogFile} {file : LogFile} :
    file ∈ logs dir ↔ file ∈ dir ∧ file.isLog = true := List.mem_filter

theorem logs_append (dir dir' : List LogFile) : logs (dir ++ dir') = logs dir ++ logs dir' :=
  List.filter_append _ _

theorem logs_cons_of_log {file : LogFile} (h : file.isLog = true) (files : List LogFile) :
    logs (file :: files) = file :: logs files := List.filter_cons_of_pos h

theorem logs_cons_of_not {file : LogFile} (h : file.isLog = false) (files : List LogFile) :
    logs (file :: files) = logs files := List.filter_cons_of_neg (by simp [h])

/-- With a file found, the loop ends with the oldest of it and the logs still to come. -/
theorem findNewestFrom_some (dir : List LogFile) (found : LogFile) :
    ∃ oldest, findNewestFrom {} (some (found.name, found.mtime)) dir =
        some (oldest.name, oldest.mtime) ∧
      (oldest = found ∨ oldest ∈ logs dir) ∧ oldest.mtime ≤ found.mtime ∧
        ∀ other ∈ logs dir, oldest.mtime ≤ other.mtime := by
  induction dir generalizing found with
  | nil => exact ⟨found, rfl, Or.inl rfl, le_rfl, fun other hother => by cases hother⟩
  | cons file files ih =>
    unfold findNewestFrom
    cases hlog : file.isLog with
    -- a file that is no log does not count
    | false =>
      rw [logs_cons_of_not hlog]
      exact ih found
    | true =>
      simp only [logs_cons_of_log hlog, List.mem_cons, forall_eq_or_imp]
      -- the loop takes the file if it is older than the one found, though it looks for the newest
      by_cases hlt : file.mtime < found.mtime
      · obtain ⟨oldest, heq, hfrom, hle, hleast⟩ := ih file
        refine ⟨oldest, ?_, ?_, hle.trans hlt.le, hle, hleast⟩
        · simpa [hlt] using heq
        · rcases hfrom with rfl | hmem
          · exact Or.inr (Or.inl rfl)
          · exact Or.inr (Or.inr hmem)
      · obtain ⟨oldest, heq, hfrom, hle, hleast⟩ := ih found
        refine ⟨oldest, ?_, ?_, hle, hle.trans (not_lt.mp hlt), hleast⟩
        · simpa [hlt] using heq
        · rcases hfrom with rfl | hmem
          · exact Or.inl rfl
          · exact Or.inr (Or.inr hmem)

/-- **The file that is found** is the oldest one. -/
theorem findNewestLog_cases (dir : List LogFile) :
    (logs dir = [] ∧ findNewestLog {} dir = none) ∨
      ∃ oldest, IsOldest dir oldest ∧ findNewestLog {} dir = some oldest.name := by
  induction dir with
  | nil => exact Or.inl ⟨rfl, rfl⟩
  | cons file files ih =>
    unfold findNewestLog findNewestFrom
    cases hlog : file.isLog with
    | false =>
      unfold IsOldest
      -- the first log of the directory is found at first
      rw [logs_cons_of_not hlog]
      exact ih
    | true =>
      obtain ⟨oldest, heq, hfrom, hle, hleast⟩ := findNewestFrom_some files file
      refine Or.inr ⟨oldest, ⟨?_, ?_⟩, congrArg (Option.map Prod.fst) heq⟩
      · rw [logs_cons_of_log hlog, List.mem_cons]
        exact hfrom
      · rw [logs_cons_of_log hlog, List.forall_mem_cons]
        exact ⟨hle, hleast⟩

/-- A directory in which the operations on files can succeed: names are unique, and no
    directory or link stands where the archived log is to go; the times of the logs differ. -/
structure ValidDir (dir : List LogFile) : Prop where
  names : ∀ file ∈ dir, ∀ file' ∈ dir, file.name = file'.name → file = file'
  target : ∀ file ∈ dir, file.name = lastRunLog → file.isLog = true
  times : ∀ file ∈ logs dir, ∀ file' ∈ logs dir, file.mtime = file'.mtime → file = file'

/-- With different times there is only one oldest log. -/
theorem IsOldest.unique {dir : List LogFile} {file file' : LogFile} (h : IsOldest dir file)
    (htimes : ∀ file ∈ logs dir, ∀ file' ∈ logs dir, file.mtime = file'.mtime → file = file')
    (h' : IsOldest dir file') : file = file' :=
  htimes file h.1 file' h'.1 (le_antisymm (h.2 file' h'.1) (h'.2 file h.1))

theorem exists_oldest {dir : List LogFile} (h : logs dir ≠ []) : ∃ oldest, IsOldest dir oldest := by
  rcases findNewestLog_cases dir with ⟨hnone, _⟩ | ⟨oldest, holdest, _⟩
  · exact absurd hnone h
  · exact ⟨oldest, holdest⟩

theorem IsOldest.mem_dir {dir : List LogFile} {file : LogFile} (h : IsOldest dir file) :
    file ∈ dir ∧ file.isLog = true := mem_logs.mp h.1

theorem removeOthers_eq (newest : Option String) (dir : List LogFile) :
    removeOthers {} newest dir =
      dir.filter fun file => !(file.isLog && decide (some file.name ≠ newest)) := by
  induction dir with
  | nil => rfl
  | cons file files ih =>
    unfold removeOthers
    cases hlog : file.isLog with
    | false => simp [hlog, ih]
    | true =>
      -- the log that was found stays, and all others go
      by_cases hnewest : some file.name = newest
      · simp [hlog, hnewest, ih]
      · simp [hlog, hnewest, ih]

theorem isLog_renamed {file : LogFile} (h : file.isLog = true) :
    ({ file with name := lastRunLog } : LogFile).isLog = true := by
  unfold LogFile.isLog at h ⊢
  rw [Bool.and_eq_true] at h ⊢
  exact ⟨h.1, show decide (extension lastRunLog = ".log".toList) = true by decide⟩

/-- **What is in the directory afterwards**: the files that are no logs, and the oldest log
    under its new name. -/
theorem mem_archiveLastLog_iff {dir : List LogFile} (hvalid : ValidDir dir) (now : ℤ)
    {file : LogFile} :
    file ∈ archiveLastLog {} now dir ↔
      (file ∈ dir ∧ file.isLog = false) ∨
        ∃ oldest, IsOldest dir oldest ∧ file = { oldest with name := lastRunLog } := by
  unfold archiveLastLog
  simp only [removeOthers_eq]
  rcases findNewestLog_cases dir with ⟨hnone, hfound⟩ | ⟨oldest, holdest, hfound⟩
  · -- no log: nothing is renamed
    rw [hfound]
    have hno (oldest : LogFile) : ¬ IsOldest dir oldest := by
      intro h
      have hmem := h.1
      rw [hnone] at hmem
      cases hmem
    simp [hno]
  · obtain ⟨hdir, hlog⟩ := holdest.mem_dir
    rw [hfound]
    simp only [if_true, renameFile, List.mem_map, List.mem_filter]
    refine ⟨fun h => ?_, fun h => ?_⟩
    · obtain ⟨before, ⟨⟨hbefore, hkept⟩, _⟩, rfl⟩ := h
      -- a file that is left is the log found, or no log
      by_cases hname : before.name = oldest.name
      · obtain rfl := hvalid.names before hbefore oldest hdir hname
        exact Or.inr ⟨before, holdest, if_pos rfl⟩
      · rw [if_neg hname]
        refine Or.inl ⟨hbefore, ?_⟩
        simpa [hname] using hkept
    · rcases h with ⟨hfile, hother⟩ | ⟨kept, hkept, rfl⟩
      · -- no other file has the name of the log found
        have hname : file.name ≠ oldest.name := by
          intro heq
          rw [hvalid.names file hfile oldest hdir heq, hlog] at hother
          cases hother
        -- nor the name that it gets
        have htarget : file.name ≠ lastRunLog := by
          intro heq
          rw [hvalid.target file hfile heq] at hother
          cases hother
        exact ⟨file, ⟨⟨hfile, by simp [hother]⟩, by simp [htarget]⟩, if_neg hname⟩
      · rw [hkept.unique hvalid.times holdest]
        exact ⟨oldest, ⟨⟨hdir, by simp⟩, by simp⟩, if_pos rfl⟩

/-! ## One start of the program -/

/-- If there is a log, then `last_run.log` holds what the newest one held, and is the only
    log; and nothing else has changed. -/
def ArchivesNewest (now : ℤ) (dir : List LogFile) : Prop :=
  (∀ newest, IsNewest dir newest →
    (∃ file ∈ archiveLastLog {} now dir,
      file.name = lastRunLog ∧ file.contents = newest.contents) ∧
    ∀ file ∈ archiveLastLog {} now dir, file.isLog = true → file.name = lastRunLog) ∧
  ∀ file : LogFile, file.isLog = false → (file ∈ archiveLastLog {} now dir ↔ file ∈ dir)

/-- What the archived log holds. -/
theorem archived_iff {dir : List LogFile} (hvalid : ValidDir dir) (now : ℤ)
    (contents : List UInt8) :
    (∃ file ∈ archiveLastLog {} now dir,
      file.name = lastRunLog ∧ file.contents = contents) ↔
      ∃ oldest, IsOldest dir oldest ∧ oldest.contents = contents := by
  refine ⟨fun h => ?_, fun h => ?_⟩
  · obtain ⟨file, hmem, hname, hcontents⟩ := h
    -- the archived log is the only file of its name
    rcases (mem_archiveLastLog_iff hvalid now).mp hmem with hother | ⟨oldest, holdest, rfl⟩
    · rw [hvalid.target file hother.1 hname] at hother
      cases hother.2
    · exact ⟨oldest, holdest, hcontents⟩
  · obtain ⟨oldest, holdest, hcontents⟩ := h
    exact ⟨_, (mem_archiveLastLog_iff hvalid now).mpr (Or.inr ⟨oldest, holdest, rfl⟩), rfl,
      hcontents⟩

theorem archivesNewest_iff {dir : List LogFile} (hvalid : ValidDir dir) (now : ℤ) :
    ArchivesNewest now dir ↔ ∀ oldest newest, IsOldest dir oldest → IsNewest dir newest →
      oldest.contents = newest.contents := by
  unfold ArchivesNewest
  simp only [archived_iff hvalid now]
  refine ⟨fun h oldest newest holdest hnewest => ?_, fun h => ⟨fun newest hnewest => ⟨?_, ?_⟩, ?_⟩⟩
  · obtain ⟨kept, hkept, hcontents⟩ := (h.1 newest hnewest).1
    rw [holdest.unique hvalid.times hkept, hcontents]
  · -- where there is a newest log there is an oldest one
    obtain ⟨oldest, holdest⟩ := exists_oldest (List.ne_nil_of_mem hnewest.1)
    exact ⟨oldest, holdest, h oldest newest holdest hnewest⟩
  · intro file hmem hlog
    rcases (mem_archiveLastLog_iff hvalid now).mp hmem with hother | ⟨oldest, _, rfl⟩
    · rw [hother.2] at hlog
      cases hlog
    · rfl
  · intro file hother
    rw [mem_archiveLastLog_iff hvalid now]
    refine ⟨fun hmem => ?_, fun hmem => Or.inl ⟨hmem, hother⟩⟩
    rcases hmem with hkept | ⟨oldest, holdest, rfl⟩
    · exact hkept.1
    · -- the archived log is still a log
      rw [isLog_renamed holdest.mem_dir.2] at hother
      cases hother

/-! ## Runs of the program -/

/-- The directory between two runs, and the log files that the last run has written. -/
structure LogHistory where
  dir : List LogFile
  written : List LogFile := []

/-- What a run can write after it has archived: log files of its own, later than all that is
    there. -/
def LogHistory.enabled (s : LogHistory) (files : List LogFile) : Prop :=
  (∀ file ∈ files, file.isLog = true ∧ file.name ≠ lastRunLog) ∧
  (∀ file ∈ files, ∀ file' ∈ files, file.name = file'.name → file = file') ∧
  (∀ file ∈ files, ∀ file' ∈ files, file.mtime = file'.mtime → file = file') ∧
  (∀ file ∈ files, ∀ before ∈ s.dir, before.mtime < file.mtime) ∧
  ∀ file ∈ files, ∀ before ∈ s.dir, before.isLog = false → before.name ≠ file.name

instance (s : LogHistory) (files : List LogFile) : Decidable (s.enabled files) :=
  inferInstanceAs (Decidable (_ ∧ _ ∧ _ ∧ _ ∧ _))

/-- A run: `init_logging` archives, and the log files are written. -/
def LogHistory.next (s : LogHistory) (files : List LogFile) : LogHistory :=
  { dir := archiveLastLog {} 0 s.dir ++ files, written := files }

/-- Runs of the program from any directory on. -/
def logSystem : System LogHistory (List LogFile) :=
  System.ofCommands (fun s => ValidDir s.dir ∧ s.written = []) LogHistory.enabled LogHistory.next

/-- The start of the next run would leave in `last_run.log` what the newest log file of the
    last run holds. -/
def LastRunSurvives (s : LogHistory) : Prop :=
  ∀ newest, IsNewest s.written newest →
    ∃ file ∈ archiveLastLog {} 0 s.dir,
      file.name = lastRunLog ∧ file.contents = newest.contents

/-- The first log of all, which the runs keep, holds the same as the newest log file that
    this run writes. -/
def FirstEqNewest (s : LogHistory) (files : List LogFile) : Prop :=
  ∀ first newest, IsOldest (s.dir ++ files) first → IsNewest files newest →
    first.contents = newest.contents

theorem mem_next_iff {s : LogHistory} {files : List LogFile} (hvalid : ValidDir s.dir)
    {file : LogFile} :
    file ∈ (s.next files).dir ↔
      (file ∈ s.dir ∧ file.isLog = false) ∨
        (∃ oldest, IsOldest s.dir oldest ∧ file = { oldest with name := lastRunLog }) ∨
          file ∈ files := by
  unfold LogHistory.next
  rw [List.mem_append, mem_archiveLastLog_iff hvalid, or_assoc]

/-- The logs after a run: the archived one, and those of the run. -/
theorem mem_logs_next {s : LogHistory} {files : List LogFile} (hvalid : ValidDir s.dir)
    (hen : s.enabled files) {file : LogFile} :
    file ∈ logs (s.next files).dir ↔
      (∃ oldest, IsOldest s.dir oldest ∧ file = { oldest with name := lastRunLog }) ∨
        file ∈ files := by
  rw [mem_logs, mem_next_iff hvalid]
  refine ⟨fun h => ?_, fun h => ⟨Or.inr h, ?_⟩⟩
  · obtain ⟨hother | hlog, htrue⟩ := h
    · -- the files that are no logs are not among the logs
      rw [hother.2] at htrue
      cases htrue
    · exact hlog
  · rcases h with ⟨oldest, holdest, rfl⟩ | hfile
    · exact isLog_renamed holdest.mem_dir.2
    · exact (hen.1 file hfile).1

theorem validDir_next {s : LogHistory} {files : List LogFile} (hvalid : ValidDir s.dir)
    (hen : s.enabled files) : ValidDir (s.next files).dir := by
  obtain ⟨hlogs, hnames, htimes, hlater, hapart⟩ := id hen
  -- the archived log has a name of its own
  have htarget (file : LogFile) (hmem : file ∈ s.dir) (hother : file.isLog = false) :
      file.name ≠ lastRunLog := by
    intro heq
    rw [hvalid.target file hmem heq] at hother
    cases hother
  refine ⟨fun file hfile file' hfile' heq => ?_, fun file hfile heq => ?_,
    fun file hfile file' hfile' heq => ?_⟩
  · -- what has a name of its own: the files that stay, the archived log, the new ones
    rw [mem_next_iff hvalid] at hfile hfile'
    rcases hfile with hkept | ⟨oldest, holdest, rfl⟩ | hnew
    · rcases hfile' with hkept' | ⟨oldest', holdest', rfl⟩ | hnew'
      · exact hvalid.names file hkept.1 file' hkept'.1 heq
      · exact absurd heq (htarget file hkept.1 hkept.2)
      · exact absurd heq (hapart file' hnew' file hkept.1 hkept.2)
    · rcases hfile' with hkept' | ⟨oldest', holdest', rfl⟩ | hnew'
      · exact absurd heq.symm (htarget file' hkept'.1 hkept'.2)
      · rw [holdest.unique hvalid.times holdest']
      · exact absurd heq.symm (hlogs file' hnew').2
    · rcases hfile' with hkept' | ⟨oldest', holdest', rfl⟩ | hnew'
      · exact absurd heq.symm (hapart file hnew file' hkept'.1 hkept'.2)
      · exact absurd heq (hlogs file hnew).2
      · exact hnames file hnew file' hnew' heq
  · rcases (mem_next_iff hvalid).mp hfile with hkept | ⟨oldest, holdest, rfl⟩ | hnew
    · exact hvalid.target file hkept.1 heq
    · exact isLog_renamed holdest.mem_dir.2
    · exact (hlogs file hnew).1
  · rw [mem_logs_next hvalid hen] at hfile hfile'
    rcases hfile with ⟨oldest, holdest, rfl⟩ | hnew
    · rcases hfile' with ⟨oldest', holdest', rfl⟩ | hnew'
      · rw [holdest.unique hvalid.times holdest']
      · -- the files of the run are later than the archived one
        have hlt := hlater file' hnew' oldest holdest.mem_dir.1
        exact absurd heq hlt.ne
    · rcases hfile' with ⟨oldest', holdest', rfl⟩ | hnew'
      · have hlt := hlater file hnew oldest' holdest'.mem_dir.1
        exact absurd heq hlt.ne'
      · exact htimes file hnew file' hnew' heq

theorem distinct_times_append {s : LogHistory} {files : List LogFile} (hvalid : ValidDir s.dir)
    (hen : s.enabled files) :
    ∀ file ∈ logs (s.dir ++ files), ∀ file' ∈ logs (s.dir ++ files),
      file.mtime = file'.mtime → file = file' := by
  have hlater (file file' : LogFile) (h : file ∈ logs s.dir) (h' : file' ∈ logs files) :
      file.mtime < file'.mtime :=
    hen.2.2.2.1 file' (mem_logs.mp h').1 file (mem_logs.mp h).1
  intro file hfile file' hfile' heq
  rw [logs_append, List.mem_append] at hfile hfile'
  rcases hfile with hold | hnew
  · rcases hfile' with hold' | hnew'
    · exact hvalid.times file hold file' hold' heq
    · exact absurd heq (hlater file file' hold hnew').ne
  · rcases hfile' with hold' | hnew'
    · exact absurd heq (hlater file' file hold' hnew).ne'
    · exact hen.2.2.1 file (mem_logs.mp hnew).1 file' (mem_logs.mp hnew').1 heq

/-- The runs go on keeping the first log: what is kept after a run is what was kept before
    it, or else the oldest of its own files. -/
theorem oldest_next {s : LogHistory} {files : List LogFile} (hvalid : ValidDir s.dir)
    (hen : s.enabled files) {kept first : LogFile} (hkept : IsOldest (s.next files).dir kept)
    (hfirst : IsOldest (s.dir ++ files) first) : kept.contents = first.contents := by
  have hlater (oldest : LogFile) (hold : IsOldest s.dir oldest) (file : LogFile)
      (hfile : file ∈ files) : oldest.mtime ≤ file.mtime :=
    (hen.2.2.2.1 file hfile oldest hold.mem_dir.1).le
  by_cases hbefore : ∃ oldest, IsOldest s.dir oldest
  · obtain ⟨oldest, hold⟩ := hbefore
    have hstill : IsOldest (s.dir ++ files) oldest := by
      unfold IsOldest
      rw [logs_append]
      refine ⟨List.mem_append_left _ hold.1, fun other hother => ?_⟩
      rcases List.mem_append.mp hother with hmem | hnew
      · exact hold.2 other hmem
      · exact hlater oldest hold other (mem_logs.mp hnew).1
    have hafter : IsOldest (s.next files).dir { oldest with name := lastRunLog } := by
      refine ⟨(mem_logs_next hvalid hen).mpr (Or.inl ⟨oldest, hold, rfl⟩), fun other hother => ?_⟩
      rcases (mem_logs_next hvalid hen).mp hother with ⟨oldest', hold', rfl⟩ | hnew
      · rw [hold.unique hvalid.times hold']
      · exact hlater oldest hold other hnew
    rw [hkept.unique (validDir_next hvalid hen).times hafter,
      hfirst.unique (distinct_times_append hvalid hen) hstill]
  · -- no log was there before: the first one is of this run
    have hnone : logs s.dir = [] := by
      by_contra hne
      exact hbefore (exists_oldest hne)
    have hlogs : logs (s.dir ++ files) = logs files := by
      rw [logs_append, hnone, List.nil_append]
    have hafter : IsOldest (s.next files).dir first := by
      refine ⟨(mem_logs_next hvalid hen).mpr (Or.inr ?_), fun other hother => ?_⟩
      · have hmem := hfirst.1
        rw [hlogs] at hmem
        exact (mem_logs.mp hmem).1
      · rcases (mem_logs_next hvalid hen).mp hother with ⟨oldest, hold, _⟩ | hnew
        · exact absurd ⟨oldest, hold⟩ hbefore
        · refine hfirst.2 other ?_
          rw [hlogs]
          exact mem_logs.mpr ⟨hnew, (hen.1 other hnew).1⟩
    rw [hkept.unique (validDir_next hvalid hen).times hafter]

/-- **Step**: the newest log of a run survives exactly if it is no different from the first
    one. -/
theorem lastRunSurvives_next_iff {s : LogHistory} {files : List LogFile}
    (hvalid : ValidDir s.dir) (hen : s.enabled files) :
    LastRunSurvives (s.next files) ↔ FirstEqNewest s files := by
  unfold LastRunSurvives FirstEqNewest
  simp only [archived_iff (validDir_next hvalid hen)]
  refine ⟨fun h first newest hfirst hnewest => ?_, fun h newest hnewest => ?_⟩
  · obtain ⟨kept, hkept, hcontents⟩ := h newest hnewest
    rw [← oldest_next hvalid hen hkept hfirst, hcontents]
  · -- a run that has written a log has an oldest one
    have hmem : newest ∈ logs files := hnewest.1
    have hlogs : newest ∈ logs (s.dir ++ files) := by
      rw [logs_append]
      exact List.mem_append_right _ hmem
    have hnext : newest ∈ logs (s.next files).dir :=
      (mem_logs_next hvalid hen).mpr (Or.inr (mem_logs.mp hmem).1)
    obtain ⟨first, hfirst⟩ := exists_oldest (List.ne_nil_of_mem hlogs)
    obtain ⟨kept, hkept⟩ := exists_oldest (List.ne_nil_of_mem hnext)
    exact ⟨kept, hkept,
      (oldest_next hvalid hen hkept hfirst).trans (h first newest hfirst hnewest)⟩

/-- **The previous run's log survives** the start of the program exactly if the oldest and
    the newest log hold the same; and in the runs from a directory on, `last_run.log` always
    holds the newest log of the last run exactly if each run's newest log is no different
    from the first log of all. -/
theorem archive_iff (now : ℤ) (dir : List LogFile) (hvalid : ValidDir dir) :
    (ArchivesNewest now dir ↔ ∀ oldest newest, IsOldest dir oldest → IsNewest dir newest →
      oldest.contents = newest.contents) ∧
    ∀ runs : List (List LogFile),
      Along logSystem LastRunSurvives { dir := dir } runs ↔
        Guarded logSystem FirstEqNewest { dir := dir } runs := by
  refine ⟨archivesNewest_iff hvalid now, fun runs => ?_⟩
  have hinv : ∀ (s : LogHistory) (files : List LogFile), ValidDir s.dir → s.enabled files →
      FirstEqNewest s files → ValidDir (s.next files).dir :=
    fun s files hdir hen _ => validDir_next hdir hen
  have hstep : ∀ (s : LogHistory) (files : List LogFile), ValidDir s.dir → s.enabled files →
      (LastRunSurvives (s.next files) ↔ FirstEqNewest s files) :=
    fun s files hdir hen => lastRunSurvives_next_iff hdir hen
  refine along_iff_guarded_ofCommands hinv hstep hvalid ?_ runs
  -- no run has written a log yet
  intro newest hnewest
  cases hnewest.1

/-- One log and a file that is none. -/
def oneLog : List LogFile :=
  [{ name := "AVCapture.log", mtime := 5, contents := [1] }, { name := "notes.txt", mtime := 9 }]

theorem validDir_oneLog : ValidDir oneLog := by
  refine ⟨?_, ?_, ?_⟩ <;> decide

theorem logs_oneLog :
    logs oneLog = [{ name := "AVCapture.log", mtime := 5, contents := [1] }] := by decide

/-- A single log is archived. -/
theorem archive_iff_oneLog : ArchivesNewest 0 oneLog := by
  refine (archive_iff 0 oneLog validDir_oneLog).1.mpr fun oldest newest holdest hnewest => ?_
  have hold := holdest.1
  have hnew := hnewest.1
  rw [logs_oneLog, List.mem_singleton] at hold hnew
  rw [hold, hnew]

/-- The log of the first run, archived, and the log of the second one. -/
def twoRuns : List LogFile :=
  [{ name := "last_run.log", mtime := 5, contents := [1] },
    { name := "AVCapture.log", mtime := 8, contents := [2] }]

theorem validDir_twoRuns : ValidDir twoRuns := by
  refine ⟨?_, ?_, ?_⟩ <;> decide

/-- The third run keeps the log of the first one and removes the log of the second. -/
theorem thirdRun_loses_log : ¬ ArchivesNewest 0 twoRuns := by
  intro h
  have hsame := (archivesNewest_iff validDir_twoRuns 0).mp h
    { name := "last_run.log", mtime := 5, contents := [1] }
    { name := "AVCapture.log", mtime := 8, contents := [2] } (by decide) (by decide)
  revert hsame
  decide

end AVCapture.Utils
