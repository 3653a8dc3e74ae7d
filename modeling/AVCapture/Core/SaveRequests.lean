import AVCapture.Core.RollingSegments
import AVCapture.Lib.Calendar
import AVCapture.Lib.Transition

/-!
# Save Requests

Model of `MediaRecorder::make_output_path`, `save_recording` and `save_recording_async`
(`core/MediaRecorder.cpp`), with the exports of `RollingSegment::export_last_segments` in the
background:

- the **I/O thread** takes the requests, one after the other; a save in the background starts
  a new thread first, and then joins the one before it
- each **save thread** exports under `segment_mutex_`, in whatever order they get it

The output path is the wall clock in seconds, and ffmpeg overwrites what is there (`-y`).

## Main results

- `savePath_inj`: two paths are the same only if they were made in the same second
- `savesKept_iff`: the runs in which no save overwrites another one
-/

namespace AVCapture.Core

open AVCapture.Utils Transition

/-! ## The output path -/

/-- The path for a second of the wall clock. -/
def savePath (outputDirectory : String) (second : Int) : String :=
  inDir outputDirectory (String.ofList (Calendar.text (Calendar.dateTime second)) ++ ".mp4")

/-- `floor<seconds>`, of a time in nanoseconds. -/
def floorSeconds (now : Int) : Int := now / 1000000000

/-- `make_output_path`; `createDirectories` is the message of the error, if there is one. -/
def makeOutputPath (outputDirectory : String) (createDirectories : Option String) (now : Int) :
    Result String :=
  match createDirectories with
  | some message =>
    .error (makeError.withContext
      ("Failed creating output directory '" ++ outputDirectory ++ "': " ++ message))
  | none => .ok (savePath outputDirectory (floorSeconds now))

theorem inDir_inj {dir name name' : String} (h : inDir dir name = inDir dir name') :
    name = name' := by
  unfold inDir at h
  split at h
  · exact String.append_right_inj dir |>.mp h
  · exact String.append_right_inj (dir ++ "/") |>.mp h

/-- **One path for each second**. -/
theorem savePath_inj {dir : String} {s t : Int} (h : savePath dir s = savePath dir t) : s = t := by
  have hname := inDir_inj h
  have htext := String.append_left_inj ".mp4" |>.mp hname
  exact Calendar.text_inj (String.ofList_injective htext)

/-! ## The machine -/

inductive ExportPhase where
  | waiting
  | exporting
  | finished (ok : Bool)
  deriving DecidableEq, Repr

/-- What an export under the mutex comes to. A failing ffmpeg may have truncated the output
    file before. -/
inductive ExportOutcome where
  | saved
  | listNotRemoved
  | ffmpegFails (truncated : Bool)
  deriving DecidableEq, Repr

/-- What is in a file: the recording that a request has exported, what a failing export has
    left, or something older. -/
inductive FileContent where
  | recording (id : ℕ)
  | truncatedBy (id : ℕ)
  | older
  deriving DecidableEq, Repr

/-- A request that was given a path, and the second in which that was. `background` is set
    for `save_recording_async`, whose answer does not wait for the export. -/
structure SaveJob where
  path : String
  second : Int
  background : Bool
  phase : ExportPhase := .waiting
  deriving DecidableEq, Repr

/-- A request is not answered with an error, or not yet. -/
def SaveJob.Accepted (job : SaveJob) : Prop := job.background = true ∨ job.phase ≠ .finished false

/-- Where the I/O thread is: in the assignment of a new save thread, which joins the one
    before, or in a `save_recording`, which exports on this thread. -/
inductive IoPc where
  | idle
  | joining (previous id : ℕ)
  | syncing (id : ℕ)
  deriving DecidableEq, Repr

/-- The requests that were given a path, by number; `save_thread_`; the holder of
    `segment_mutex_`; the files; and the successful responses, each with the path it
    names. -/
structure SaveState where
  jobs : List SaveJob := []
  saveThread : Option ℕ := none
  io : IoPc := .idle
  lock : Option ℕ := none
  files : String → Option FileContent := fun _ => none
  responses : List (ℕ × String) := []

inductive SaveAction where
  | saveAsync (now : Int) (createDirectories : Option String)
  | saveSync (now : Int) (createDirectories : Option String)
  | returns
  | lock (id : ℕ)
  | exportEnds (id : ℕ) (out : ExportOutcome)
  deriving DecidableEq, Repr

namespace SaveState

def phase (s : SaveState) (id : ℕ) : Option ExportPhase := s.jobs[id]?.map SaveJob.phase

def Finished (s : SaveState) (id : ℕ) : Prop :=
  s.phase id = some (.finished true) ∨ s.phase id = some (.finished false)

instance (s : SaveState) (id : ℕ) : Decidable (s.Finished id) :=
  inferInstanceAs (Decidable (_ ∨ _))

def respond (s : SaveState) (id : ℕ) : SaveState :=
  { s with responses := s.responses ++ (s.jobs[id]?.map fun job => (id, job.path)).toList }

def setPhase (s : SaveState) (id : ℕ) (phase : ExportPhase) : SaveState :=
  { s with jobs := s.jobs.modify id fun job => { job with phase := phase } }

/-- A request is given its path. -/
def addJob (dir : String) (s : SaveState) (now : Int) (background : Bool) : SaveState :=
  { s with
    jobs := s.jobs ++
      [{ path := savePath dir (floorSeconds now), second := floorSeconds now
         background := background }] }

/-- `save_recording_async`: the new thread is there before the one before it is joined. -/
def saveAsync (dir : String) (s : SaveState) (now : Int) (createDirectories : Option String) :
    SaveState :=
  match makeOutputPath dir createDirectories now with
  | .error _ => s
  | .ok _ =>
    let id := s.jobs.length
    match s.saveThread with
    -- nothing to join: the request is answered at once
    | none => ({ s.addJob dir now true with saveThread := some id } : SaveState).respond id
    | some previous =>
      { s.addJob dir now true with saveThread := some id, io := .joining previous id }

/-- `save_recording`, up to its wait for the mutex. -/
def saveSync (dir : String) (s : SaveState) (now : Int) (createDirectories : Option String) :
    SaveState :=
  match makeOutputPath dir createDirectories now with
  | .error _ => s
  | .ok _ => { s.addJob dir now false with io := .syncing s.jobs.length }

/-- The export of a request, which holds the mutex until its end. -/
def exportFile (s : SaveState) (id : ℕ) (path : String) : ExportOutcome → SaveState
  | .saved =>
    { s.setPhase id (.finished true) with
      files := fun p => if p = path then some (.recording id) else s.files p }
  -- ffmpeg has succeeded, only its list of segments could not be removed
  | .listNotRemoved =>
    { s.setPhase id (.finished false) with
      files := fun p => if p = path then some (.recording id) else s.files p }
  | .ffmpegFails truncated =>
    { s.setPhase id (.finished false) with
      files := fun p =>
        if p = path ∧ truncated = true then some (.truncatedBy id) else s.files p }

/-- The I/O thread waits for an export that has ended. -/
def Waited (s : SaveState) : Prop :=
  match s.io with
  | .idle => False
  | .joining previous _ => s.Finished previous
  | .syncing id => s.Finished id

instance (s : SaveState) : Decidable s.Waited := by
  unfold Waited
  split <;> infer_instance

def enabled (s : SaveState) : SaveAction → Prop
  | .saveAsync .. | .saveSync .. => s.io = .idle
  | .returns => s.Waited
  | .lock id => s.lock = none ∧ s.phase id = some .waiting
  | .exportEnds id _ => s.lock = some id ∧ s.phase id = some .exporting

instance decidableEnabled (s : SaveState) (a : SaveAction) : Decidable (s.enabled a) := by
  unfold enabled
  split <;> infer_instance

def next (dir : String) (s : SaveState) : SaveAction → SaveState
  | .saveAsync now createDirectories => s.saveAsync dir now createDirectories
  | .saveSync now createDirectories => s.saveSync dir now createDirectories
  | .returns =>
    match s.io with
    | .idle => s
    | .joining _ id => { s.respond id with io := .idle }
    | .syncing id =>
      -- an export that has failed is answered with its error
      { (if s.phase id = some (.finished true) then s.respond id else s) with io := .idle }
  | .lock id => { s.setPhase id .exporting with lock := some id }
  | .exportEnds id out =>
    match s.jobs[id]? with
    | some job => { s.exportFile id job.path out with lock := none }
    | none => s

/-- Different requests were given different paths. -/
def PathsDistinct (s : SaveState) : Prop :=
  ∀ (id : ℕ) (job : SaveJob) (id' : ℕ) (job' : SaveJob),
    s.jobs[id]? = some job → s.jobs[id']? = some job' →
    job.Accepted → job'.Accepted → job.path = job'.path → id = id'

/-- Different requests were given different paths, and the file that a response names is the
    one that the request's own export has made, if it has. -/
def SavesKept (s : SaveState) : Prop :=
  s.PathsDistinct ∧
    ∀ r ∈ s.responses, s.phase r.1 = some (.finished true) → s.files r.2 = some (.recording r.1)

/-- The condition on a request: none before it was given its path in the same second. -/
def OwnSecond (s : SaveState) : SaveAction → Prop
  | .saveAsync now none | .saveSync now none =>
    ∀ job ∈ s.jobs, job.Accepted → job.second ≠ floorSeconds now
  | _ => True

end SaveState

/-- The recorder before its first save; files may be there already. -/
def saveSystem (dir : String) : System SaveState SaveAction :=
  System.ofCommands (fun s => ∃ files, s = { files := files }) SaveState.enabled
    (SaveState.next dir)

/-! ## What each step keeps -/

section Steps

variable {dir : String} {s : SaveState}

/-- Paths are made from the seconds, responses name the paths of their requests, and no file
    of an export that has succeeded was overwritten. -/
structure SaveInv (dir : String) (s : SaveState) : Prop where
  paths : ∀ job ∈ s.jobs, job.path = savePath dir job.second
  named : ∀ r ∈ s.responses, ∃ job, s.jobs[r.1]? = some job ∧ job.path = r.2
  own : ∀ id job, s.jobs[id]? = some job → job.phase = .finished true →
    s.files job.path = some (.recording id)
  distinct : s.PathsDistinct

theorem SaveInv.savesKept (h : SaveInv dir s) : s.SavesKept := by
  refine ⟨h.distinct, fun r hr hphase => ?_⟩
  obtain ⟨job, hjob, hpath⟩ := h.named r hr
  have hdone : job.phase = .finished true := by
    simpa [SaveState.phase, hjob] using hphase
  rw [← hpath]
  exact h.own r.1 job hjob hdone

/-- The threads and the mutex are not in the invariant. -/
theorem SaveInv.of_eq {s' : SaveState} (h : SaveInv dir s) (hjobs : s'.jobs = s.jobs)
    (hfiles : s'.files = s.files) (hresponses : s'.responses = s.responses) :
    SaveInv dir s' := by
  refine ⟨?_, ?_, ?_, ?_⟩
  · rw [hjobs]
    exact h.paths
  · rw [hjobs, hresponses]
    exact h.named
  · rw [hjobs, hfiles]
    exact h.own
  · unfold SaveState.PathsDistinct
    rw [hjobs]
    exact h.distinct

theorem SaveInv.respond (h : SaveInv dir s) (id : ℕ) : SaveInv dir (s.respond id) := by
  refine ⟨h.paths, fun r hr => ?_, h.own, h.distinct⟩
  rcases List.mem_append.mp hr with hold | hnew
  · exact h.named r hold
  · cases hjob : s.jobs[id]? with
    | none => simp [hjob] at hnew
    | some job =>
      have hr' : r = (id, job.path) := by simpa [hjob] using hnew
      subst hr'
      exact ⟨job, hjob, rfl⟩

/-! ### A new request -/

/-- The requests after one more: the ones before, and the new one. -/
theorem jobs_addJob {now : Int} {background : Bool} {id : ℕ} {job : SaveJob}
    (h : (s.addJob dir now background).jobs[id]? = some job) :
    s.jobs[id]? = some job ∨
      id = s.jobs.length ∧
        job = { path := savePath dir (floorSeconds now), second := floorSeconds now
                background := background } := by
  unfold SaveState.addJob at h
  rw [List.getElem?_append] at h
  split at h
  · exact Or.inl h
  · rename_i hlen
    obtain ⟨hid, hjob⟩ := List.getElem?_eq_some_iff.mp h
    simp only [List.length_singleton] at hid
    have heq : id - s.jobs.length = 0 := by omega
    refine Or.inr ⟨by omega, ?_⟩
    simpa [heq] using hjob.symm

theorem jobs_addJob_old {now : Int} {background : Bool} {id : ℕ} {job : SaveJob}
    (h : s.jobs[id]? = some job) : (s.addJob dir now background).jobs[id]? = some job := by
  unfold SaveState.addJob
  rw [List.getElem?_append_left (List.getElem?_eq_some_iff.mp h).1]
  exact h

/-- **A new request** has a path of its own exactly when it has a second of its own. -/
theorem pathsDistinct_addJob_iff (h : SaveInv dir s) (now : Int) (background : Bool) :
    (s.addJob dir now background).PathsDistinct ↔
      ∀ job ∈ s.jobs, job.Accepted → job.second ≠ floorSeconds now := by
  refine ⟨fun hall job hjob haccepted heq => ?_, fun hall => ?_⟩
  · obtain ⟨id, hid⟩ := List.mem_iff_getElem?.mp hjob
    have hnew : (s.addJob dir now background).jobs[s.jobs.length]? =
        some { path := savePath dir (floorSeconds now), second := floorSeconds now
               background := background } := by
      simp [SaveState.addJob]
    have hpath : job.path = savePath dir (floorSeconds now) := by rw [h.paths job hjob, heq]
    -- an old request of this second has the new path
    have hid' : id = s.jobs.length :=
      hall id job _ _ (jobs_addJob_old hid) hnew haccepted (Or.inr nofun) hpath
    have hlt := (List.getElem?_eq_some_iff.mp hid).1
    omega
  · -- an old request and the new one would share a second
    have hother : ∀ (id : ℕ) (job : SaveJob), s.jobs[id]? = some job → job.Accepted →
        job.path ≠ savePath dir (floorSeconds now) := by
      intro id job hjob haccepted hpath
      have hmem := List.mem_of_getElem? hjob
      rw [h.paths job hmem] at hpath
      exact hall job hmem haccepted (savePath_inj hpath)
    intro id job id' job' hjob hjob' haccepted haccepted' hpath
    rcases jobs_addJob hjob with hold | ⟨rfl, rfl⟩
    · rcases jobs_addJob hjob' with hold' | ⟨rfl, rfl⟩
      · exact h.distinct id job id' job' hold hold' haccepted haccepted' hpath
      · exact absurd hpath (hother id job hold haccepted)
    · rcases jobs_addJob hjob' with hold' | ⟨rfl, rfl⟩
      · exact absurd hpath.symm (hother id' job' hold' haccepted')
      · rfl

theorem SaveInv.addJob (h : SaveInv dir s) {now : Int} (background : Bool)
    (hown : ∀ job ∈ s.jobs, job.Accepted → job.second ≠ floorSeconds now) :
    SaveInv dir (s.addJob dir now background) := by
  refine ⟨fun job hjob => ?_, fun r hr => ?_, fun id job hjob hphase => ?_,
    (pathsDistinct_addJob_iff h now background).mpr hown⟩
  · rcases List.mem_append.mp hjob with hold | hnew
    · exact h.paths job hold
    · rw [List.mem_singleton.mp hnew]
  · -- requests are only added, so responses keep their requests
    obtain ⟨job, hjob, hpath⟩ := h.named r hr
    exact ⟨job, jobs_addJob_old hjob, hpath⟩
  · rcases jobs_addJob hjob with hold | ⟨_, rfl⟩
    · exact h.own id job hold hphase
    · -- it has not been exported yet
      exact absurd hphase nofun

/-! ### An export -/

theorem jobs_setPhase {id k : ℕ} {phase : ExportPhase} {job : SaveJob}
    (h : (s.setPhase id phase).jobs[k]? = some job) :
    ∃ old, s.jobs[k]? = some old ∧
      job = if id = k then { old with phase := phase } else old := by
  unfold SaveState.setPhase at h
  rw [List.getElem?_modify] at h
  obtain ⟨old, hold, hjob⟩ := Option.map_eq_some_iff.mp h
  exact ⟨old, hold, hjob.symm⟩

/-- A request that is waiting or exporting goes on. -/
theorem pathsDistinct_setPhase (h : s.PathsDistinct) {id : ℕ} {job : SaveJob}
    (hjob : s.jobs[id]? = some job) (hphase : job.phase ≠ .finished false) (phase : ExportPhase) :
    (s.setPhase id phase).PathsDistinct := by
  -- a request that is accepted now was accepted before
  have hbefore : ∀ k old, s.jobs[k]? = some old →
      (if id = k then { old with phase := phase } else old : SaveJob).Accepted →
      old.Accepted := by
    intro k old hold haccepted
    split at haccepted
    · rename_i hk
      subst hk
      rw [hjob] at hold
      obtain rfl := Option.some.inj hold
      exact Or.inr hphase
    · exact haccepted
  have hpath : ∀ (k : ℕ) (old : SaveJob),
      (if id = k then { old with phase := phase } else old : SaveJob).path = old.path := by
    intro k old
    split <;> rfl
  intro k job₁ k' job₂ h₁ h₂ haccepted₁ haccepted₂ heq
  obtain ⟨old₁, hold₁, rfl⟩ := jobs_setPhase h₁
  obtain ⟨old₂, hold₂, rfl⟩ := jobs_setPhase h₂
  rw [hpath, hpath] at heq
  exact h k old₁ k' old₂ hold₁ hold₂ (hbefore k old₁ hold₁ haccepted₁)
    (hbefore k' old₂ hold₂ haccepted₂) heq

/-- What an export does to the invariant: it may write to its own path only, and leaves its
    recording there if it succeeds. -/
theorem SaveInv.setPhase (h : SaveInv dir s) {id : ℕ} {job : SaveJob}
    (hjob : s.jobs[id]? = some job) (hbusy : ∀ ok, job.phase ≠ .finished ok)
    {phase : ExportPhase} {files : String → Option FileContent}
    (hframe : ∀ p, p ≠ job.path → files p = s.files p)
    (hdone : phase = .finished true → files job.path = some (.recording id)) :
    SaveInv dir { s.setPhase id phase with files := files } := by
  refine ⟨fun new hnew => ?_, fun r hr => ?_, fun k new hnew hphase => ?_,
    pathsDistinct_setPhase h.distinct hjob (hbusy false) phase⟩
  · obtain ⟨k, hk⟩ := List.mem_iff_getElem?.mp hnew
    obtain ⟨old, hold, rfl⟩ := jobs_setPhase hk
    have hpath := h.paths old (List.mem_of_getElem? hold)
    split
    · exact hpath
    · exact hpath
  · obtain ⟨old, hold, hpath⟩ := h.named r hr
    have hget : (s.setPhase id phase).jobs[r.1]? =
        some (if id = r.1 then { old with phase := phase } else old) := by
      unfold SaveState.setPhase
      rw [List.getElem?_modify, hold]
      split <;> rfl
    refine ⟨_, hget, ?_⟩
    rw [← hpath]
    split <;> rfl
  · obtain ⟨old, hold, rfl⟩ := jobs_setPhase hnew
    split at hphase
    · rename_i hk
      subst hk
      rw [hjob] at hold
      obtain rfl := Option.some.inj hold
      rw [if_pos rfl]
      exact hdone hphase
    · rename_i hk
      rw [if_neg hk]
      -- the request that exports is accepted, so its path is not the one of `k`
      have hne : old.path ≠ job.path := by
        intro heq
        exact hk (h.distinct id job k old hjob hold (Or.inr (hbusy false))
          (Or.inr (by rw [hphase]; exact nofun)) heq.symm)
      show files old.path = _
      rw [hframe old.path hne]
      exact h.own k old hold hphase

theorem SaveInv.exportFile (h : SaveInv dir s) {id : ℕ} {job : SaveJob}
    (hjob : s.jobs[id]? = some job) (hbusy : ∀ ok, job.phase ≠ .finished ok)
    (out : ExportOutcome) : SaveInv dir (s.exportFile id job.path out) := by
  cases out with
  | saved =>
    apply h.setPhase hjob hbusy
    · exact fun p hp => if_neg hp
    · exact fun _ => if_pos rfl
  | listNotRemoved =>
    apply h.setPhase hjob hbusy
    · exact fun p hp => if_neg hp
    · exact nofun
  | ffmpegFails truncated =>
    apply h.setPhase hjob hbusy
    · exact fun p hp => if_neg fun hand => hp hand.1
    · exact nofun

/-! ### Every step -/

theorem saveInv_saveAsync (h : SaveInv dir s) {now : Int} {createDirectories : Option String}
    (hown : s.OwnSecond (.saveAsync now createDirectories)) :
    SaveInv dir (s.saveAsync dir now createDirectories) := by
  cases createDirectories with
  | some message => exact h
  | none =>
    have hadd : SaveInv dir (s.addJob dir now true) := h.addJob true hown
    simp only [SaveState.saveAsync, makeOutputPath]
    split
    · apply SaveInv.respond
      exact hadd.of_eq rfl rfl rfl
    · exact hadd.of_eq rfl rfl rfl

theorem saveInv_saveSync (h : SaveInv dir s) {now : Int} {createDirectories : Option String}
    (hown : s.OwnSecond (.saveSync now createDirectories)) :
    SaveInv dir (s.saveSync dir now createDirectories) := by
  cases createDirectories with
  | some message => exact h
  | none => exact (h.addJob false hown).of_eq rfl rfl rfl

theorem saveInv_returns (h : SaveInv dir s) : SaveInv dir (s.next dir .returns) := by
  simp only [SaveState.next]
  split
  · exact h
  · exact (h.respond _).of_eq rfl rfl rfl
  · split
    · exact (h.respond _).of_eq rfl rfl rfl
    · exact h.of_eq rfl rfl rfl

/-- The request of an enabled step of a save thread. -/
theorem job_of_phase {id : ℕ} {phase : ExportPhase} (h : s.phase id = some phase)
    (hbusy : ∀ ok, phase ≠ .finished ok) :
    ∃ job, s.jobs[id]? = some job ∧ ∀ ok, job.phase ≠ .finished ok := by
  obtain ⟨job, hjob, rfl⟩ := Option.map_eq_some_iff.mp h
  exact ⟨job, hjob, hbusy⟩

/-- **Step lemma**: a request in a second of its own, and everything that the threads do,
    keeps the invariant. -/
theorem saveInv_next (h : SaveInv dir s) {a : SaveAction} (hen : s.enabled a)
    (hown : s.OwnSecond a) : SaveInv dir (s.next dir a) := by
  cases a with
  | saveAsync now createDirectories => exact saveInv_saveAsync h hown
  | saveSync now createDirectories => exact saveInv_saveSync h hown
  | returns => exact saveInv_returns h
  | lock id =>
    obtain ⟨job, hjob, hbusy⟩ := job_of_phase hen.2 fun _ => nofun
    have hset : SaveInv dir { s.setPhase id .exporting with files := s.files } :=
      h.setPhase hjob hbusy (fun _ _ => rfl) nofun
    exact hset.of_eq rfl rfl rfl
  | exportEnds id out =>
    obtain ⟨job, hjob, hbusy⟩ := job_of_phase hen.2 fun _ => nofun
    simp only [SaveState.next, hjob]
    exact (h.exportFile hjob hbusy out).of_eq rfl rfl rfl

/-- Only a request can break what was kept, and it does so when its second is not its own. -/
theorem ownSecond_of_savesKept (h : SaveInv dir s) {a : SaveAction}
    (hkept : (s.next dir a).SavesKept) : s.OwnSecond a := by
  cases a with
  | saveAsync now createDirectories =>
    cases createDirectories with
    | some message => trivial
    | none =>
      apply (pathsDistinct_addJob_iff h now true).mp
      have hdistinct := hkept.1
      simp only [SaveState.next, SaveState.saveAsync, makeOutputPath] at hdistinct
      split at hdistinct
      · exact hdistinct
      · exact hdistinct
  | saveSync now createDirectories =>
    cases createDirectories with
    | some message => trivial
    | none => exact (pathsDistinct_addJob_iff h now false).mp hkept.1
  | returns => trivial
  | lock id => trivial
  | exportEnds id out => trivial

end Steps

/-- **When saves are kept**: whatever the order in which the save threads get the mutex and
    whatever their exports come to, in every state of a run different requests have different
    paths and each response names the file of its own export, exactly when no request is
    given its path in the same second as another one. -/
theorem savesKept_iff (dir : String) (files : String → Option FileContent)
    (actions : List SaveAction) :
    Along (saveSystem dir) SaveState.SavesKept { files := files } actions ↔
      Guarded (saveSystem dir) SaveState.OwnSecond { files := files } actions := by
  have hinv : ∀ (s : SaveState) (a : SaveAction), SaveInv dir s → s.enabled a → s.OwnSecond a →
      SaveInv dir (s.next dir a) := fun s a hI hen hown => saveInv_next hI hen hown
  have hstep : ∀ (s : SaveState) (a : SaveAction), SaveInv dir s → s.enabled a →
      ((s.next dir a).SavesKept ↔ s.OwnSecond a) :=
    fun s a hI hen => ⟨ownSecond_of_savesKept hI, fun hown => (saveInv_next hI hen hown).savesKept⟩
  have hinit : SaveInv dir { files := files } := by
    refine ⟨nofun, nofun, fun id job hjob => ?_, fun id job id' job' hjob => ?_⟩
    · simp at hjob
    · simp at hjob
  exact along_iff_guarded_ofCommands hinv hstep hinit hinit.savesKept actions

/-- Two saves in the first second of the clock, half a second apart: both are answered with
    one path, and the file there is the second recording. -/
theorem sameSecond_overwrites :
    ∃ s', run (saveSystem "out") anyStep {}
        [.saveAsync 0 none, .lock 0, .exportEnds 0 .saved, .saveAsync 500000000 none, .returns,
          .lock 1, .exportEnds 1 .saved] = some s' ∧
      s'.responses = [(0, savePath "out" 0), (1, savePath "out" 0)] ∧
      s'.phase 0 = some (.finished true) ∧
      s'.files (savePath "out" 0) = some (.recording 1) ∧
      ¬ s'.SavesKept := by
  refine ⟨_, rfl, rfl, rfl, if_pos rfl, fun hkept => ?_⟩
  have hother : some (FileContent.recording 1) = some (.recording 0) :=
    (if_pos rfl).symm.trans (hkept.2 (0, savePath "out" 0) List.mem_cons_self rfl)
  exact absurd hother (by decide)

end AVCapture.Core
