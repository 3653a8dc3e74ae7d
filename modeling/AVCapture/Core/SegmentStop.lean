import AVCapture.Core.FrameConservation

/-!
# Stopping while an Export Runs

`RollingSegment::stop` joins the tick thread, removes the segment directory and resets
`seq_`. It does not take `segment_mutex_`, and the background save thread is joined only
later, so an export may be between any two of its steps meanwhile.

The tick thread cannot touch the files of an export, because it writes under the mutex.
An export therefore concatenates what it has listed exactly as long as the stop path
removes no file of its list, and none before the list is made. `list.txt` is one of the files
that are removed; ffmpeg needs it only until it has opened it.

## Main results

- `StopInv`: the tick's critical section, and which segment files there are
- `ListInv`: whether `list.txt` is there
- `exportsIntact_iff`: in which runs every export gets the segments it has listed
-/

namespace AVCapture.Core

open AVCapture.Utils Transition

/-! ## What an export is promised -/

/-- The export has listed files that were there, and what ffmpeg has opened of them is what was
    listed. -/
structure ExportRun.Intact (e : ExportRun) : Prop where
  present : ∀ p ∈ e.slots, p.2 ≠ none
  read_eq : e.read = (e.slots.take e.read.length).map Prod.snd

/-- What ffmpeg has concatenated is all that was listed, and all of it was there. -/
structure ExportRun.Complete (e : ExportRun) : Prop where
  present : ∀ p ∈ e.slots, p.2 ≠ none
  read_all : e.read = e.slots.map Prod.snd

/-- `list.txt` is there for ffmpeg, or ffmpeg has it already. -/
def ThreadState.GetsList (s : ThreadState) : Prop :=
  s.run.found = some true ∨ (s.run.found = none ∧ s.listTxt = true)

/-- An export that holds the mutex finds the segments as it has listed them, and its list, if
    there is something in it; and every export that is over has got the segments it has
    listed. -/
structure ExportsIntact (s : ThreadState) : Prop where
  running : s.mutex = .export → s.run.Intact ∧ ∀ p ∈ s.run.slots, s.disk p.1 = p.2
  list : s.mutex = .export → s.run.slots ≠ [] → s.GetsList
  finished : ∀ e ∈ s.exported, e.Complete

/-- The stop path removes no file that a running export has listed, and no `list.txt` that ffmpeg
    has still to open; and no export makes its list when that or one of the files it would name
    has already gone. -/
def noPull (cfg : Config) (s : ThreadState) : Action → Prop
  | .stopRemove idx => s.mutex = .export → idx ∉ s.run.slots.map Prod.fst
  | .stopRemoveList => s.mutex = .export → s.run.slots ≠ [] → s.run.found ≠ none
  | .stopRemoved dirGone => dirGone = true → s.mutex = .export → s.run.slots = []
  | .exportList => s.stop = .removing ∨ s.stop = .removed →
      (∀ idx ∈ exportWindow cfg s.seq s.run.segments, s.disk idx ≠ none) ∧
        (exportWindow cfg s.seq s.run.segments ≠ [] → s.listTxt = true)
  | _ => True

/-! ## Which files there are -/

/-- The tick is inside its critical section. -/
def TickPc.critical : TickPc → Bool
  | .locked | .videoTaken | .audioTaken | .muxed => true
  | _ => false

/-- The tick has saved its segment and not yet advanced `seq_`. -/
def TickPc.saved (pc : TickPc) (saveOk : Bool) : Bool :=
  match pc with
  | .muxed => saveOk
  | .unlocked | .videoCleared | .audioCleared => true
  | _ => false

/-- The directory is whole: the stop path is not removing it. -/
def StopPc.keepsFiles : StopPc → Bool
  | .removing | .removed => false
  | _ => true

/-- The tick holds the mutex in its critical section and has ended before anything is
    removed; and until then every segment counted by `seq_` has a file. -/
structure StopInv (cfg : Config) (s : ThreadState) : Prop where
  critical : s.tick.critical = true → s.mutex = .tick
  exited : s.stop ≠ .running → s.stop ≠ .requested → s.tick = .exited
  idx_eq : s.tick.inTick = true → s.idx = s.seq % cfg.ringSize
  counted : s.stop.keepsFiles = true → ∀ t < s.seq, s.disk (t % cfg.ringSize) ≠ none
  saved : s.tick.saved s.saveOk = true → s.disk s.idx ≠ none

theorem stopInv_started (cfg : Config) (videoCapacity audioCapacity : Nat)
    (stale : Nat → Option TsFile) :
    StopInv cfg (ThreadState.started videoCapacity audioCapacity stale) := by
  refine ⟨nofun, fun h => absurd rfl h, nofun, ?_, nofun⟩
  intro _ t ht
  exact absurd ht (Nat.not_lt_zero t)

/-- Files are removed only after the tick thread has been joined. -/
theorem StopInv.joined {cfg : Config} {s : ThreadState} (hI : StopInv cfg s)
    (hremoving : s.stop.keepsFiles = false) : s.tick = .exited := by
  apply hI.exited
  · intro hstop
    rw [hstop] at hremoving
    cases hremoving
  · intro hstop
    rw [hstop] at hremoving
    cases hremoving

theorem StopInv.joined_of_stopped {cfg : Config} {s : ThreadState} (hI : StopInv cfg s)
    (hstop : s.stop = .stopped) : s.tick = .exited :=
  hI.exited (by rw [hstop]; nofun) (by rw [hstop]; nofun)

/-- A save leaves a file where there was one, and a successful save leaves one anyway. -/
theorem savedFile_ne_none {cfg : Config} {env : SegmentEnv} {s : ThreadState}
    {calls : MuxCalls}
    (h : (s.save cfg env calls).result.failed = true → s.disk s.idx ≠ none) :
    s.savedFile cfg env calls ≠ none := by
  unfold ThreadState.savedFile
  cases hres : (s.save cfg env calls).result.failed with
  | false =>
    obtain ⟨file, hfile⟩ := exists_file_of_not_failed _ _ _ _ _ _ hres
    have hsave : (s.save cfg env calls).file = some file := hfile
    simp [hres, hsave]
  | true =>
    have hbefore := h hres
    have hsave : (s.save cfg env calls).file = _ :=
      (saveAvToTs_of_not_setupSucceeds env (segPath cfg s.idx)
        ((s.disk s.idx).map SegmentFile.file) ((saveAvToTs_failed_iff ..).mp hres)).2.2
    -- the file is the one that was there, or what truncating it has left
    have hsome : ∃ file, (s.save cfg env calls).file = some file := by
      obtain ⟨f, hf⟩ := Option.ne_none_iff_exists'.mp hbefore
      rw [hsave]
      split
      · exact ⟨_, rfl⟩
      · exact ⟨f.file, by rw [hf]; rfl⟩
    obtain ⟨file, hfile⟩ := hsome
    simp only [hres, hfile, if_true]
    split
    · exact hbefore
    · exact Option.some_ne_none _

theorem savedFile_ne_none_of_ok {cfg : Config} {env : SegmentEnv} {s : ThreadState}
    {calls : MuxCalls} (h : (!(s.save cfg env calls).result.failed) = true) :
    s.savedFile cfg env calls ≠ none := by
  apply savedFile_ne_none
  intro hfailed
  rw [hfailed] at h
  cases h

/-- A failed save may have cut the file of its slot short, but not removed it. -/
theorem update_savedFile_ne_none {cfg : Config} {env : SegmentEnv} {s : ThreadState}
    {calls : MuxCalls} {slot : Nat} (h : s.disk slot ≠ none) :
    Function.update s.disk s.idx (s.savedFile cfg env calls) slot ≠ none := by
  rcases eq_or_ne slot s.idx with heq | hne
  · rw [heq, Function.update_self]
    exact savedFile_ne_none fun _ => heq ▸ h
  · rw [Function.update_of_ne hne]
    exact h

/-- **Step**: every step keeps the invariant. -/
theorem stopInv_next {cfg : Config} {env : SegmentEnv} {s : ThreadState} {a : Action}
    (hI : StopInv cfg s) (hen : s.enabled a) : StopInv cfg (s.next cfg env a) := by
  have hjoined := hI.joined
  obtain ⟨hcrit, hexit, hidx, hcounted, hsaved⟩ := hI
  -- a thread that is still ticking has not been joined
  have hticking (pc pc' : TickPc) (hpc : s.tick = pc) (hne : pc ≠ .exited) :
      s.stop ≠ .running → s.stop ≠ .requested → pc' = .exited :=
    fun h h' => absurd ((hpc.symm.trans (hexit h h'))) hne
  cases a with
  | tickBegin =>
    exact ⟨nofun, hticking _ _ hen.1 nofun, fun _ => rfl, hcounted, nofun⟩
  | tickLock =>
    rw [hen.1] at hidx
    exact ⟨fun _ => rfl, hticking _ _ hen.1 nofun, hidx, hcounted, nofun⟩
  | tickTakeVideo =>
    have hpc : s.tick = .locked := hen
    rw [hpc] at hidx hcrit
    exact ⟨hcrit, hticking _ _ hpc nofun, hidx, hcounted, nofun⟩
  | tickTakeAudio =>
    have hpc : s.tick = .videoTaken := hen
    rw [hpc] at hidx hcrit
    exact ⟨hcrit, hticking _ _ hpc nofun, hidx, hcounted, nofun⟩
  | tickMux calls =>
    have hpc : s.tick = .audioTaken := hen
    rw [hpc] at hidx hcrit
    refine ⟨hcrit, hticking _ _ hpc nofun, hidx, fun hkeeps t ht => ?_, fun hok => ?_⟩
    · exact update_savedFile_ne_none (hcounted hkeeps t ht)
    · show Function.update s.disk s.idx _ s.idx ≠ none
      rw [Function.update_self]
      exact savedFile_ne_none_of_ok hok
  | tickUnlock =>
    have hpc : s.tick = .muxed := hen
    rw [hpc] at hidx hsaved
    unfold ThreadState.next
    cases hok : s.saveOk with
    | true =>
      rw [hok] at hsaved
      exact ⟨nofun, hticking _ _ hpc nofun, hidx, hcounted, hsaved⟩
    | false => exact ⟨nofun, hticking _ _ hpc nofun, nofun, hcounted, nofun⟩
  | tickClearVideo =>
    have hpc : s.tick = .unlocked := hen
    rw [hpc] at hidx hsaved
    exact ⟨nofun, hticking _ _ hpc nofun, hidx, hcounted, hsaved⟩
  | tickClearAudio =>
    have hpc : s.tick = .videoCleared := hen
    rw [hpc] at hidx hsaved
    exact ⟨nofun, hticking _ _ hpc nofun, hidx, hcounted, hsaved⟩
  | tickAdvance =>
    have hpc : s.tick = .audioCleared := hen
    rw [hpc] at hidx hsaved
    refine ⟨nofun, hticking _ _ hpc nofun, nofun, ?_, nofun⟩
    intro hkeeps t ht
    -- the segment counted by this step is the one saved by this tick
    rcases Nat.lt_succ_iff_lt_or_eq.mp ht with hlt | heq
    · exact hcounted hkeeps t hlt
    · rw [heq, ← hidx rfl]
      exact hsaved rfl
  | tickExit => exact ⟨nofun, fun _ _ => rfl, nofun, hcounted, nofun⟩
  | pushVideo frame => exact ⟨hcrit, hexit, hidx, hcounted, hsaved⟩
  | pushAudio frame => exact ⟨hcrit, hexit, hidx, hcounted, hsaved⟩
  | exportLock segments =>
    -- the mutex was free, so the tick is not in its critical section
    refine ⟨?_, hexit, hidx, hcounted, hsaved⟩
    intro hc
    have hfree : s.mutex = .free := hen
    rw [hcrit hc] at hfree
    cases hfree
  | exportCreate | exportList | exportFind | exportRead =>
    exact ⟨hcrit, hexit, hidx, hcounted, hsaved⟩
  | exportUnlock =>
    refine ⟨?_, hexit, hidx, hcounted, hsaved⟩
    intro hc
    have hexport := hen.1
    rw [hcrit hc] at hexport
    cases hexport
  | stopRequest =>
    rw [show s.stop = _ from hen] at hcounted
    exact ⟨hcrit, fun _ h => absurd rfl h, hidx, hcounted, hsaved⟩
  | stopJoin =>
    exact ⟨hcrit, fun _ _ => hen.2, hidx, nofun, hsaved⟩
  -- the stop path has joined the tick thread, which therefore relies on no file
  | stopRemove idx =>
    have hstop : s.stop = .removing := hen
    have hpc : s.tick = .exited := hjoined (by rw [hstop]; rfl)
    refine ⟨hcrit, hexit, hidx, ?_, ?_⟩
    · show s.stop.keepsFiles = true → _
      rw [hstop]
      nofun
    · show s.tick.saved s.saveOk = true → _
      rw [hpc]
      nofun
  | stopRemoveList => exact ⟨hcrit, hexit, hidx, hcounted, hsaved⟩
  | stopRemoved dirGone =>
    have hpc : s.tick = .exited := hjoined (by rw [hen.1]; rfl)
    refine ⟨hcrit, fun _ _ => hpc, hidx, nofun, ?_⟩
    show s.tick.saved s.saveOk = true → _
    rw [hpc]
    nofun
  | stopReset =>
    have hstop : s.stop = .removed := hen
    have hpc : s.tick = .exited := hjoined (by rw [hstop]; rfl)
    refine ⟨hcrit, fun _ _ => hpc, ?_, ?_, hsaved⟩
    · show s.tick.inTick = true → _
      rw [hpc]
      nofun
    · -- `seq_` is 0 again, and counts nothing
      intro _ t ht
      exact absurd ht (Nat.not_lt_zero t)

/-! ## The list of an export -/

/-- Nothing has been removed yet. -/
def StopPc.whole : StopPc → Bool
  | .running | .requested => true
  | _ => false

/-- Until something is removed, an export that has created `list.txt` finds it there; and the
    steps of an export are taken in their order. -/
structure ListInv (s : ThreadState) : Prop where
  dir : s.stop.whole = true → s.dir = true
  created : s.stop.whole = true → s.mutex = .export → s.run.created = true → s.listTxt = true
  reset : s.stop = .stopped → s.seq = 0
  uncreated : s.run.created = false → s.run.listed = none
  unlisted : s.run.listed = none → s.run.found = none

theorem listInv_started (videoCapacity audioCapacity : Nat) (stale : Nat → Option TsFile) :
    ListInv (ThreadState.started videoCapacity audioCapacity stale) :=
  ⟨fun _ => rfl, nofun, nofun, fun _ => rfl, fun _ => rfl⟩

/-- **Step**: every step keeps what is known about the list. -/
theorem listInv_next {cfg : Config} {env : SegmentEnv} {s : ThreadState} {a : Action}
    (hI : StopInv cfg s) (hL : ListInv s) (hen : s.enabled a) : ListInv (s.next cfg env a) := by
  obtain ⟨hdir, hcreated, hreset, huncreated, hunlisted⟩ := hL
  cases a with
  | tickBegin | tickTakeVideo | tickTakeAudio | tickMux | tickClearVideo | tickClearAudio
  | tickExit | pushVideo | pushAudio | exportRead | stopRemove =>
    exact ⟨hdir, hcreated, hreset, huncreated, hunlisted⟩
  | tickLock => exact ⟨hdir, nofun, hreset, huncreated, hunlisted⟩
  | tickUnlock =>
    unfold ThreadState.next
    cases s.saveOk with
    | true => exact ⟨hdir, nofun, hreset, huncreated, hunlisted⟩
    | false => exact ⟨hdir, nofun, hreset, huncreated, hunlisted⟩
  | tickAdvance =>
    refine ⟨hdir, hcreated, fun hstop => ?_, huncreated, hunlisted⟩
    -- the tick thread has not ended
    have hstopped : s.stop = .stopped := hstop
    have hexited : s.tick = .exited := hI.joined_of_stopped hstopped
    rw [show s.tick = _ from hen] at hexited
    cases hexited
  | exportLock => exact ⟨hdir, nofun, hreset, fun _ => rfl, fun _ => rfl⟩
  | exportCreate => exact ⟨hdir, fun hwhole _ _ => hdir hwhole, hreset, nofun, hunlisted⟩
  | exportList =>
    exact ⟨hdir, hcreated, hreset, fun h => absurd (hen.2.1.symm.trans h) nofun, nofun⟩
  | exportFind =>
    exact ⟨hdir, hcreated, hreset, huncreated, fun h => absurd h hen.2.1⟩
  | exportUnlock => exact ⟨hdir, nofun, hreset, huncreated, hunlisted⟩
  | stopRequest =>
    rw [show s.stop = _ from hen] at hdir hcreated
    exact ⟨hdir, hcreated, nofun, huncreated, hunlisted⟩
  | stopJoin => exact ⟨nofun, nofun, nofun, huncreated, hunlisted⟩
  | stopRemoveList =>
    have hstop : s.stop = .removing := hen
    have hremoving : ¬ s.stop.whole = true := by rw [hstop]; nofun
    exact ⟨hdir, fun hwhole => absurd hwhole hremoving, hreset, huncreated, hunlisted⟩
  | stopRemoved => exact ⟨nofun, nofun, nofun, huncreated, hunlisted⟩
  | stopReset => exact ⟨nofun, nofun, fun _ => rfl, huncreated, hunlisted⟩

/-! ## Steps and exports -/

/-- Before anything is removed, every slot of a window has a file. -/
theorem StopInv.window_present {cfg : Config} {s : ThreadState} (hI : StopInv cfg s)
    (hkeeps : s.stop.keepsFiles = true) (segments : Nat) :
    ∀ idx ∈ exportWindow cfg s.seq segments, s.disk idx ≠ none := by
  intro idx hidx
  rw [exportWindow_eq] at hidx
  obtain ⟨t, ht, rfl⟩ := List.mem_map.mp hidx
  exact hI.counted hkeeps t (Ring.mem_window.mp ht).1

/-- The list of an export is made of files that are there, and is there itself if it has
    something in it. -/
theorem present_exportList {cfg : Config} {s : ThreadState} (hI : StopInv cfg s)
    (hL : ListInv s) (hok : noPull cfg s .exportList) (hen : s.enabled .exportList) :
    (∀ idx ∈ exportWindow cfg s.seq s.run.segments, s.disk idx ≠ none) ∧
      (exportWindow cfg s.seq s.run.segments ≠ [] → s.listTxt = true) := by
  cases hstop : s.stop with
  | removing => exact hok (.inl hstop)
  | removed => exact hok (.inr hstop)
  | running =>
    refine ⟨hI.window_present (by rw [hstop]; rfl) s.run.segments, fun _ => ?_⟩
    exact hL.created (by rw [hstop]; rfl) hen.1 hen.2.1
  | requested =>
    refine ⟨hI.window_present (by rw [hstop]; rfl) s.run.segments, fun _ => ?_⟩
    exact hL.created (by rw [hstop]; rfl) hen.1 hen.2.1
  | stopped =>
    -- `seq_` has been reset, and the window is empty
    refine ⟨hI.window_present (by rw [hstop]; rfl) s.run.segments, fun hne => ?_⟩
    rw [hL.reset hstop, exportWindow_eq, Ring.window_zero] at hne
    exact absurd rfl hne

/-- Reading the next listed file. -/
theorem ExportRun.Intact.read {e : ExportRun} (h : e.Intact) {disk : Nat → Option SegmentFile}
    (hkept : ∀ p ∈ e.slots, disk p.1 = p.2) (hlt : e.read.length < e.slots.length) :
    ({ e with read := e.read ++ [disk e.nextSlot] } : ExportRun).Intact := by
  obtain ⟨hpresent, hread⟩ := h
  refine ⟨hpresent, ?_⟩
  have hget : e.slots[e.read.length]? = some e.slots[e.read.length] :=
    List.getElem?_eq_getElem hlt
  have hnext : disk e.nextSlot = e.slots[e.read.length].2 := by
    unfold ExportRun.nextSlot
    rw [hget]
    exact hkept _ (List.getElem_mem hlt)
  show e.read ++ [disk e.nextSlot] =
    (e.slots.take (e.read ++ [disk e.nextSlot]).length).map Prod.snd
  rw [List.length_append, List.length_singleton, List.take_add_one, hget, List.map_append,
    ← hread, hnext]
  rfl

/-- **An export that ends** has concatenated all it has listed, if it has had its list. -/
theorem ExportRun.Intact.complete {e : ExportRun} (h : e.Intact) (hended : e.Ended)
    (hfound : e.slots ≠ [] → e.found = some true) : e.Complete := by
  obtain ⟨hpresent, hread⟩ := h
  refine ⟨hpresent, ?_⟩
  by_cases hslots : e.slots = []
  · rw [hslots, List.take_nil] at hread
    rw [hread, hslots]
  · rcases hended with hlost | ⟨-, hgone | hall⟩
    · rw [hfound hslots] at hlost
      cases hlost
    · -- none of the files was missing
      rw [hread] at hgone
      obtain ⟨p, hp, hnone⟩ := List.mem_map.mp hgone
      exact absurd hnone (hpresent p (List.mem_of_mem_take hp))
    · rwa [hall, List.take_length] at hread

/-- A step that leaves the exports and what they need alone. -/
theorem ExportsIntact.of_same {s s' : ThreadState} (hE : ExportsIntact s)
    (hmutex : s'.mutex = .export → s.mutex = .export) (hrun : s'.run = s.run)
    (hdisk : s'.mutex = .export → s'.disk = s.disk) (hlist : s'.listTxt = s.listTxt)
    (hexported : s'.exported = s.exported) : ExportsIntact s' := by
  refine ⟨fun h => ?_, fun h => ?_, ?_⟩
  · rw [hrun, hdisk h]
    exact hE.running (hmutex h)
  · unfold ThreadState.GetsList
    rw [hrun, hlist]
    exact hE.list (hmutex h)
  · rw [hexported]
    exact hE.finished

/-- **Step**: a step that pulls no listed file keeps every export intact. -/
theorem exportsIntact_next {cfg : Config} {env : SegmentEnv} {s : ThreadState} {a : Action}
    (hI : StopInv cfg s) (hL : ListInv s) (hE : ExportsIntact s) (hok : noPull cfg s a)
    (hen : s.enabled a) : ExportsIntact (s.next cfg env a) := by
  cases a with
  | tickLock => exact hE.of_same nofun rfl (fun _ => rfl) rfl rfl
  | tickMux calls =>
    -- the tick holds the mutex, so no export is running
    refine hE.of_same id rfl (fun hmutex => ?_) rfl rfl
    have hexport : s.mutex = .export := hmutex
    rw [hI.critical (by rw [show s.tick = _ from hen]; rfl)] at hexport
    cases hexport
  | tickUnlock =>
    unfold ThreadState.next
    cases hsave : s.saveOk with
    | true => exact hE.of_same nofun rfl (fun _ => rfl) rfl rfl
    | false => exact hE.of_same nofun rfl (fun _ => rfl) rfl rfl
  | exportLock segments =>
    exact ⟨fun _ => ⟨⟨nofun, rfl⟩, nofun⟩, fun _ h => absurd rfl h, hE.finished⟩
  | exportCreate =>
    obtain ⟨⟨hpresent, hread⟩, hkept⟩ := hE.running hen.1
    refine ⟨fun _ => ⟨⟨hpresent, hread⟩, hkept⟩, fun _ hne => ?_, hE.finished⟩
    -- nothing is listed before `list.txt` is created
    have hnone : s.run.listed = none := hL.uncreated hen.2
    exact absurd (show s.run.listed.getD [] = [] by rw [hnone]; rfl) hne
  | exportList =>
    obtain ⟨hpresent, hthere⟩ := present_exportList hI hL hok hen
    refine ⟨fun _ => ⟨⟨?_, ?_⟩, ?_⟩, fun _ hne => ?_, hE.finished⟩
    · intro p hp
      obtain ⟨idx, hidx, rfl⟩ := List.mem_map.mp hp
      exact hpresent idx hidx
    · -- nothing has been read before there is a list
      have hread := (hE.running hen.1).1.read_eq
      have hslots : s.run.slots = [] := by
        rw [ExportRun.slots, hen.2.2]
        rfl
      rw [hslots, List.take_nil, List.map_nil] at hread
      show s.run.read = (List.take s.run.read.length _).map Prod.snd
      rw [hread]
      rfl
    · intro p hp
      obtain ⟨idx, _, rfl⟩ := List.mem_map.mp hp
      rfl
    · refine .inr ⟨hL.unlisted hen.2.2, hthere fun hnil => hne ?_⟩
      show (exportWindow cfg s.seq s.run.segments).map _ = []
      rw [hnil, List.map_nil]
  | exportFind =>
    obtain ⟨⟨hpresent, hread⟩, hkept⟩ := hE.running hen.1
    refine ⟨fun _ => ⟨⟨hpresent, hread⟩, hkept⟩, fun _ hne => ?_, hE.finished⟩
    rcases hE.list hen.1 hne with hfound | ⟨-, hthere⟩
    · rw [hen.2.2] at hfound
      cases hfound
    · exact .inl (congrArg some hthere)
  | exportRead =>
    obtain ⟨hintact, hkept⟩ := hE.running hen.1
    exact ⟨fun _ => ⟨hintact.read hkept hen.2.2, hkept⟩, hE.list, hE.finished⟩
  | exportUnlock succeeded =>
    refine ⟨nofun, nofun, ?_⟩
    intro e he
    rcases List.mem_append.mp he with hold | hnew
    · exact hE.finished e hold
    · rw [List.mem_singleton.mp hnew]
      refine (hE.running hen.1).1.complete hen.2 fun hne => ?_
      rcases hE.list hen.1 hne with hfound | ⟨hnone, -⟩
      · exact hfound
      · -- ffmpeg has looked for its list
        rcases hen.2 with h | ⟨h, -⟩ <;> rw [hnone] at h <;> cases h
  | stopRemove idx =>
    refine ⟨fun hmutex => ?_, hE.list, hE.finished⟩
    obtain ⟨hintact, hkept⟩ := hE.running hmutex
    refine ⟨hintact, ?_⟩
    intro p hp
    have hne : p.1 ≠ idx := by
      intro heq
      exact hok hmutex (heq ▸ List.mem_map_of_mem hp)
    exact (Function.update_of_ne hne _ _).trans (hkept p hp)
  | stopRemoveList =>
    refine ⟨hE.running, fun hmutex hne => ?_, hE.finished⟩
    rcases hE.list hmutex hne with hfound | ⟨hnone, -⟩
    · exact .inl hfound
    · exact absurd hnone (hok hmutex hne)
  | stopRemoved dirGone =>
    cases dirGone with
    | false => exact hE.of_same id rfl (fun _ => rfl) rfl rfl
    | true =>
      refine ⟨fun hmutex => ⟨(hE.running hmutex).1, fun p hp => ?_⟩, hE.list, hE.finished⟩
      have hlisted : p ∈ s.run.slots := hp
      rw [show s.run.slots = [] from hok rfl hmutex] at hlisted
      cases hlisted
  -- the other steps change no file and leave the export alone
  | tickBegin | tickTakeVideo | tickTakeAudio | tickClearVideo | tickClearAudio | tickAdvance
  | tickExit | pushVideo | pushAudio | stopRequest | stopJoin | stopReset =>
    exact hE.of_same id rfl (fun _ => rfl) rfl rfl

/-- A step that pulls a listed file breaks an export. -/
theorem exportsIntact_next_iff {cfg : Config} {env : SegmentEnv} {s : ThreadState}
    {a : Action} (hI : StopInv cfg s) (hL : ListInv s) (hE : ExportsIntact s)
    (hen : s.enabled a) : ExportsIntact (s.next cfg env a) ↔ noPull cfg s a := by
  refine ⟨?_, fun hok => exportsIntact_next hI hL hE hok hen⟩
  intro hE'
  by_contra hnot
  cases a with
  | stopRemove idx =>
    -- the file was listed as present and is gone now
    obtain ⟨hmutex, hmem⟩ : s.mutex = .export ∧ idx ∈ s.run.slots.map Prod.fst := by
      simpa [noPull] using hnot
    obtain ⟨p, hp, rfl⟩ := List.mem_map.mp hmem
    have hgone : (none : Option SegmentFile) = p.2 := by
      rw [← (hE'.running hmutex).2 p hp]
      exact (Function.update_self p.1 none s.disk).symm
    exact (hE.running hmutex).1.present p hp hgone.symm
  | stopRemoveList =>
    -- ffmpeg has not opened the list, and cannot do so any more
    obtain ⟨hmutex, hne, hnone⟩ : s.mutex = .export ∧ s.run.slots ≠ [] ∧ s.run.found = none := by
      simpa [noPull] using hnot
    rcases hE'.list hmutex hne with hfound | ⟨-, hthere⟩
    · have hfound' : s.run.found = some true := hfound
      rw [hnone] at hfound'
      cases hfound'
    · cases hthere
  | stopRemoved dirGone =>
    obtain ⟨rfl, hmutex, hne⟩ : dirGone = true ∧ s.mutex = .export ∧ s.run.slots ≠ [] := by
      simpa [noPull] using hnot
    obtain ⟨p, hp⟩ := List.exists_mem_of_ne_nil _ hne
    have hgone : (none : Option SegmentFile) = p.2 := (hE'.running hmutex).2 p hp
    exact (hE.running hmutex).1.present p hp hgone.symm
  | exportList =>
    refine hnot fun _ => ⟨fun idx hidx => ?_, fun hne => ?_⟩
    · exact (hE'.running hen.1).1.present _ (List.mem_map_of_mem hidx)
    · -- ffmpeg has not opened a list that was not written
      have hslots : (s.next cfg env .exportList).run.slots ≠ [] :=
        fun hnil => hne (List.map_eq_nil_iff.mp hnil)
      rcases hE'.list hen.1 hslots with hfound | ⟨-, hthere⟩
      · have hfound' : s.run.found = some true := hfound
        rw [hL.unlisted hen.2.2] at hfound'
        cases hfound'
      · exact hthere
  | _ => exact hnot trivial

/-- **Exports survive a stop** in a run, each of them concatenating exactly the segments
    it has listed, if and only if the stop path of the run never removes a file that a
    running export has listed, nor one that an export is going to list, nor a list that
    ffmpeg has still to open. -/
theorem exportsIntact_iff (cfg : Config) (env : SegmentEnv)
    (videoCapacity audioCapacity : Nat) (stale : Nat → Option TsFile) (as : List Action) :
    Along (segmenterSystem cfg env) ExportsIntact
        (ThreadState.started videoCapacity audioCapacity stale) as ↔
      Guarded (segmenterSystem cfg env) (noPull cfg)
        (ThreadState.started videoCapacity audioCapacity stale) as := by
  have hkeep : ∀ (s : ThreadState) (a : Action),
      ((StopInv cfg s ∧ ListInv s) ∧ ExportsIntact s) → s.enabled a → noPull cfg s a →
      (StopInv cfg (s.next cfg env a) ∧ ListInv (s.next cfg env a)) ∧
        ExportsIntact (s.next cfg env a) :=
    fun s a hI hen hok => ⟨⟨stopInv_next hI.1.1 hen, listInv_next hI.1.1 hI.1.2 hen⟩,
      exportsIntact_next hI.1.1 hI.1.2 hI.2 hok hen⟩
  have hexact : ∀ (s : ThreadState) (a : Action),
      ((StopInv cfg s ∧ ListInv s) ∧ ExportsIntact s) → s.enabled a →
      (ExportsIntact (s.next cfg env a) ↔ noPull cfg s a) :=
    fun s a hI hen => exportsIntact_next_iff hI.1.1 hI.1.2 hI.2 hen
  have hinit : ExportsIntact (ThreadState.started videoCapacity audioCapacity stale) :=
    ⟨nofun, nofun, nofun⟩
  exact along_iff_guarded_ofCommands hkeep hexact
    ⟨⟨stopInv_started .., listInv_started ..⟩, hinit⟩ hinit as

/-- An export has listed both slots when a shutdown stops the recorder. -/
def stopDuringExport : List Action :=
  frameAndTick ++ frameAndTick ++
    [.stopRequest, .tickExit, .exportLock 2, .exportCreate, .exportList, .exportFind, .stopJoin,
      .stopRemove 0, .exportRead]

/-- The first segment of the list is gone when `ffmpeg` opens it. -/
theorem stopDuringExport_pulls_segment :
    ¬ ∀ s, Reachable (segmenterSystem twoSlots smallEnv) s → ExportsIntact s := by
  intro hall
  have hinit : Reachable (segmenterSystem twoSlots smallEnv)
      (ThreadState.started 60 16 fun _ => none) :=
    .init ⟨60, 16, fun _ => none, rfl⟩
  obtain ⟨s, hreach, hs⟩ := hinit.exists_of_run stopDuringExport
    (fun s => decide (s.mutex = .export ∧ s.run.slots.length = 2 ∧ s.run.read = [none]))
    (by decide)
  obtain ⟨hmutex, hlen, hread⟩ := of_decide_eq_true hs
  obtain ⟨hpresent, hread'⟩ := ((hall s hreach).running hmutex).1
  rw [hread] at hread'
  cases hslots : s.run.slots with
  | nil =>
    rw [hslots] at hlen
    cases hlen
  | cons p rest =>
    rw [hslots] at hread' hpresent
    simp only [List.length_singleton, List.take_succ_cons, List.take_zero, List.map_cons,
      List.map_nil, List.cons.injEq, and_true] at hread'
    exact hpresent p (List.mem_cons_self ..) hread'.symm

end AVCapture.Core
