import AVCapture.Encoding.MixerThread

/-!
# The Mixer from Session to Session

`AudioMixer::start` after a `stop` (`core/audio/AudioMixer.cpp`). The streams keep what the last
session has left in their queues, and no session knows how many frames each stream has given
before.

A session ends with a round that may lack frames of some streams (`Encoding.MixerThread`). The
next session then mixes frames that were not recorded together, and no start puts the streams
back in step.

## Main results

- `historyInv_of_reach`: the offsets at which the sessions begin
- `mixer_sessions`: the frames of a round, counted over all sessions
- `mixer_skew_reached`: how far two streams can come apart
-/

namespace AVCapture.Encoding

open AVCapture.Utils Transition

/-! ## Sessions -/

/-- The session under way, or the last one. Recorded besides: what the sessions before it have
    taken from each stream, and the number of starts. What a session finds in the queues counts
    as pushed to it. -/
structure MixerHistory where
  session : MixerSession
  before : ℕ → List RawAudioFrame := fun _ => []
  sessions : ℕ := 0

inductive HistoryAction where
  | start
  | within (a : MixerAction)

namespace MixerHistory

/-- A thread that is joinable is not started again. -/
def enabled (s : MixerHistory) : HistoryAction → Prop
  | .start => s.session.pc = .joined
  | .within a => s.session.enabled a

instance decidableEnabled (s : MixerHistory) (a : HistoryAction) : Decidable (s.enabled a) := by
  cases a <;> unfold enabled <;> infer_instance

def next (s : MixerHistory) : HistoryAction → MixerHistory
  | .start =>
    -- the new thread begins with what the last session has left in the queues
    { session :=
        { mixer := s.session.mixer
          streams := s.session.streams
          pushed := s.session.streams.queue }
      before := fun deviceId => s.before deviceId ++ s.session.consumed deviceId
      sessions := s.sessions + 1 }
  | .within a => { s with session := s.session.next a }

/-- All that was ever pushed to a stream. -/
def pushed (s : MixerHistory) (deviceId : ℕ) : List RawAudioFrame :=
  s.before deviceId ++ s.session.pushed deviceId

/-- All that was ever taken from a stream. -/
def taken (s : MixerHistory) (deviceId : ℕ) : List RawAudioFrame :=
  s.before deviceId ++ s.session.consumed deviceId

end MixerHistory

/-- A mixer that has not been started, with empty queues for any streams. -/
def mixerHistory : System MixerHistory HistoryAction :=
  System.ofCommands
    (fun s => ∃ mixer streams, (∀ deviceId, streams.queue deviceId = []) ∧
      s = { session := { mixer := mixer, streams := streams, pc := .joined } })
    MixerHistory.enabled MixerHistory.next

/-! ## Offsets -/

section Sessions

variable {s : MixerHistory}

theorem ids_next (s : MixerSession) (a : MixerAction) :
    (s.next a).streams.ids = s.streams.ids := by
  cases a with
  | push deviceId frame enqueued =>
    -- a push that fails, or one that adds a frame to a stream
    rcases push_cases s deviceId frame enqueued with hsame | ⟨-, hgrows, -⟩
    · exact congrArg (fun s => s.streams.ids) hsame
    · exact hgrows.ids
  | mixerStep out =>
    cases hpc : s.pc with
    | dequeuing rest =>
      cases rest with
      | nil => exact (mixes_mixerStep hpc out).1.ids
      | cons deviceId rest => exact (dequeues_mixerStep hpc out).1.ids
    | peeking rest =>
      cases rest <;> simp only [MixerSession.next, MixerSession.mixerStep, hpc]
    | waitHead =>
      simp only [MixerSession.next, MixerSession.mixerStep, hpc]
      split <;> rfl
    -- the other places of the loop do not touch the streams
    | _ => simp only [MixerSession.next, MixerSession.mixerStep, hpc]
  | requestStop | join => rfl

/-- A session leaves two streams at most one frame apart. -/
theorem LockInv.consumed_le {s : MixerSession} (hI : LockInv s) {d₁ d₂ : ℕ}
    (h₁ : d₁ ∈ s.streams.ids) (h₂ : d₂ ∈ s.streams.ids) :
    (s.consumed d₁).length ≤ (s.consumed d₂).length + 1 := by
  obtain ⟨n, hstep⟩ := hI.place.inStep
  have hfirst := hstep.count d₁ h₁
  have hsecond := hstep.count d₂ h₂
  omega

/-- Each start but the first one may have moved the offsets of two streams apart by one more
    frame. -/
structure HistoryInv (s : MixerHistory) : Prop where
  session : LockInv s.session
  skew : ∀ d₁ ∈ s.session.streams.ids, ∀ d₂ ∈ s.session.streams.ids,
    (s.before d₁).length ≤ (s.before d₂).length + (s.sessions - 1)
  unstarted : s.sessions = 0 → s.session.pc = .joined ∧ ∀ d, s.session.consumed d = []

theorem HistoryInv.taken_le (hI : HistoryInv s) {d₁ d₂ : ℕ} (h₁ : d₁ ∈ s.session.streams.ids)
    (h₂ : d₂ ∈ s.session.streams.ids) :
    (s.taken d₁).length ≤ (s.taken d₂).length + s.sessions := by
  have hskew := hI.skew d₁ h₁ d₂ h₂
  have hsession := hI.session.consumed_le h₁ h₂
  unfold MixerHistory.taken
  rw [List.length_append, List.length_append]
  -- before the first start nothing has been taken
  rcases Nat.eq_zero_or_pos s.sessions with hzero | hpos
  · rw [(hI.unstarted hzero).2, (hI.unstarted hzero).2]
    omega
  · omega

theorem historyInv_start (hI : HistoryInv s) : HistoryInv (s.next .start) := by
  -- a new session has no round yet, and what is pushed for it is what is queued
  refine ⟨⟨Or.inl ⟨fun n buffer hn => by simp [MixerHistory.next] at hn, fun _ _ => rfl⟩,
    fun _ _ => rfl⟩, fun d₁ h₁ d₂ h₂ => ?_, nofun⟩
  exact hI.taken_le h₁ h₂

/-- **Step**: within a session the offsets stay. -/
theorem historyInv_next {a : HistoryAction} (hI : HistoryInv s) (hen : s.enabled a) :
    HistoryInv (s.next a) := by
  cases a with
  | start => exact historyInv_start hI
  | within a =>
    refine ⟨lockInv_next hI.session hen, fun d₁ h₁ d₂ h₂ => ?_, fun hzero => ?_⟩
    · -- only a start moves the offsets
      have hids := ids_next s.session a
      exact hI.skew d₁ (hids ▸ h₁) d₂ (hids ▸ h₂)
    · -- before the first start there is no mixer thread, and a push takes nothing
      obtain ⟨hpc, hconsumed⟩ := hI.unstarted hzero
      cases a with
      | push deviceId frame enqueued =>
        rcases push_cases s.session deviceId frame enqueued with hsame | ⟨hpc', hgrows, -⟩
        · show (s.session.push deviceId frame enqueued).pc = _ ∧ _
          rw [hsame]
          exact ⟨hpc, fun d => (congrArg (fun s => s.consumed d) hsame).trans (hconsumed d)⟩
        · exact ⟨hpc'.trans hpc, fun d => (congrFun hgrows.consumed d).trans (hconsumed d)⟩
      | mixerStep => exact absurd hpc hen.2
      | requestStop => exact ⟨hpc, hconsumed⟩
      | join => exact ⟨rfl, hconsumed⟩

/-- **Run**: the offsets of every session. -/
theorem historyInv_of_reach (h : Reachable mixerHistory s) : HistoryInv s := by
  apply h.invariant_ofCommands
  · rintro s ⟨mixer, streams, hempty, rfl⟩
    refine ⟨⟨Or.inl ⟨fun n buffer hn => by simp at hn, fun _ _ => rfl⟩, fun d _ => ?_⟩,
      fun _ _ _ _ => Nat.le_refl _, fun _ => ⟨rfl, fun _ => rfl⟩⟩
    exact (hempty d).symm
  · exact fun s a hI _ hen => historyInv_next hI hen

/-- **The frames of a round.** However often the mixer is stopped and started again, the buffer
    of round `n` of a session is the mix of one frame of each stream, namely the one with number
    `n` behind those that the sessions before have taken from this stream; but for one last round
    after a stop. Nothing that was pushed is lost or taken twice. The numbers at which two streams
    stand are at most as far apart as there were sessions before. -/
theorem mixer_sessions (h : Reachable mixerHistory s) :
    (∀ n buffer, s.session.mixed[n]? = some buffer →
      (∃ frame : ℕ → RawAudioFrame,
        (∀ d ∈ s.session.streams.ids,
          (s.pushed d)[(s.before d).length + n]? = some (frame d)) ∧
        buffer = s.session.mixer.mixRound s.session.streams.ids fun d => some (frame d).samples) ∨
      (n + 1 = s.session.mixed.length ∧ s.session.stopRequested = true)) ∧
    (∀ d ∈ s.session.streams.ids, s.pushed d = s.taken d ++ s.session.streams.queue d) ∧
    ∀ d₁ ∈ s.session.streams.ids, ∀ d₂ ∈ s.session.streams.ids,
      (s.before d₁).length ≤ (s.before d₂).length + (s.sessions - 1) := by
  have hI := historyInv_of_reach h
  obtain ⟨n, hstep⟩ := hI.session.place.inStep
  refine ⟨fun n buffer hn => ?_, fun d hd => ?_, hI.skew⟩
  · -- the round of the session, counted from what the sessions before have taken
    refine (hstep.rounds n buffer hn).imp_left ?_
    rintro ⟨frame, hframe, rfl⟩
    refine ⟨frame, fun d hd => ?_, rfl⟩
    rw [MixerHistory.pushed, List.getElem?_append_right (Nat.le_add_right _ _),
      Nat.add_sub_cancel_left]
    exact hframe d hd
  · rw [MixerHistory.pushed, MixerHistory.taken, hI.session.split d hd, List.append_assoc]

end Sessions

/-! ## The bound is reached -/

/-- A session that stops while stream 4 has a frame and stream 9 has none. -/
def unevenSession (frame : RawAudioFrame) : List HistoryAction :=
  [.start, .within (.push 4 frame true), .within (.mixerStep .again), .within .requestStop] ++
    List.replicate 6 (.within (.mixerStep .again)) ++ [.within .join]

/-- Two streams of a mixer that has stopped, with nothing in their queues. -/
structure Emptied (s : MixerHistory) : Prop where
  pc : s.session.pc = .joined
  ids : s.session.streams.ids = [4, 9]
  queue : ∀ d ∈ [4, 9], s.session.streams.queue d = []

theorem run_unevenSession {s : MixerHistory} (hs : Emptied s) (frame : RawAudioFrame) :
    ∃ s', run mixerHistory anyStep s (unevenSession frame) = some s' ∧ Emptied s' ∧
      s'.sessions = s.sessions + 1 ∧ (s'.taken 4).length = (s.taken 4).length + 1 ∧
      s'.taken 9 = s.taken 9 := by
  obtain ⟨⟨mixer, ⟨ids, queue, nodup⟩, pc, current, stop, pushed, consumed, mixed⟩, before,
    sessions⟩ := s
  obtain ⟨hpc, hids, hqueue⟩ := hs
  dsimp only at hpc hids hqueue
  have h₄ : queue 4 = [] := hqueue 4 (by simp)
  have h₉ : queue 9 = [] := hqueue 9 (by simp)
  subst hpc hids
  -- stream 4 gives its frame to the round after the stop, and stream 9 has none
  refine ⟨_, rfl, ⟨rfl, rfl, ?_⟩, rfl, ?_, ?_⟩
  all_goals
    simp [MixerHistory.next, MixerHistory.taken, MixerSession.next, MixerSession.push,
      AudioStreams.pushAudio, MixerSession.mixerStep, AudioStreams.tryDequeue, h₄, h₉,
      Nat.add_assoc]

/-- A start after a session that has taken equally many frames of two streams. -/
def evenStart (d₁ d₂ : ℕ) (s : MixerHistory) : HistoryAction → Prop
  | .start => (s.session.consumed d₁).length = (s.session.consumed d₂).length
  | .within _ => True

instance decidableEvenStart (d₁ d₂ : ℕ) (s : MixerHistory) (a : HistoryAction) :
    Decidable (evenStart d₁ d₂ s a) := by
  cases a <;> unfold evenStart <;> infer_instance

/-- No start puts two streams back in step: only a session that takes a frame more of one than
    of the other changes their distance. -/
theorem before_of_run {d₁ d₂ k : ℕ} {s s' : MixerHistory} (later : List HistoryAction)
    (hskew : (s.before d₁).length = (s.before d₂).length + k)
    (hrun : run mixerHistory (evenStart d₁ d₂) s later = some s') :
    (s'.before d₁).length = (s'.before d₂).length + k := by
  refine invariant_of_run (fun s => (s.before d₁).length = (s.before d₂).length + k) ?_ hskew
    later hrun
  intro s a s' hskew heven hs
  obtain ⟨-, rfl⟩ := ofCommands_step_iff.mp hs
  cases a with
  | within a => exact hskew
  -- what the session has taken is counted, equally much of both
  | start =>
    have htaken : (s.session.consumed d₁).length = (s.session.consumed d₂).length := heven
    simp only [MixerHistory.next, List.length_append]
    omega

/-- **The bound is reached**: two streams can be as far apart as there were sessions before,
    with nothing left in their queues. They stay so far apart through all later sessions that
    do not come apart in turn. -/
theorem mixer_skew_reached (k : ℕ) :
    ∃ s, Reachable mixerHistory s ∧ s.sessions = k + 1 ∧ s.session.streams.ids = [4, 9] ∧
      (∀ d ∈ s.session.streams.ids, s.session.streams.queue d = [] ∧ s.pushed d = s.taken d) ∧
      (s.before 4).length = (s.before 9).length + k ∧
      ∀ later s', run mixerHistory (evenStart 4 9) s later = some s' →
        (s'.before 4).length = (s'.before 9).length + k := by
  let frame : RawAudioFrame := .ofSource [] 0 0 (Nat.zero_le _)
  have huneven (k : ℕ) : ∃ s, Reachable mixerHistory s ∧ Emptied s ∧ s.sessions = k ∧
      (s.taken 4).length = (s.taken 9).length + k := by
    -- the induction is on the number of uneven sessions
    induction k with
    | zero =>
      let streams : AudioStreams := { ids := [4, 9], nodup := by decide }
      exact ⟨_, .init ⟨{}, streams, fun _ => rfl, rfl⟩, ⟨rfl, rfl, fun _ _ => rfl⟩, rfl, rfl⟩
    | succ k ih =>
      obtain ⟨s, hreach, hempty, hsessions, htaken⟩ := ih
      obtain ⟨s', hrun, hempty', hsessions', h₄, h₉⟩ := run_unevenSession hempty frame
      refine ⟨s', hreach.of_run _ hrun, hempty', by rw [hsessions', hsessions], ?_⟩
      rw [h₄, h₉, htaken, Nat.add_assoc]
  obtain ⟨s, hreach, hempty, hsessions, htaken⟩ := huneven k
  -- one more start, which takes nothing
  have hstart : run mixerHistory anyStep s [.start] = some (s.next .start) := by
    simp [run, anyStep, mixerHistory, System.ofCommands, MixerHistory.enabled, hempty.pc]
  refine ⟨_, hreach.of_run _ hstart, congrArg (· + 1) hsessions, hempty.ids, fun d hd => ?_, htaken,
    fun later s' hrun => before_of_run later htaken hrun⟩
  -- with empty queues, all that was pushed has been taken
  have hqueue : s.session.streams.queue d = [] := hempty.queue d (hempty.ids ▸ hd)
  refine ⟨hqueue, ?_⟩
  simp [MixerHistory.pushed, MixerHistory.taken, MixerHistory.next, hqueue]

/-- After an uneven session, the second frame of stream 4 is mixed with the first one of
    stream 9. -/
def mixedApart : List HistoryAction :=
  let frame (sample : Int16) : RawAudioFrame := .ofSource [sample] 1 0 (Nat.le_of_ble_eq_true rfl)
  unevenSession (frame 10) ++
    [.start, .within (.push 4 (frame 30) true), .within (.push 9 (frame 20) true)] ++
    List.replicate 8 (.within (.mixerStep .again))

theorem mixer_sessions_apart :
    ∃ s, run mixerHistory anyStep { session := { twoStreams with pc := .joined } } mixedApart =
        some s ∧
      s.session.mixed = [[50]] ∧ s.sessions = 2 ∧ (s.before 4).length = 1 ∧ s.before 9 = [] ∧
      ∀ d ∈ s.session.streams.ids, s.pushed d = s.taken d ++ s.session.streams.queue d := by
  refine ⟨_, rfl, rfl, rfl, rfl, rfl, ?_⟩
  have hinit : Reachable mixerHistory { session := { twoStreams with pc := .joined } } :=
    .init ⟨_, _, fun _ => rfl, rfl⟩
  exact (mixer_sessions (hinit.of_run mixedApart rfl)).2.1

end AVCapture.Encoding
