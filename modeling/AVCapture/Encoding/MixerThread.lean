import AVCapture.Encoding.AudioStreams
import AVCapture.Lib.Transition

/-!
# The Mixer Thread

One session of the mixer (`core/audio/AudioMixer.cpp`), from `start` to `stop`, for a fixed
set of streams:

- the **mixer thread**: `mixer_loop` with `wait_for_all_stream`, one access to a queue or to
  the stop token a step
- the **audio callbacks**, which push frames to the streams at any time
- the **control thread**, which requests the stop at any time, and joins

`wait_for_all_stream` only peeks. It returns when every queue holds a frame, or when a stop
is requested, and the frames are taken in a second pass over the streams.

## Main results

- `lockInv_of_reach`: where the counts of the streams are in every state of every session
- `mixer_lockStep`: round `n` is made of the frames pushed as number `n`
-/

namespace AVCapture.Encoding

open AVCapture.Utils Transition

/-! ## The machine -/

/-- Where the mixer thread is. `peeking` and `dequeuing` hold the streams that are still to
    come in the two passes. -/
inductive MixerPc where
  | loopHead
  | waitHead
  | peeking (rest : List ℕ)
  | waiting
  | dequeuing (rest : List ℕ)
  | resting
  | finished
  | joined
  deriving DecidableEq, Repr

/-- `current` is `current_frames`. Recorded besides: the frames pushed to each stream and
    taken from it, and the mixed buffers handed to the encoder. -/
structure MixerSession where
  mixer : AudioMixer
  streams : AudioStreams
  pc : MixerPc := .loopHead
  current : ℕ → Option RawAudioFrame := fun _ => none
  stopRequested : Bool := false
  pushed : ℕ → List RawAudioFrame := fun _ => []
  consumed : ℕ → List RawAudioFrame := fun _ => []
  mixed : List (List Int) := []

inductive MixerAction where
  | push (deviceId : ℕ) (frame : RawAudioFrame) (enqueued : Bool)
  | mixerStep (out : AudioEncodeOutcome)
  | requestStop
  | join

namespace MixerSession

/-- The mixed buffer of the current frames. -/
def mixedBuffer (s : MixerSession) : List Int :=
  s.mixer.mixRound s.streams.ids fun deviceId => (s.current deviceId).map RawAudioFrame.samples

/-- The next step of the mixer thread; `out` is what FFmpeg does if it encodes. -/
def mixerStep (s : MixerSession) (out : AudioEncodeOutcome) : MixerSession :=
  match s.pc with
  -- `while (!stop_token.stop_requested())` of `mixer_loop`
  | .loopHead => { s with pc := if s.stopRequested then .finished else .waitHead }
  -- and of `wait_for_all_stream`, which returns to the second pass for a stop as well
  | .waitHead =>
    if s.stopRequested then
      { s with pc := .dequeuing s.streams.ids, current := fun _ => none }
    else { s with pc := .peeking s.streams.ids }
  -- all streams are ready
  | .peeking [] => { s with pc := .dequeuing s.streams.ids, current := fun _ => none }
  | .peeking (deviceId :: rest) =>
    { s with pc := if s.streams.ready deviceId then .peeking rest else .waiting }
  | .waiting => { s with pc := .waitHead }
  -- `try_dequeue`; a stream without a frame has no entry in `current_frames`
  | .dequeuing (deviceId :: rest) =>
    let (frame, streams) := s.streams.tryDequeue deviceId
    { s with
      pc := .dequeuing rest
      streams := streams
      current := Function.update s.current deviceId frame
      consumed := Function.update s.consumed deviceId (s.consumed deviceId ++ frame.toList) }
  -- the frames are mixed in the order of the streams, and the buffer goes to the encoder
  | .dequeuing [] =>
    { s with
      pc := .resting
      mixer := s.mixer.round
        (s.streams.ids.filterMap fun deviceId =>
          ((s.current deviceId).map RawAudioFrame.samples).map pcm) out
      mixed := s.mixed ++ [s.mixedBuffer] }
  | .resting => { s with pc := .loopHead }
  | .finished | .joined => s

/-- `push_audio`; the frame counts as pushed if the call succeeds. -/
def push (s : MixerSession) (deviceId : ℕ) (frame : RawAudioFrame) (enqueued : Bool) :
    MixerSession :=
  match s.streams.pushAudio deviceId frame enqueued with
  | (.ok (), streams) =>
    { s with
      streams := streams
      pushed := Function.update s.pushed deviceId (s.pushed deviceId ++ [frame]) }
  | (.error _, streams) => { s with streams := streams }

def enabled (s : MixerSession) : MixerAction → Prop
  | .push .. | .requestStop => True
  | .mixerStep _ => s.pc ≠ .finished ∧ s.pc ≠ .joined
  -- the `std::jthread` is joined behind the request
  | .join => s.stopRequested = true ∧ s.pc = .finished

instance decidableEnabled (s : MixerSession) (a : MixerAction) : Decidable (s.enabled a) := by
  cases a <;> unfold enabled <;> infer_instance

def next (s : MixerSession) : MixerAction → MixerSession
  | .push deviceId frame enqueued => s.push deviceId frame enqueued
  | .mixerStep out => s.mixerStep out
  | .requestStop => { s with stopRequested := true }
  | .join =>
    { s with
      pc := .joined
      mixer := { s.mixer with audioBuffer := s.mixer.audioBuffer.clear } }

end MixerSession

/-- A session starts with empty queues, for any streams. -/
def mixerSystem : System MixerSession MixerAction :=
  System.ofCommands
    (fun s => ∃ mixer streams, (∀ deviceId, streams.queue deviceId = []) ∧
      s = { mixer := mixer, streams := streams })
    MixerSession.enabled MixerSession.next

/-! ## Rounds -/

namespace MixerSession

/-- Round `n` is full: its buffer is the mix of the frames pushed as number `n`, one of each
    stream. -/
def FullRound (s : MixerSession) (n : ℕ) (buffer : List Int) : Prop :=
  ∃ frame : ℕ → RawAudioFrame,
    (∀ deviceId ∈ s.streams.ids, (s.pushed deviceId)[n]? = some (frame deviceId)) ∧
    buffer = s.mixer.mixRound s.streams.ids fun deviceId => some (frame deviceId).samples

/-- All rounds so far are full, and every stream has given one frame to each. -/
structure Even (s : MixerSession) : Prop where
  full : ∀ n buffer, s.mixed[n]? = some buffer → s.FullRound n buffer
  count : ∀ deviceId ∈ s.streams.ids, (s.consumed deviceId).length = s.mixed.length

/-- The last round came after the stop was requested, and may lack a frame of some streams. -/
structure Final (s : MixerSession) : Prop where
  stop : s.stopRequested = true
  full : ∀ n buffer, s.mixed[n]? = some buffer → n + 1 ≠ s.mixed.length →
    s.FullRound n buffer
  count : ∀ deviceId ∈ s.streams.ids, (s.consumed deviceId).length = s.mixed.length ∨
    (s.consumed deviceId).length + 1 = s.mixed.length

/-- The second pass has been at a stream: it has given its next frame, or it was empty, which
    only a stop can explain. -/
def Taken (s : MixerSession) (deviceId : ℕ) : Prop :=
  ((s.consumed deviceId).length = s.mixed.length + 1 ∧
      s.current deviceId = (s.consumed deviceId)[s.mixed.length]?) ∨
    (s.stopRequested = true ∧ (s.consumed deviceId).length = s.mixed.length ∧
      s.current deviceId = none)

/-- The second pass, with the streams `rest` still to come. -/
structure Dequeuing (s : MixerSession) (rest : List ℕ) : Prop where
  full : ∀ n buffer, s.mixed[n]? = some buffer → s.FullRound n buffer
  suffix : rest <:+ s.streams.ids
  count : ∀ deviceId ∈ rest, (s.consumed deviceId).length = s.mixed.length
  taken : ∀ deviceId ∈ s.streams.ids, deviceId ∉ rest → s.Taken deviceId
  ready : s.stopRequested = true ∨ ∀ deviceId ∈ rest, s.streams.queue deviceId ≠ []

/-- What holds at each place of the loop. -/
def At (s : MixerSession) : MixerPc → Prop
  | .loopHead | .resting | .finished | .joined => s.Even ∨ s.Final
  | .waitHead | .waiting => s.Even
  | .peeking rest =>
    s.Even ∧ rest <:+ s.streams.ids ∧
      ∀ deviceId ∈ s.streams.ids, deviceId ∉ rest → s.streams.queue deviceId ≠ []
  | .dequeuing rest => s.Dequeuing rest

end MixerSession

/-- The counts at the place where the mixer thread is; and what has been pushed to a stream
    has been taken from it or is queued, in that order. -/
structure LockInv (s : MixerSession) : Prop where
  place : s.At s.pc
  split : ∀ deviceId ∈ s.streams.ids,
    s.pushed deviceId = s.consumed deviceId ++ s.streams.queue deviceId

/-! ## The callbacks -/

namespace MixerSession

variable {s s' : MixerSession}

theorem mixRound_congr {m m' : AudioMixer} (h : m'.mixedSize = m.mixedSize) (ids : List ℕ)
    (current : ℕ → Option (List Int16)) : m'.mixRound ids current = m.mixRound ids current := by
  unfold AudioMixer.mixRound AudioMixer.mix
  rw [h]

/-- What a push and a stop request leave: they add to a stream, and they set the flag. -/
structure Grows (s s' : MixerSession) : Prop where
  ids : s'.streams.ids = s.streams.ids
  size : s'.mixer.mixedSize = s.mixer.mixedSize
  mixed : s'.mixed = s.mixed
  consumed : s'.consumed = s.consumed
  current : s'.current = s.current
  stop : s.stopRequested = true → s'.stopRequested = true
  queue : ∀ deviceId, s.streams.queue deviceId ≠ [] → s'.streams.queue deviceId ≠ []
  pushed : ∀ deviceId, s.pushed deviceId <+: s'.pushed deviceId

theorem FullRound.grow {n : ℕ} {buffer : List Int} (h : s.FullRound n buffer)
    (hids : s'.streams.ids = s.streams.ids) (hsize : s'.mixer.mixedSize = s.mixer.mixedSize)
    (hpushed : ∀ deviceId, s.pushed deviceId <+: s'.pushed deviceId) :
    s'.FullRound n buffer := by
  obtain ⟨frame, hframe, rfl⟩ := h
  refine ⟨frame, ?_, ?_⟩
  · -- the frames that made the round are a beginning of what has been pushed since
    intro deviceId hid
    rw [hids] at hid
    obtain ⟨later, hlater⟩ := hpushed deviceId
    have hget := hframe deviceId hid
    rw [← hlater, List.getElem?_append_left (List.getElem?_eq_some_iff.mp hget).1]
    exact hget
  · rw [mixRound_congr hsize, hids]

theorem Even.grow (h : s.Even) (hg : s.Grows s') : s'.Even := by
  refine ⟨fun n buffer hn => ?_, fun deviceId hid => ?_⟩
  · rw [hg.mixed] at hn
    exact (h.full n buffer hn).grow hg.ids hg.size hg.pushed
  · rw [hg.ids] at hid
    rw [hg.consumed, hg.mixed]
    exact h.count deviceId hid

theorem Final.grow (h : s.Final) (hg : s.Grows s') : s'.Final := by
  refine ⟨hg.stop h.stop, fun n buffer hn hlast => ?_, fun deviceId hid => ?_⟩
  · rw [hg.mixed] at hn hlast
    exact (h.full n buffer hn hlast).grow hg.ids hg.size hg.pushed
  · rw [hg.ids] at hid
    rw [hg.consumed, hg.mixed]
    exact h.count deviceId hid

theorem Taken.grow {deviceId : ℕ} (h : s.Taken deviceId) (hg : s.Grows s') :
    s'.Taken deviceId := by
  unfold Taken at h ⊢
  rw [hg.consumed, hg.mixed, hg.current]
  exact h.imp_right fun hstop => ⟨hg.stop hstop.1, hstop.2⟩

theorem Dequeuing.grow {rest : List ℕ} (h : s.Dequeuing rest) (hg : s.Grows s') :
    s'.Dequeuing rest := by
  refine ⟨fun n buffer hn => ?_, hg.ids ▸ h.suffix, fun deviceId hid => ?_,
    fun deviceId hid hrest => ?_, ?_⟩
  · rw [hg.mixed] at hn
    exact (h.full n buffer hn).grow hg.ids hg.size hg.pushed
  · rw [hg.consumed, hg.mixed]
    exact h.count deviceId hid
  · rw [hg.ids] at hid
    exact (h.taken deviceId hid hrest).grow hg
  · exact h.ready.imp hg.stop fun hready deviceId hid => hg.queue _ (hready deviceId hid)

theorem At.grow {pc : MixerPc} (h : s.At pc) (hg : s.Grows s') : s'.At pc := by
  cases pc with
  | loopHead => exact h.imp (·.grow hg) (·.grow hg)
  | resting => exact h.imp (·.grow hg) (·.grow hg)
  | finished => exact h.imp (·.grow hg) (·.grow hg)
  | joined => exact h.imp (·.grow hg) (·.grow hg)
  | waitHead => exact Even.grow h hg
  | waiting => exact Even.grow h hg
  | peeking rest =>
    refine ⟨h.1.grow hg, hg.ids ▸ h.2.1, fun deviceId hid hrest => ?_⟩
    rw [hg.ids] at hid
    exact hg.queue _ (h.2.2 deviceId hid hrest)
  | dequeuing rest => exact Dequeuing.grow h hg

end MixerSession

/-- A push that fails changes nothing, and one that succeeds adds to a stream. -/
theorem push_cases (s : MixerSession) (deviceId : ℕ) (frame : RawAudioFrame)
    (enqueued : Bool) :
    s.push deviceId frame enqueued = s ∨
      (s.push deviceId frame enqueued).pc = s.pc ∧
      s.Grows (s.push deviceId frame enqueued) ∧
      (s.push deviceId frame enqueued).pushed =
        Function.update s.pushed deviceId (s.pushed deviceId ++ [frame]) ∧
      (s.push deviceId frame enqueued).streams.queue =
        Function.update s.streams.queue deviceId (s.streams.queue deviceId ++ [frame]) := by
  unfold MixerSession.push AudioStreams.pushAudio
  by_cases hreg : deviceId ∈ s.streams.ids
  · cases enqueued with
    -- the queue has no memory for the frame, and nothing changes
    | false => exact Or.inl (by simp [hreg])
    | true =>
      refine Or.inr ?_
      simp only [hreg, not_true_eq_false, Bool.not_true, Bool.false_eq_true, if_false]
      refine ⟨trivial, ⟨rfl, rfl, rfl, rfl, rfl, fun h => h, fun d hd => ?_, fun d => ?_⟩, trivial,
        trivial⟩
      · by_cases hdev : d = deviceId
        · subst hdev
          simp
        · simpa [hdev] using hd
      · by_cases hdev : d = deviceId
        · subst hdev
          simp
        · simp [hdev]
  · -- no stream of that number
    exact Or.inl (by simp [hreg])

theorem lockInv_push {s : MixerSession} (hI : LockInv s) (deviceId : ℕ)
    (frame : RawAudioFrame) (enqueued : Bool) :
    LockInv (s.push deviceId frame enqueued) := by
  rcases push_cases s deviceId frame enqueued with hsame | ⟨hpc, hgrows, hpushed, hqueue⟩
  · rw [hsame]
    exact hI
  · refine ⟨?_, fun d hd => ?_⟩
    · rw [hpc]
      exact hI.place.grow hgrows
    · rw [hgrows.ids] at hd
      rw [hpushed, hqueue, hgrows.consumed]
      -- the stream of the frame gets one more at its end
      by_cases hdev : d = deviceId
      · subst hdev
        rw [Function.update_self, Function.update_self, hI.split d hd, List.append_assoc]
      · rw [Function.update_of_ne hdev, Function.update_of_ne hdev]
        exact hI.split d hd

/-! ## The mixer thread -/

theorem mixedSize_round (m : AudioMixer) (frames : List (List Int)) (out : AudioEncodeOutcome) :
    (m.round frames out).mixedSize = m.mixedSize := by
  unfold AudioMixer.round
  simp only
  split <;> rfl

/-- What one `try_dequeue` of the second pass leaves: it moves the head of a queue. -/
structure MixerSession.Dequeues (s s' : MixerSession) (deviceId : ℕ) : Prop where
  streams : s'.streams = { s.streams with
    queue := Function.update s.streams.queue deviceId (s.streams.queue deviceId).tail }
  mixer : s'.mixer = s.mixer
  mixed : s'.mixed = s.mixed
  pushed : s'.pushed = s.pushed
  stop : s'.stopRequested = s.stopRequested
  current : s'.current =
    Function.update s.current deviceId (s.streams.queue deviceId).head?
  consumed : s'.consumed = Function.update s.consumed deviceId
    (s.consumed deviceId ++ (s.streams.queue deviceId).head?.toList)

theorem dequeues_mixerStep {s : MixerSession} {deviceId : ℕ} {rest : List ℕ}
    (hpc : s.pc = .dequeuing (deviceId :: rest)) (out : AudioEncodeOutcome) :
    s.Dequeues (s.mixerStep out) deviceId ∧ (s.mixerStep out).pc = .dequeuing rest := by
  unfold MixerSession.mixerStep AudioStreams.tryDequeue
  rw [hpc]
  exact ⟨⟨rfl, rfl, rfl, rfl, rfl, rfl, rfl⟩, rfl⟩

namespace MixerSession.Dequeues

variable {s s' : MixerSession} {deviceId d : ℕ}

theorem ids (h : s.Dequeues s' deviceId) : s'.streams.ids = s.streams.ids := by
  rw [h.streams]

theorem queue_of_ne (h : s.Dequeues s' deviceId) (hne : d ≠ deviceId) :
    s'.streams.queue d = s.streams.queue d := by
  rw [h.streams]
  exact Function.update_of_ne hne _ _

theorem consumed_of_ne (h : s.Dequeues s' deviceId) (hne : d ≠ deviceId) :
    s'.consumed d = s.consumed d := by
  rw [h.consumed]
  exact Function.update_of_ne hne _ _

theorem taken_of_ne (h : s.Dequeues s' deviceId) (hne : d ≠ deviceId) (htaken : s.Taken d) :
    s'.Taken d := by
  unfold MixerSession.Taken
  rw [h.consumed_of_ne hne, h.mixed, h.stop, h.current, Function.update_of_ne hne]
  exact htaken

/-- The stream has now given its frame of this round, or it was empty. -/
theorem taken_self (h : s.Dequeues s' deviceId)
    (hlen : (s.consumed deviceId).length = s.mixed.length)
    (hready : s.stopRequested = true ∨ s.streams.queue deviceId ≠ []) : s'.Taken deviceId := by
  unfold MixerSession.Taken
  rw [h.consumed, h.mixed, h.stop, h.current, Function.update_self, Function.update_self]
  cases hqueue : s.streams.queue deviceId with
  | nil =>
    -- an empty queue in the second pass: the wait ended for the stop
    have hstop : s.stopRequested = true := hready.resolve_right fun hne => hne hqueue
    exact Or.inr ⟨hstop, by simpa using hlen, rfl⟩
  | cons frame frames =>
    refine Or.inl ⟨by simp [hlen], ?_⟩
    rw [← hlen]
    simp

/-- The frame has moved from the queue to the frames taken. -/
theorem split (h : s.Dequeues s' deviceId)
    (hsplit : s.pushed d = s.consumed d ++ s.streams.queue d) :
    s'.pushed d = s'.consumed d ++ s'.streams.queue d := by
  rw [h.pushed, hsplit]
  rcases eq_or_ne d deviceId with rfl | hne
  · rw [h.consumed, h.streams]
    simp only [Function.update_self]
    cases s.streams.queue d with
    | nil => simp
    | cons frame frames => simp
  · rw [h.consumed_of_ne hne, h.queue_of_ne hne]

end MixerSession.Dequeues

/-- **One stream of the second pass.** -/
theorem dequeuing_next {s : MixerSession} {deviceId : ℕ} {rest : List ℕ}
    (hpc : s.pc = .dequeuing (deviceId :: rest)) (hI : LockInv s) (out : AudioEncodeOutcome) :
    LockInv (s.mixerStep out) := by
  have hplace : s.Dequeuing (deviceId :: rest) := by
    have h := hI.place
    rw [hpc] at h
    exact h
  obtain ⟨hfull, hsuffix, hcount, htaken, hready⟩ := hplace
  obtain ⟨h, hpc'⟩ := dequeues_mixerStep hpc out
  have hnodup : (deviceId :: rest).Nodup := hsuffix.sublist.nodup s.streams.nodup
  have hne (d : ℕ) (hd : d ∈ rest) : d ≠ deviceId :=
    fun heq => (List.nodup_cons.mp hnodup).1 (heq ▸ hd)
  refine ⟨?_, fun d hd => h.split (hI.split d (h.ids ▸ hd))⟩
  rw [hpc']
  refine ⟨fun n buffer hn => ?_, ?_, fun d hd => ?_, fun d hd hrest => ?_, ?_⟩
  · rw [h.mixed] at hn
    exact (hfull n buffer hn).grow h.ids (by rw [h.mixer]) fun _ => h.pushed ▸ List.prefix_refl _
  · rw [h.ids]
    exact (List.suffix_cons deviceId rest).trans hsuffix
  · rw [h.consumed_of_ne (hne d hd), h.mixed]
    exact hcount d (List.mem_cons_of_mem _ hd)
  · rw [h.ids] at hd
    -- the stream that has just been visited, and those visited before
    rcases eq_or_ne d deviceId with rfl | hother
    · exact h.taken_self (hcount d List.mem_cons_self)
        (hready.imp_right fun hqueues => hqueues d List.mem_cons_self)
    · have hseen : d ∉ deviceId :: rest :=
        fun hmem => (List.mem_cons.mp hmem).elim hother hrest
      exact h.taken_of_ne hother (htaken d hd hseen)
  · rw [h.stop]
    refine hready.imp_right fun hqueues d hd => ?_
    rw [h.queue_of_ne (hne d hd)]
    exact hqueues d (List.mem_cons_of_mem _ hd)

/-- A round in which every stream has given a frame. -/
theorem fullRound_of_taken {s : MixerSession}
    (htaken : ∀ deviceId ∈ s.streams.ids, s.Taken deviceId)
    (hall : ∀ deviceId ∈ s.streams.ids, (s.consumed deviceId).length = s.mixed.length + 1)
    (hsplit : ∀ deviceId ∈ s.streams.ids,
      s.pushed deviceId = s.consumed deviceId ++ s.streams.queue deviceId) :
    s.FullRound s.mixed.length s.mixedBuffer := by
  -- the frame that each stream has given is its frame of the number of this round
  have hframe (d : ℕ) (hd : d ∈ s.streams.ids) :
      ∃ frame, s.current d = some frame ∧ (s.pushed d)[s.mixed.length]? = some frame := by
    have hlt : s.mixed.length < (s.consumed d).length := by
      rw [hall d hd]
      exact Nat.lt_succ_self _
    have hcurrent : s.current d = (s.consumed d)[s.mixed.length]? := by
      rcases htaken d hd with h | h
      · exact h.2
      · have hcount := hall d hd
        have hshort := h.2.1
        omega
    refine ⟨(s.consumed d)[s.mixed.length], ?_, ?_⟩
    · rw [hcurrent, List.getElem?_eq_getElem hlt]
    · rw [hsplit d hd, List.getElem?_append_left hlt, List.getElem?_eq_getElem hlt]
  refine ⟨fun d => (s.current d).getD (.ofSource [] 0 0 (Nat.zero_le _)), fun d hd => ?_, ?_⟩
  · obtain ⟨frame, hcurrent, hpushed⟩ := hframe d hd
    simp only [hcurrent]
    exact hpushed
  · unfold MixerSession.mixedBuffer AudioMixer.mixRound
    -- so the buffer that was mixed is the mix of these frames
    refine congrArg s.mixer.mix (List.filterMap_congr fun d hd => ?_)
    obtain ⟨frame, hcurrent, _⟩ := hframe d hd
    simp only [hcurrent]
    rfl

/-- What the end of a round leaves: it adds the buffer it has mixed. -/
structure MixerSession.Mixes (s s' : MixerSession) : Prop where
  ids : s'.streams.ids = s.streams.ids
  queue : s'.streams.queue = s.streams.queue
  size : s'.mixer.mixedSize = s.mixer.mixedSize
  mixed : s'.mixed = s.mixed ++ [s.mixedBuffer]
  consumed : s'.consumed = s.consumed
  pushed : s'.pushed = s.pushed
  stop : s'.stopRequested = s.stopRequested

namespace MixerSession.Mixes

variable {s s' : MixerSession} {n : ℕ} {buffer : List Int}

theorem length (h : s.Mixes s') : s'.mixed.length = s.mixed.length + 1 := by
  rw [h.mixed, List.length_append, List.length_singleton]

theorem fullRound (h : s.Mixes s') (hround : s.FullRound n buffer) : s'.FullRound n buffer :=
  hround.grow h.ids h.size fun _ => h.pushed ▸ List.prefix_refl _

/-- The rounds before stay full. -/
theorem full_before (h : s.Mixes s')
    (hfull : ∀ n buffer, s.mixed[n]? = some buffer → s.FullRound n buffer)
    (hn : s'.mixed[n]? = some buffer) (hlt : n < s.mixed.length) : s'.FullRound n buffer := by
  rw [h.mixed, List.getElem?_append_left hlt] at hn
  exact h.fullRound (hfull n buffer hn)

/-- After a full round, every stream has given one frame to each round. -/
theorem even (h : s.Mixes s')
    (hfull : ∀ n buffer, s.mixed[n]? = some buffer → s.FullRound n buffer)
    (hlast : s.FullRound s.mixed.length s.mixedBuffer)
    (hall : ∀ d ∈ s.streams.ids, (s.consumed d).length = s.mixed.length + 1) : s'.Even := by
  refine ⟨fun n buffer hn => ?_, fun d hd => ?_⟩
  · -- a round before, or the one that has just ended
    rcases Nat.lt_or_ge n s.mixed.length with hlt | hge
    · exact h.full_before hfull hn hlt
    · -- the round that has just ended
      have hlt : n < s'.mixed.length := (List.getElem?_eq_some_iff.mp hn).1
      rw [h.length] at hlt
      obtain rfl : n = s.mixed.length := Nat.le_antisymm (Nat.le_of_lt_succ hlt) hge
      rw [h.mixed, List.getElem?_concat_length, Option.some.injEq] at hn
      subst hn
      exact h.fullRound hlast
  · rw [h.ids] at hd
    rw [h.consumed, h.length]
    exact hall d hd

/-- A round that lacked a frame came after the stop. -/
theorem final (h : s.Mixes s')
    (hfull : ∀ n buffer, s.mixed[n]? = some buffer → s.FullRound n buffer)
    (htaken : ∀ d ∈ s.streams.ids, s.Taken d)
    (hlacks : ¬ ∀ d ∈ s.streams.ids, (s.consumed d).length = s.mixed.length + 1) :
    s'.Final := by
  refine ⟨?_, fun n buffer hn hlast => ?_, fun d hd => ?_⟩
  · -- a stream that has given no frame was empty, and the stop had been requested
    obtain ⟨d, hd⟩ := not_forall.mp hlacks
    obtain ⟨hd, hne⟩ := Classical.not_imp.mp hd
    have hstop : s.stopRequested = true :=
      ((htaken d hd).resolve_left fun hgiven => hne hgiven.1).1
    rw [h.stop]
    exact hstop
  · have hlt : n < s'.mixed.length := (List.getElem?_eq_some_iff.mp hn).1
    rw [h.length] at hlt hlast
    exact h.full_before hfull hn (by omega)
  · rw [h.ids] at hd
    rw [h.consumed, h.length]
    -- the stream has given a frame of this round, or was empty
    rcases htaken d hd with hgiven | hempty
    · exact Or.inl hgiven.1
    · exact Or.inr (by rw [hempty.2.1])

end MixerSession.Mixes

theorem mixes_mixerStep {s : MixerSession} (hpc : s.pc = .dequeuing [])
    (out : AudioEncodeOutcome) :
    s.Mixes (s.mixerStep out) ∧ (s.mixerStep out).pc = .resting := by
  unfold MixerSession.mixerStep
  rw [hpc]
  exact ⟨⟨rfl, rfl, mixedSize_round _ _ _, rfl, rfl, rfl, rfl⟩, rfl⟩

/-- The buffer that the end of a round records is the one that it gives to the encoder. -/
theorem encoder_mixerStep {s : MixerSession} (hpc : s.pc = .dequeuing [])
    (out : AudioEncodeOutcome) :
    (s.mixerStep out).mixed = s.mixed ++ [s.mixedBuffer] ∧
      (s.mixerStep out).mixer.encoder =
        (s.mixer.encoder.encodeFrame s.mixedBuffer s.mixedBuffer.length s.mixer.pts out).2 := by
  refine ⟨(mixes_mixerStep hpc out).1.mixed, ?_⟩
  have hmixed : s.mixedBuffer = s.mixer.mix (s.streams.ids.filterMap fun deviceId =>
      ((s.current deviceId).map RawAudioFrame.samples).map pcm) := rfl
  unfold MixerSession.mixerStep AudioMixer.round
  simp only [hpc, ← hmixed]
  -- a packet, none yet, or an error: the encoder is the one that the call leaves
  split <;> rename_i hencode <;> rw [hencode]

/-- **The end of a round**: full, if every stream has given a frame. -/
theorem lockInv_mix {s : MixerSession} (hpc : s.pc = .dequeuing []) (hI : LockInv s)
    (out : AudioEncodeOutcome) : LockInv (s.mixerStep out) := by
  have hplace : s.Dequeuing [] := by
    have h := hI.place
    rw [hpc] at h
    exact h
  have htaken (d : ℕ) (hd : d ∈ s.streams.ids) : s.Taken d :=
    hplace.taken d hd List.not_mem_nil
  obtain ⟨hmixes, hpc'⟩ := mixes_mixerStep hpc out
  refine ⟨?_, fun d hd => ?_⟩
  · rw [hpc']
    -- the round lacks a frame of some stream or it does not
    by_cases hall : ∀ d ∈ s.streams.ids, (s.consumed d).length = s.mixed.length + 1
    · exact Or.inl (hmixes.even hplace.full (fullRound_of_taken htaken hall hI.split) hall)
    · exact Or.inr (hmixes.final hplace.full htaken hall)
  · rw [hmixes.ids] at hd
    rw [hmixes.pushed, hmixes.consumed, hmixes.queue]
    exact hI.split d hd

/-- The second pass begins: all streams are still to come. -/
theorem dequeuing_all {s : MixerSession} (h : s.Even) (current : ℕ → Option RawAudioFrame)
    (hready : s.stopRequested = true ∨
      ∀ deviceId ∈ s.streams.ids, s.streams.queue deviceId ≠ []) :
    MixerSession.Dequeuing { s with pc := .dequeuing s.streams.ids, current := current }
      s.streams.ids :=
  ⟨h.full, List.suffix_refl _, h.count, fun _ hd hrest => absurd hd hrest, hready⟩

/-- The first pass has found one more stream with a frame. -/
theorem peeking_next {s : MixerSession} {deviceId : ℕ} {rest : List ℕ}
    (hready : s.streams.ready deviceId = true)
    (hseen : ∀ d ∈ s.streams.ids, d ∉ deviceId :: rest → s.streams.queue d ≠ []) :
    ∀ d ∈ s.streams.ids, d ∉ rest → s.streams.queue d ≠ [] := by
  intro d hd hrest
  -- the stream just looked at, and those before it
  by_cases hdev : d = deviceId
  · subst hdev
    intro hempty
    have hnone : s.streams.ready d = false := by
      unfold AudioStreams.ready
      rw [hempty]
      rfl
    rw [hnone] at hready
    cases hready
  · exact hseen d hd (by simp [hdev, hrest])

/-- **Step** of the mixer thread. -/
theorem lockInv_mixerStep {s : MixerSession} (hI : LockInv s) (out : AudioEncodeOutcome) :
    LockInv (s.mixerStep out) := by
  have hplace := hI.place
  cases hpc : s.pc with
  | dequeuing rest =>
    cases rest with
    | nil => exact lockInv_mix hpc hI out
    | cons deviceId rest => exact dequeuing_next hpc hI out
  | loopHead =>
    rw [hpc] at hplace
    unfold MixerSession.mixerStep
    -- the loop is left, or the next wait begins
    by_cases hstop : s.stopRequested = true
    · simp only [hpc, if_pos hstop]
      exact ⟨hplace.imp (fun h => ⟨h.full, h.count⟩) (fun h => ⟨h.stop, h.full, h.count⟩),
        hI.split⟩
    · -- a round that lacked a frame came after the stop, so that there is no other one
      have heven : s.Even := hplace.resolve_right fun h => hstop h.stop
      simp only [hpc, if_neg hstop]
      exact ⟨⟨heven.full, heven.count⟩, hI.split⟩
  | waitHead =>
    rw [hpc] at hplace
    unfold MixerSession.mixerStep
    -- the wait is over for the stop, whatever is in the queues
    by_cases hstop : s.stopRequested = true
    · simp only [hpc, if_pos hstop]
      exact ⟨dequeuing_all hplace _ (Or.inl hstop), hI.split⟩
    · simp only [hpc, if_neg hstop]
      exact ⟨⟨⟨hplace.full, hplace.count⟩, List.suffix_refl _, fun _ hd hrest => absurd hd hrest⟩,
        hI.split⟩
  | peeking rest =>
    rw [hpc] at hplace
    obtain ⟨heven, hsuffix, hseen⟩ := hplace
    unfold MixerSession.mixerStep
    cases rest with
    -- every stream has shown a frame
    | nil =>
      simp only [hpc]
      exact ⟨dequeuing_all heven _ (Or.inr fun d hd => hseen d hd List.not_mem_nil), hI.split⟩
    | cons deviceId rest =>
      simp only [hpc]
      cases hready : s.streams.ready deviceId with
      -- one stream has none, and the pass begins anew after the sleep
      | false => exact ⟨⟨heven.full, heven.count⟩, hI.split⟩
      | true =>
        exact ⟨⟨⟨heven.full, heven.count⟩, (List.suffix_cons _ _).trans hsuffix,
          peeking_next hready hseen⟩, hI.split⟩
  | waiting =>
    rw [hpc] at hplace
    unfold MixerSession.mixerStep
    simp only [hpc]
    exact ⟨⟨hplace.full, hplace.count⟩, hI.split⟩
  | resting =>
    rw [hpc] at hplace
    unfold MixerSession.mixerStep
    simp only [hpc]
    exact ⟨hplace.imp (fun h => ⟨h.full, h.count⟩) (fun h => ⟨h.stop, h.full, h.count⟩), hI.split⟩
  | finished =>
    unfold MixerSession.mixerStep
    simp only [hpc]
    exact hI
  | joined =>
    unfold MixerSession.mixerStep
    simp only [hpc]
    exact hI

/-! ## Every session -/

theorem lockInv_next {s : MixerSession} {a : MixerAction} (hI : LockInv s)
    (hen : s.enabled a) : LockInv (s.next a) := by
  cases a with
  | push deviceId frame enqueued => exact lockInv_push hI deviceId frame enqueued
  | mixerStep out => exact lockInv_mixerStep hI out
  | requestStop =>
    have hgrows : s.Grows { s with stopRequested := true } :=
      ⟨rfl, rfl, rfl, rfl, rfl, fun _ => rfl, fun _ h => h, fun _ => List.prefix_refl _⟩
    exact ⟨hI.place.grow hgrows, hI.split⟩
  | join =>
    have hplace := hI.place
    -- the thread is at its end when it is joined
    rw [hen.2] at hplace
    have hgrows : s.Grows (s.next .join) :=
      ⟨rfl, rfl, rfl, rfl, rfl, fun h => h, fun _ h => h, fun _ => List.prefix_refl _⟩
    exact ⟨hplace.imp (·.grow hgrows) (·.grow hgrows), hI.split⟩

/-- **Run**: the counts are right in every state of every session. -/
theorem lockInv_of_reach {s : MixerSession} (h : Reachable mixerSystem s) : LockInv s := by
  apply h.invariant_ofCommands
  · intro s hs
    obtain ⟨mixer, streams, hempty, rfl⟩ := hs
    exact ⟨Or.inl ⟨fun n buffer hn => by simp at hn, fun _ _ => rfl⟩,
      fun d _ => (hempty d).symm⟩
  · exact fun s a hI _ hen => lockInv_next hI hen

/-- The rounds so far are full but for a last one after the stop, and the streams have given
    `n` frames or `n + 1`. -/
structure MixerSession.InStep (s : MixerSession) (n : ℕ) : Prop where
  rounds : ∀ k buffer, s.mixed[k]? = some buffer →
    s.FullRound k buffer ∨ (k + 1 = s.mixed.length ∧ s.stopRequested = true)
  count : ∀ deviceId ∈ s.streams.ids,
    (s.consumed deviceId).length = n ∨ (s.consumed deviceId).length = n + 1

theorem MixerSession.Even.inStep {s : MixerSession} (h : s.Even) : s.InStep s.mixed.length :=
  ⟨fun k buffer hk => Or.inl (h.full k buffer hk), fun d hd => Or.inl (h.count d hd)⟩

theorem MixerSession.Final.inStep {s : MixerSession} (h : s.Final) :
    s.InStep (s.mixed.length - 1) := by
  refine ⟨fun k buffer hk => ?_, fun d hd => ?_⟩
  · -- the last round is the one that may lack a frame
    by_cases hlast : k + 1 = s.mixed.length
    · exact Or.inr ⟨hlast, h.stop⟩
    · exact Or.inl (h.full k buffer hk hlast)
  · have hcount := h.count d hd
    omega

theorem MixerSession.Dequeuing.inStep {s : MixerSession} {rest : List ℕ}
    (h : s.Dequeuing rest) : s.InStep s.mixed.length := by
  refine ⟨fun k buffer hk => Or.inl (h.full k buffer hk), fun d hd => ?_⟩
  -- the second pass has been at the stream or is still to come to it
  by_cases hrest : d ∈ rest
  · exact Or.inl (h.count d hrest)
  · rcases h.taken d hd hrest with htaken | hskipped
    · exact Or.inr htaken.1
    · exact Or.inl hskipped.2.1

/-- Wherever the mixer thread is, the streams are in step. -/
theorem MixerSession.At.inStep {s : MixerSession} {pc : MixerPc} (h : s.At pc) :
    ∃ n, s.InStep n := by
  have hround (h : s.Even ∨ s.Final) : ∃ n, s.InStep n := by
    rcases h with heven | hfinal
    · exact ⟨_, heven.inStep⟩
    · exact ⟨_, hfinal.inStep⟩
  cases pc with
  | loopHead => exact hround h
  | resting => exact hround h
  | finished => exact hround h
  | joined => exact hround h
  | waitHead => exact ⟨_, Even.inStep h⟩
  | waiting => exact ⟨_, Even.inStep h⟩
  | peeking rest => exact ⟨_, h.1.inStep⟩
  | dequeuing rest => exact ⟨_, Dequeuing.inStep h⟩

/-- **The mixer keeps its streams in lock step.** In every session the buffer of round `n` is
    the mix of the frames pushed as number `n`, one of each stream, except for one last round
    after the stop was requested; what has been taken from a stream is the beginning of what
    was pushed to it; and the counts of two streams are at most one apart. -/
theorem mixer_lockStep (s : MixerSession) (h : Reachable mixerSystem s) :
    (∀ n buffer, s.mixed[n]? = some buffer →
      s.FullRound n buffer ∨ (n + 1 = s.mixed.length ∧ s.stopRequested = true)) ∧
    (∀ deviceId ∈ s.streams.ids, s.consumed deviceId <+: s.pushed deviceId) ∧
    ∀ d₁ ∈ s.streams.ids, ∀ d₂ ∈ s.streams.ids,
      (s.consumed d₁).length ≤ (s.consumed d₂).length + 1 := by
  have hI := lockInv_of_reach h
  obtain ⟨n, hstep⟩ := hI.place.inStep
  refine ⟨hstep.rounds, fun d hd => ?_, fun d₁ h₁ d₂ h₂ => ?_⟩
  · rw [hI.split d hd]
    exact List.prefix_append _ _
  · have hfirst := hstep.count d₁ h₁
    have hsecond := hstep.count d₂ h₂
    omega

/-- Two streams and a stop during the second wait: round 1 has a frame of stream 4 only. -/
def stoppedSession : List MixerAction :=
  let frame (sample : Int16) : RawAudioFrame := .ofSource [sample] 1 0 (by decide)
  let step : MixerAction := .mixerStep .again
  [step, step, .push 4 (frame 10) true, step, step, step, .push 9 (frame 20) true, step,
    step, step, step, .push 4 (frame 30) true, step, step, step, step, step, step, step, step,
    step, .requestStop, step, step, step, step, step, step, .join]

def twoStreams : MixerSession where
  mixer := { config := { bufferFrameSize := 1 } }
  streams := { ids := [4, 9], nodup := by decide }

/-- The witness: the two buffers of that session. -/
theorem stoppedSession_mixed :
    ∃ s, run mixerSystem anyStep twoStreams stoppedSession = some s ∧
      s.mixed = [[30], [30]] ∧ s.pc = .joined ∧
      ∀ d₁ ∈ s.streams.ids, ∀ d₂ ∈ s.streams.ids,
        (s.consumed d₁).length ≤ (s.consumed d₂).length + 1 := by
  refine ⟨_, rfl, rfl, rfl, ?_⟩
  have hinit : Reachable mixerSystem twoStreams := .init ⟨_, _, fun _ => rfl, rfl⟩
  exact (mixer_lockStep _ (hinit.of_run stoppedSession rfl)).2.2

end AVCapture.Encoding
