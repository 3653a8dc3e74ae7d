import AVCapture.Core.SegmentExports

/-!
# Where Every Frame Goes

A tick takes a snapshot of each buffer under `segment_mutex_`, muxes the two snapshots,
and clears the buffers afterwards. The encoding threads push at any time in between.

A frame is accounted for when it is in exactly one place: in its buffer, evicted by a push
that found the buffer full, or in the snapshot of one tick that has gone on to clear the
buffer. The accounts of a run are right exactly as long as no clear comes after a push
that its snapshot did not see.

## Main results

- `FrameStream.Accounts`: the invariant of one buffer, and what each operation does to it
- `FrameStream.not_conserved_clear`: a clear after such a push loses the pushed frame
- `framesConserved_iff`: which runs lose no frame
-/

namespace AVCapture.Core

open AVCapture.Utils Transition

/-! ## One buffer -/

namespace FrameStream

variable {α : Type}

/-- In how many of its possible places the `n`-th frame is. -/
def places (st : FrameStream α) (n : Nat) : Nat :=
  st.ids.count n + st.evicted.count n + st.saved.flatten.count n

/-- Every frame ever pushed is in exactly one place. -/
def Conserved (st : FrameStream α) : Prop := ∀ n < st.pushed, st.places n = 1

/-- No frame has been pushed since the running tick took its snapshot. -/
def Undisturbed (st : FrameStream α) : Prop := st.taken.map Prod.fst = some st.pushed

instance (st : FrameStream α) : Decidable st.Undisturbed := inferInstanceAs (Decidable (_ = _))

/-- The accounts of a buffer: frames are in one place and only pushed ones are anywhere;
    and the snapshot of a running tick is older than the frames pushed since, the last of
    which is still in the buffer. -/
structure Accounts (st : FrameStream α) : Prop where
  conserved : st.Conserved
  fresh : ∀ n, st.pushed ≤ n → st.places n = 0
  taken_le : ∀ m l, st.taken = some (m, l) → m ≤ st.pushed ∧ ∀ x ∈ l, x.id < m
  taken_eq : ∀ l, st.taken = some (st.pushed, l) → l = st.buf.buffer
  last_mem : ∀ m l, st.taken = some (m, l) → m < st.pushed → st.pushed - 1 ∈ st.ids

theorem Accounts.empty (capacity : Nat) :
    ({ buf := { capacity := capacity } } : FrameStream α).Accounts :=
  ⟨nofun, fun _ _ => rfl, nofun, nofun, nofun⟩

/-- A push puts its frame into one place and moves the others at most from the buffer to
    the evicted ones. -/
theorem places_push (st : FrameStream α) (frame : α) (n : Nat) :
    (st.push frame).places n = st.places n + if n = st.pushed then 1 else 0 := by
  let x : Pushed α := ⟨st.pushed, frame⟩
  have hsplit := congrArg (fun l => (l.map Pushed.id).count n) (st.buf.evicted_append_push x)
  simp only [List.map_append, List.count_append, List.map_cons, List.map_nil,
    List.count_singleton, beq_iff_eq] at hsplit
  show ((st.buf.push x).buffer.map Pushed.id).count n +
      (st.evicted ++ (st.buf.evicted x).map Pushed.id).count n + st.saved.flatten.count n = _
  rw [List.count_append]
  unfold places ids
  -- the new frame is counted once, and the buffer's loss is the evicted ones' gain
  have hid : (x.id = n) = (n = st.pushed) := propext eq_comm
  simp only [hid] at hsplit
  omega

theorem lt_pushed_of_mem_ids {st : FrameStream α} (h : st.Accounts) {n : Nat}
    (hn : n ∈ st.ids) : n < st.pushed := by
  by_contra hge
  have hzero := h.fresh n (Nat.le_of_not_lt hge)
  have hpos : 0 < st.ids.count n := List.count_pos_iff.mpr hn
  unfold places at hzero
  omega

theorem Accounts.push {st : FrameStream α} (h : st.Accounts) (frame : α) :
    (st.push frame).Accounts := by
  have hpushed : (st.push frame).pushed = st.pushed + 1 := rfl
  have htaken : (st.push frame).taken = st.taken := rfl
  refine ⟨?_, ?_, ?_, ?_, ?_⟩
  · intro n hn
    rw [places_push]
    rcases Nat.lt_succ_iff_lt_or_eq.mp hn with hlt | heq
    · rw [h.conserved n hlt, if_neg hlt.ne]
    · rw [if_pos heq, h.fresh n heq.ge]
  · intro n hn
    rw [hpushed] at hn
    rw [places_push, h.fresh n (by omega), if_neg (by omega)]
  · intro m l hl
    obtain ⟨hle, hlt⟩ := h.taken_le m l hl
    exact ⟨Nat.le_succ_of_le hle, hlt⟩
  · -- a snapshot cannot have seen the frame that is only pushed now
    intro l hl
    have hle := (h.taken_le _ l hl).1
    omega
  · intro m l _ _
    -- the pushed frame is the last one in the buffer
    have hlast := CircularBuffer.getLast?_push st.buf ⟨st.pushed, frame⟩
    exact List.mem_map.mpr ⟨_, List.mem_of_getLast? hlast, rfl⟩

theorem Accounts.take {st : FrameStream α} (h : st.Accounts) : st.take.Accounts := by
  refine ⟨h.conserved, h.fresh, ?_, ?_, ?_⟩
  · intro m l hl
    cases hl
    exact ⟨le_rfl, fun x hx => lt_pushed_of_mem_ids h (List.mem_map.mpr ⟨x, hx, rfl⟩)⟩
  · intro l hl
    cases hl
    rfl
  · intro m l hl hlt
    cases hl
    exact absurd hlt (Nat.lt_irrefl _)

theorem Accounts.giveUp {st : FrameStream α} (h : st.Accounts) : st.giveUp.Accounts :=
  ⟨h.conserved, h.fresh, nofun, nofun, nofun⟩

/-- What a clear leaves of a frame: the buffer's share is replaced by the snapshot's. -/
theorem places_clear {st : FrameStream α} {m : Nat} {l : List (Pushed α)}
    (ht : st.taken = some (m, l)) (n : Nat) :
    st.clear.places n =
      st.evicted.count n + st.saved.flatten.count n + (l.map Pushed.id).count n := by
  simp [places, ids, clear, ht, List.count_append, Nat.add_assoc]

/-- A clear with nothing pushed since the snapshot keeps the accounts. -/
theorem Accounts.clear {st : FrameStream α} (h : st.Accounts) (hu : st.Undisturbed) :
    st.clear.Accounts := by
  obtain ⟨⟨m, l⟩, ht, rfl⟩ := Option.map_eq_some_iff.mp hu
  have hl : l = st.buf.buffer := h.taken_eq l ht
  have hplaces (n : Nat) : st.clear.places n = st.places n := by
    rw [places_clear ht, hl]
    unfold places ids
    omega
  refine ⟨?_, ?_, nofun, nofun, nofun⟩
  · intro n hn
    rw [hplaces]
    exact h.conserved n hn
  · intro n hn
    rw [hplaces]
    exact h.fresh n hn

/-- **A clear after a later push loses a frame**: the last one pushed is in the buffer
    only, and not in the snapshot. -/
theorem not_conserved_clear {st : FrameStream α} (h : st.Accounts)
    (htaken : st.taken.isSome = true) (hu : ¬ st.Undisturbed) : ¬ st.clear.Conserved := by
  intro hc
  obtain ⟨⟨m, l⟩, ht⟩ := Option.isSome_iff_exists.mp htaken
  have hne : m ≠ st.pushed := by
    intro heq
    apply hu
    rw [Undisturbed, ht, heq]
    rfl
  obtain ⟨hle, hids⟩ := h.taken_le m l ht
  have hlt : m < st.pushed := lt_of_le_of_ne hle hne
  have hlast : st.pushed - 1 < st.pushed := by omega
  -- before the clear it was in the buffer, so nowhere else
  have hbuf : 0 < st.ids.count (st.pushed - 1) := List.count_pos_iff.mpr (h.last_mem m l ht hlt)
  have hone : st.places (st.pushed - 1) = 1 := h.conserved _ hlast
  -- and the snapshot is older than it
  have hsnap : (l.map Pushed.id).count (st.pushed - 1) = 0 := by
    rw [List.count_eq_zero]
    intro hmem
    obtain ⟨x, hx, hid⟩ := List.mem_map.mp hmem
    have := hids x hx
    omega
  have hafter : st.clear.places (st.pushed - 1) = 1 := hc _ hlast
  rw [places_clear ht, hsnap] at hafter
  unfold places at hone
  omega

end FrameStream

/-! ## Both buffers, in every run -/

/-- The tick has taken its video snapshot and not yet cleared the video buffer. -/
def TickPc.videoInHand : TickPc → Bool
  | .videoTaken | .audioTaken | .muxed | .unlocked => true
  | _ => false

def TickPc.audioInHand : TickPc → Bool
  | .audioTaken | .muxed | .unlocked | .videoCleared => true
  | _ => false

/-- Every frame ever pushed into one of the two buffers is in exactly one place. -/
def FramesConserved (s : ThreadState) : Prop := s.video.Conserved ∧ s.audio.Conserved

/-- No frame comes in between a tick's `get_frames` on a buffer and its `clear_frames`. -/
def noLatePush (s : ThreadState) : Action → Prop
  | .tickClearVideo => s.video.Undisturbed
  | .tickClearAudio => s.audio.Undisturbed
  | _ => True

structure FrameInv (s : ThreadState) : Prop where
  video : s.video.Accounts
  audio : s.audio.Accounts
  videoTaken : s.tick.videoInHand = true → s.video.taken.isSome = true
  audioTaken : s.tick.audioInHand = true → s.audio.taken.isSome = true

theorem frameInv_started (videoCapacity audioCapacity : Nat) (stale : Nat → Option TsFile) :
    FrameInv (ThreadState.started videoCapacity audioCapacity stale) :=
  ⟨.empty videoCapacity, .empty audioCapacity, nofun, nofun⟩

/-- **Step**: a step that meets the guard keeps the accounts of both buffers. -/
theorem frameInv_next {cfg : Config} {env : SegmentEnv} {s : ThreadState} {a : Action}
    (hI : FrameInv s) (hok : noLatePush s a) (hen : s.enabled a) :
    FrameInv (s.next cfg env a) := by
  obtain ⟨hv, ha, hvt, hat⟩ := hI
  cases a with
  | tickBegin => exact ⟨hv, ha, nofun, nofun⟩
  | tickLock => exact ⟨hv, ha, nofun, nofun⟩
  | tickTakeVideo => exact ⟨hv.take, ha, fun _ => rfl, nofun⟩
  | tickTakeAudio =>
    rw [show s.tick = _ from hen] at hvt
    exact ⟨hv, ha.take, hvt, fun _ => rfl⟩
  | tickMux calls =>
    rw [show s.tick = _ from hen] at hvt hat
    exact ⟨hv, ha, hvt, hat⟩
  | tickUnlock =>
    rw [show s.tick = _ from hen] at hvt hat
    unfold ThreadState.next
    cases hsave : s.saveOk with
    | true => exact ⟨hv, ha, hvt, hat⟩
    -- the failed tick forgets its snapshots, and the frames are still in the buffers
    | false => exact ⟨hv.giveUp, ha.giveUp, nofun, nofun⟩
  | tickClearVideo =>
    rw [show s.tick = _ from hen] at hat
    exact ⟨hv.clear hok, ha, nofun, hat⟩
  | tickClearAudio => exact ⟨hv, ha.clear hok, nofun, nofun⟩
  | tickAdvance => exact ⟨hv, ha, nofun, nofun⟩
  | tickExit => exact ⟨hv, ha, nofun, nofun⟩
  | pushVideo frame => exact ⟨hv.push frame, ha, hvt, hat⟩
  | pushAudio frame => exact ⟨hv, ha.push frame, hvt, hat⟩
  -- the exports and the stop path touch no buffer
  | exportLock | exportCreate | exportList | exportFind | exportRead | exportUnlock =>
    exact ⟨hv, ha, hvt, hat⟩
  | stopRequest | stopJoin | stopRemove | stopRemoveList | stopRemoved | stopReset =>
    exact ⟨hv, ha, hvt, hat⟩

/-- A step loses no frame exactly if it meets the guard. -/
theorem framesConserved_next_iff {cfg : Config} {env : SegmentEnv} {s : ThreadState}
    {a : Action} (hI : FrameInv s) (hen : s.enabled a) :
    FramesConserved (s.next cfg env a) ↔ noLatePush s a := by
  refine ⟨?_, ?_⟩
  · intro hc
    by_contra hnot
    -- only the two clears can break the guard
    cases a with
    | tickClearVideo =>
      have htaken := hI.videoTaken (by rw [show s.tick = _ from hen]; rfl)
      exact FrameStream.not_conserved_clear hI.video htaken hnot hc.1
    | tickClearAudio =>
      have htaken := hI.audioTaken (by rw [show s.tick = _ from hen]; rfl)
      exact FrameStream.not_conserved_clear hI.audio htaken hnot hc.2
    | _ => exact hnot trivial
  · intro hok
    have hI' : FrameInv (s.next cfg env a) := frameInv_next hI hok hen
    exact ⟨hI'.video.conserved, hI'.audio.conserved⟩

/-- **Frame conservation**: a run of the tick thread, the encoding threads, the exports
    and the stop path has every frame in exactly one place at every moment if and only if
    each clear of the run finds nothing that was pushed after the snapshot of its tick. -/
theorem framesConserved_iff (cfg : Config) (env : SegmentEnv)
    (videoCapacity audioCapacity : Nat) (stale : Nat → Option TsFile) (as : List Action) :
    Along (segmenterSystem cfg env) FramesConserved
        (ThreadState.started videoCapacity audioCapacity stale) as ↔
      Guarded (segmenterSystem cfg env) noLatePush
        (ThreadState.started videoCapacity audioCapacity stale) as := by
  have hI := frameInv_started videoCapacity audioCapacity stale
  have hkeep : ∀ (s : ThreadState) (a : Action), FrameInv s → s.enabled a → noLatePush s a →
      FrameInv (s.next cfg env a) := fun s a hI hen hok => frameInv_next hI hok hen
  have hexact : ∀ (s : ThreadState) (a : Action), FrameInv s → s.enabled a →
      (FramesConserved (s.next cfg env a) ↔ noLatePush s a) :=
    fun s a hI hen => framesConserved_next_iff hI hen
  exact along_iff_guarded_ofCommands hkeep hexact hI ⟨hI.video.conserved, hI.audio.conserved⟩ as

/-- A tick during whose mux the next video frame comes in. -/
def pushDuringMux : List Action :=
  [.pushVideo videoFrame, .pushAudio audioFrame, .tickBegin, .tickLock, .tickTakeVideo,
    .tickTakeAudio, .pushVideo videoFrame, .tickMux {}, .tickUnlock, .tickClearVideo]

/-- The second video frame is in no place: the clear has thrown it away unsaved. -/
theorem pushDuringMux_loses_frame :
    ¬ ∀ s, Reachable (segmenterSystem twoSlots smallEnv) s → FramesConserved s := by
  intro hall
  have hinit : Reachable (segmenterSystem twoSlots smallEnv)
      (ThreadState.started 60 16 fun _ => none) :=
    .init ⟨60, 16, fun _ => none, rfl⟩
  obtain ⟨s, hreach, hs⟩ := hinit.exists_of_run pushDuringMux
    (fun s => decide (1 < s.video.pushed ∧ s.video.places 1 = 0)) (by decide)
  obtain ⟨hlt, hzero⟩ := of_decide_eq_true hs
  have hone : s.video.places 1 = 1 := (hall s hreach).1 1 hlt
  rw [hzero] at hone
  cases hone

end AVCapture.Core
