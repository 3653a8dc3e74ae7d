import AVCapture.Core.SegmentStop
import Mathlib.Data.List.Forall2

/-!
# What a Saved Recording Plays

An export hands ffmpeg the segment files that it has listed, one after the other. Each of them is
what a tick has made of its two snapshots, unless a later tick has truncated it or the stop path
has removed it.

Frames are known by the order in which they were pushed into their buffer. A tick saves a block
of them, blocks ascend from tick to tick, and what is in a file is the beginning of a block of
either stream: the mux loop stops when a stream runs out, or when a packet is refused.

## Main results

- `contents_interleave`: the two streams of a segment file
- `contentInv_next`: which block is in which slot
- `export_plays_once`: the frames that an export plays, and their order
-/

namespace AVCapture.Core

open AVCapture.Utils Transition

/-! ## The streams of a file -/

/-- What is left of a frame in a file, but for its timestamps. -/
abbrev Payload : Type := List UInt8 × Bool

def EncodedVideoFrame.payload (frame : EncodedVideoFrame) : Payload :=
  (frame.data, frame.isKeyFrame)

def EncodedAudioFrame.payload (frame : EncodedAudioFrame) : Payload :=
  (frame.data, frame.isKeyFrame)

/-- The packets of a stream. -/
def contents (streamIndex : ℕ) (packets : List AVPacket) : List Payload :=
  (packets.filter fun packet => packet.streamIndex == streamIndex).map fun packet =>
    (packet.data, packet.isKeyFrame)

theorem contents_cons_of_eq {streamIndex : ℕ} {packet : AVPacket}
    (h : packet.streamIndex = streamIndex) (packets : List AVPacket) :
    contents streamIndex (packet :: packets) =
      (packet.data, packet.isKeyFrame) :: contents streamIndex packets := by
  simp [contents, h]

theorem contents_cons_of_ne {streamIndex : ℕ} {packet : AVPacket}
    (h : packet.streamIndex ≠ streamIndex) (packets : List AVPacket) :
    contents streamIndex (packet :: packets) = contents streamIndex packets := by
  simp [contents, h]

theorem packet?_of_failed {w : WriteCall} (h : w.failed = true) : w.packet? = none := by
  unfold WriteCall.failed at h
  unfold WriteCall.packet?
  cases hresult : w.result with
  | error e => rfl
  | ok packet =>
    rw [hresult] at h
    cases h

theorem packet?_writeVideo (p : LoopParams) {calls : PacketCalls} (h : calls.succeed = true)
    (frame : EncodedVideoFrame) :
    ∃ packet, (p.writeVideo calls frame).packet? = some packet ∧ packet.streamIndex = 0 ∧
      (packet.data, packet.isKeyFrame) = frame.payload := by
  obtain ⟨_ | _, _ | _, _ | _⟩ := calls <;> cases h
  exact ⟨_, rfl, rfl, rfl⟩

theorem packet?_writeAudio (p : LoopParams) {calls : PacketCalls} (h : calls.succeed = true)
    (frame : EncodedAudioFrame) :
    ∃ packet, (p.writeAudio calls frame).packet? = some packet ∧ packet.streamIndex = 1 ∧
      (packet.data, packet.isKeyFrame) = frame.payload := by
  obtain ⟨_ | _, _ | _, _ | _⟩ := calls <;> cases h
  exact ⟨_, rfl, rfl, rfl⟩

/-- **The streams of a segment file**: the beginnings of the two snapshots. -/
theorem contents_interleave (p : LoopParams) (calls : ℕ → PacketCalls) (fuel n : ℕ)
    (vs : List EncodedVideoFrame) (as : List EncodedAudioFrame) :
    contents 0 ((interleave p calls fuel n vs as).filterMap WriteCall.packet?) <+:
        vs.map EncodedVideoFrame.payload ∧
      contents 1 ((interleave p calls fuel n vs as).filterMap WriteCall.packet?) <+:
        as.map EncodedAudioFrame.payload := by
  induction fuel generalizing n vs as with
  | zero => exact ⟨List.nil_prefix, List.nil_prefix⟩
  -- the induction is on the rounds, and the loop ends with the shorter of the two streams
  | succ fuel ih =>
    match vs, as with
    | [], _ => exact ⟨List.nil_prefix, List.nil_prefix⟩
    | _ :: _, [] => exact ⟨List.nil_prefix, List.nil_prefix⟩
    | v :: vs, a :: as =>
      rw [interleave]
      -- a packet of either stream, which is refused or is the next of its stream
      split
      · cases hcalls : (calls n).succeed with
        -- a packet that is refused ends the loop
        | false =>
          have hfailed : (p.writeVideo (calls n) v).failed = true := by simp [hcalls]
          rw [List.filterMap_cons_none (packet?_of_failed hfailed), if_pos hfailed]
          exact ⟨List.nil_prefix, List.nil_prefix⟩
        | true =>
          have hok : ¬ (p.writeVideo (calls n) v).failed = true := by simp [hcalls]
          obtain ⟨packet, hpacket, hstream, hpayload⟩ := packet?_writeVideo p hcalls v
          obtain ⟨hvideo, haudio⟩ := ih (n + 1) vs (a :: as)
          have hother : packet.streamIndex ≠ 1 := by omega
          rw [List.filterMap_cons_some hpacket, if_neg hok, contents_cons_of_eq hstream,
            contents_cons_of_ne hother, hpayload]
          exact ⟨List.cons_prefix_cons.mpr ⟨rfl, hvideo⟩, haudio⟩
      · cases hcalls : (calls n).succeed with
        | false =>
          have hfailed : (p.writeAudio (calls n) a).failed = true := by simp [hcalls]
          rw [List.filterMap_cons_none (packet?_of_failed hfailed), if_pos hfailed]
          exact ⟨List.nil_prefix, List.nil_prefix⟩
        | true =>
          have hok : ¬ (p.writeAudio (calls n) a).failed = true := by simp [hcalls]
          obtain ⟨packet, hpacket, hstream, hpayload⟩ := packet?_writeAudio p hcalls a
          obtain ⟨hvideo, haudio⟩ := ih (n + 1) (v :: vs) as
          have hother : packet.streamIndex ≠ 0 := by omega
          rw [List.filterMap_cons_some hpacket, if_neg hok, contents_cons_of_eq hstream,
            contents_cons_of_ne hother, hpayload]
          exact ⟨hvideo, List.cons_prefix_cons.mpr ⟨rfl, haudio⟩⟩

/-! ## The blocks of a buffer -/

namespace FrameStream

variable {α : Type}

/-- Frames that come after all that has been saved, and are the ones of that number. -/
structure Fits (frame : ℕ → α) (st : FrameStream α) (l : List (Pushed α)) : Prop where
  ascending : (st.saved.flatten ++ l.map Pushed.id).Pairwise (· < ·)
  pushed : ∀ n ∈ st.saved.flatten ++ l.map Pushed.id, n < st.pushed
  frames : ∀ x ∈ l, x.frame = frame x.id

/-- The frames of the buffer, and those of the running tick's snapshot. -/
structure Ordered (frame : ℕ → α) (st : FrameStream α) : Prop where
  buffer : st.Fits frame st.buf.buffer
  taken : ∀ m l, st.taken = some (m, l) → st.Fits frame l

/-- The numbers of the snapshot. -/
def takenIds (st : FrameStream α) : List ℕ := (st.taken.map fun t => t.2.map Pushed.id).getD []

/-- The blocks of the ticks so far; `written` is whether the running tick has written its own
    and not yet cleared the buffer. -/
def blocks (st : FrameStream α) (written : Bool) : List (List ℕ) :=
  st.saved ++ if written then [st.takenIds] else []

variable {frame : ℕ → α} {st : FrameStream α}

theorem Ordered.empty (frame : ℕ → α) (capacity : ℕ) :
    ({ buf := { capacity := capacity } } : FrameStream α).Ordered frame :=
  ⟨⟨.nil, nofun, nofun⟩, nofun⟩

theorem Ordered.push (h : st.Ordered frame) : (st.push (frame st.pushed)).Ordered frame := by
  obtain ⟨⟨hascending, hpushed, hframes⟩, htaken⟩ := h
  let x : Pushed α := ⟨st.pushed, frame st.pushed⟩
  have hsub : (st.buf.push x).buffer.Sublist (st.buf.buffer ++ [x]) := st.buf.push_sublist x
  have hids : (st.saved.flatten ++ (st.buf.push x).buffer.map Pushed.id).Sublist
      (st.saved.flatten ++ st.buf.buffer.map Pushed.id ++ [st.pushed]) := by
    -- a push at capacity evicts from the front only
    rw [List.append_assoc]
    refine (List.Sublist.refl _).append ?_
    simpa using hsub.map Pushed.id
  refine ⟨⟨?_, ?_, ?_⟩, ?_⟩
  · -- the new number is greater than all before it
    refine List.Pairwise.sublist hids (List.pairwise_append.mpr ⟨hascending, by simp, ?_⟩)
    intro m hm n hn
    rw [List.mem_singleton.mp hn]
    exact hpushed m hm
  · intro n hn
    show n < st.pushed + 1
    -- the numbers of before, and the new one
    rcases List.mem_append.mp (hids.subset hn) with hold | hnew
    · exact Nat.lt_succ_of_lt (hpushed n hold)
    · rw [List.mem_singleton.mp hnew]
      exact Nat.lt_succ_self _
  · intro y hy
    rcases List.mem_append.mp (hsub.subset hy) with hold | hnew
    · exact hframes y hold
    · rw [List.mem_singleton.mp hnew]
  · intro m l hl
    obtain ⟨hascending', hpushed', hframes'⟩ := htaken m l hl
    exact ⟨hascending', fun n hn => Nat.lt_succ_of_lt (hpushed' n hn), hframes'⟩

theorem Ordered.take (h : st.Ordered frame) : st.take.Ordered frame := by
  refine ⟨⟨h.buffer.ascending, h.buffer.pushed, h.buffer.frames⟩, ?_⟩
  rintro m l hl
  obtain ⟨rfl, rfl⟩ := Prod.mk.inj (Option.some.inj hl)
  exact ⟨h.buffer.ascending, h.buffer.pushed, h.buffer.frames⟩

theorem Ordered.giveUp (h : st.Ordered frame) : st.giveUp.Ordered frame :=
  ⟨⟨h.buffer.ascending, h.buffer.pushed, h.buffer.frames⟩, nofun⟩

theorem flatten_blocks (st : FrameStream α) (written : Bool) :
    (st.blocks written).flatten = st.saved.flatten ++ if written then st.takenIds else [] := by
  cases written <;> simp [blocks]

/-- **Blocks ascend** from tick to tick. -/
theorem Ordered.blocks_fit (h : st.Ordered frame) (written : Bool) :
    (st.blocks written).flatten.Pairwise (· < ·) ∧
      ∀ n ∈ (st.blocks written).flatten, n < st.pushed := by
  have hsaved : st.saved.flatten.Pairwise (· < ·) ∧ ∀ n ∈ st.saved.flatten, n < st.pushed :=
    ⟨(List.pairwise_append.mp h.buffer.ascending).1,
      fun n hn => h.buffer.pushed n (List.mem_append_left _ hn)⟩
  rw [flatten_blocks]
  unfold takenIds
  cases written with
  -- without a written block there are the saved ones only
  | false => rwa [if_neg Bool.false_ne_true, List.append_nil]
  | true =>
    rw [if_pos rfl]
    -- the block of the running tick is its snapshot
    cases htaken : st.taken with
    | none => rwa [Option.map_none, Option.getD_none, List.append_nil]
    | some t => exact ⟨(h.taken t.1 t.2 htaken).ascending, (h.taken t.1 t.2 htaken).pushed⟩

theorem Ordered.clear (h : st.Ordered frame) : st.clear.Ordered frame := by
  have hblocks := h.blocks_fit true
  have hall : st.clear.saved.flatten ++ st.clear.buf.buffer.map Pushed.id =
      (st.blocks true).flatten := List.append_nil _
  refine ⟨⟨?_, ?_, nofun⟩, nofun⟩
  · rw [hall]
    exact hblocks.1
  · rw [hall]
    exact hblocks.2

/-- The payloads of the snapshot. -/
theorem Ordered.snapshotFrames_eq (h : st.Ordered frame) :
    st.snapshotFrames = st.takenIds.map frame := by
  unfold snapshotFrames takenIds
  cases htaken : st.taken with
  -- no snapshot has been taken
  | none => rfl
  | some t =>
    show t.2.map Pushed.frame = (t.2.map Pushed.id).map frame
    rw [List.map_map]
    exact List.map_congr_left (h.taken t.1 t.2 htaken).frames

end FrameStream

/-! ## The slots -/

/-- The frames that the encoding threads push, by their numbers. -/
structure Source where
  video : ℕ → EncodedVideoFrame
  audio : ℕ → EncodedAudioFrame

/-- It is these frames that a step pushes. -/
def Source.feeds (src : Source) (s : ThreadState) : Action → Prop
  | .pushVideo frame => frame = src.video s.video.pushed
  | .pushAudio frame => frame = src.audio s.audio.pushed
  | _ => True

instance decidableFeeds (src : Source) (s : ThreadState) : (a : Action) → Decidable (src.feeds s a)
  | .pushVideo frame => inferInstanceAs (Decidable (frame = _))
  | .pushAudio frame => inferInstanceAs (Decidable (frame = _))
  | .tickBegin | .tickLock | .tickTakeVideo | .tickTakeAudio | .tickMux _ | .tickUnlock
  | .tickClearVideo | .tickClearAudio | .tickAdvance | .tickExit | .exportLock _ | .exportCreate
  | .exportList | .exportFind | .exportRead | .exportUnlock _ | .stopRequest | .stopJoin
  | .stopRemove _ | .stopRemoveList | .stopRemoved _
  | .stopReset => inferInstanceAs (Decidable True)

/-- The same frames up to those that have been pushed. -/
def Source.Agrees (src src' : Source) (s : ThreadState) : Prop :=
  (∀ n < s.video.pushed, src'.video n = src.video n) ∧
    ∀ n < s.audio.pushed, src'.audio n = src.audio n

/-- **Every run is fed** by some frames, whatever comes after them. -/
theorem exists_source {cfg : Config} {env : SegmentEnv} {s : ThreadState}
    (h : Reachable (segmenterSystem cfg env) s) :
    ∃ src : Source, ∀ src', src.Agrees src' s → Reach (segmenterSystem cfg env) src'.feeds s := by
  induction h with
  | init h => exact ⟨⟨fun _ => videoFrame, fun _ => audioFrame⟩, fun _ _ => .init h⟩
  | @step s s' a h _ hs ih =>
    obtain ⟨src, hsrc⟩ := ih
    -- what a push adds to the frames is the one it pushes; no other step adds any
    obtain ⟨hen, rfl⟩ := ofCommands_step_iff.mp hs
    cases a with
    | pushVideo frame =>
      refine ⟨{ src with video := Function.update src.video s.video.pushed frame }, ?_⟩
      rintro src' ⟨hvideo, haudio⟩
      have hagrees : src.Agrees src' s := by
        refine ⟨fun n hn => ?_, haudio⟩
        -- the new frame has a number that is not yet taken
        rw [hvideo n (Nat.lt_succ_of_lt hn)]
        exact Function.update_of_ne hn.ne ..
      refine .step (hsrc src' hagrees) ?_ hs
      exact ((hvideo _ (Nat.lt_succ_self _)).trans (Function.update_self ..)).symm
    | pushAudio frame =>
      refine ⟨{ src with audio := Function.update src.audio s.audio.pushed frame }, ?_⟩
      rintro src' ⟨hvideo, haudio⟩
      have hagrees : src.Agrees src' s := by
        refine ⟨hvideo, fun n hn => ?_⟩
        rw [haudio n (Nat.lt_succ_of_lt hn)]
        exact Function.update_of_ne hn.ne ..
      refine .step (hsrc src' hagrees) ?_ hs
      exact ((haudio _ (Nat.lt_succ_self _)).trans (Function.update_self ..)).symm
    | tickUnlock =>
      -- a tick that ends, well or not, pushes nothing
      have hpushed : (s.next cfg env .tickUnlock).video.pushed = s.video.pushed ∧
          (s.next cfg env .tickUnlock).audio.pushed = s.audio.pushed := by
        unfold ThreadState.next
        cases s.saveOk <;> exact ⟨rfl, rfl⟩
      refine ⟨src, fun src' hagrees => .step (hsrc src' ?_) ?_ hs⟩
      · unfold Source.Agrees at hagrees
        rwa [hpushed.1, hpushed.2] at hagrees
      · exact trivial
    | _ =>
      refine ⟨src, fun src' hagrees => .step (hsrc src' hagrees) ?_ hs⟩
      exact trivial

def Source.videoPayload (src : Source) (n : ℕ) : Payload := (src.video n).payload

def Source.audioPayload (src : Source) (n : ℕ) : Payload := (src.audio n).payload

/-- The tick has written its segment and not yet cleared the video buffer. -/
def TickPc.wroteVideo (pc : TickPc) (saveOk : Bool) : Bool :=
  match pc with
  | .muxed => saveOk
  | .unlocked => true
  | _ => false

def TickPc.wroteAudio (pc : TickPc) (saveOk : Bool) : Bool :=
  match pc with
  | .muxed => saveOk
  | .unlocked | .videoCleared => true
  | _ => false

def ThreadState.videoBlocks (s : ThreadState) : List (List ℕ) :=
  s.video.blocks (s.tick.wroteVideo s.saveOk)

def ThreadState.audioBlocks (s : ThreadState) : List (List ℕ) :=
  s.audio.blocks (s.tick.wroteAudio s.saveOk)

/-- A stream of a file is the beginning of a block. -/
def Begins (payload : ℕ → Payload) (blocks : List (List ℕ)) (t : ℕ) (stream : List Payload) :
    Prop :=
  ∃ ids, ids <+: blocks[t]?.getD [] ∧ stream = ids.map payload

/-- The file of a slot: one that the last tick with this slot has written, or one without
    packets; or it is older than all ticks. -/
structure SlotInv (R : ℕ) (src : Source) (video audio : List (List ℕ)) (idx : ℕ)
    (f : SegmentFile) : Prop where
  written : ∀ t, f.tick = some t → t % R = idx ∧ t < video.length ∧ video.length ≤ t + R ∧
    Begins src.videoPayload video t (contents 0 f.file.packets) ∧
    Begins src.audioPayload audio t (contents 1 f.file.packets)
  truncated : f.tick = none → (∃ t < video.length, t % R = idx) → f.file.packets = []

/-- The frames of the buffers, and the blocks in the slots; `seq_` counts the blocks until the
    stop path resets it. -/
structure ContentInv (cfg : Config) (src : Source) (s : ThreadState) : Prop where
  video : s.video.Ordered src.video
  audio : s.audio.Ordered src.audio
  length_audio : s.audioBlocks.length = s.videoBlocks.length
  counted : s.stop ≠ .stopped →
    s.videoBlocks.length = s.seq + if s.tick.saved s.saveOk then 1 else 0
  reset : s.stop = .stopped → s.seq = 0
  slots : ∀ idx f, s.disk idx = some f →
    SlotInv cfg.ringSize src s.videoBlocks s.audioBlocks idx f

theorem Begins.of_front {payload : ℕ → Payload} {blocks : List (List ℕ)} {t : ℕ} {ids : List ℕ}
    (hblock : blocks[t]? = some ids) {stream : List Payload} (h : stream <+: ids.map payload) :
    Begins payload blocks t stream := by
  refine ⟨ids.take stream.length, ?_, ?_⟩
  · rw [hblock]
    exact List.take_prefix ..
  · rw [List.map_take]
    exact List.prefix_iff_eq_take.mp h

theorem Begins.append {payload : ℕ → Payload} {blocks : List (List ℕ)} {t : ℕ}
    {stream : List Payload} (h : Begins payload blocks t stream) (hlt : t < blocks.length)
    (more : List (List ℕ)) : Begins payload (blocks ++ more) t stream := by
  obtain ⟨ids, hids, hstream⟩ := h
  exact ⟨ids, by rwa [List.getElem?_append_left hlt], hstream⟩

section Slots

variable {cfg : Config} {env : SegmentEnv} {src : Source} {s : ThreadState}

theorem contentInv_started (cfg : Config) (src : Source) (videoCapacity audioCapacity : ℕ)
    (stale : ℕ → Option TsFile) :
    ContentInv cfg src (ThreadState.started videoCapacity audioCapacity stale) := by
  refine ⟨.empty _ _, .empty _ _, rfl, fun _ => rfl, nofun, fun idx f hf => ⟨?_, ?_⟩⟩
  · -- a file of an earlier run has been written by no tick of this one
    obtain ⟨file, -, rfl⟩ := Option.map_eq_some_iff.mp hf
    exact fun t ht => absurd ht (by simp)
  · rintro - ⟨t, ht, -⟩
    exact absurd ht (Nat.not_lt_zero t)

/-- Only the mux makes a block. -/
theorem blocks_next (cfg : Config) (env : SegmentEnv) {a : Action} (hen : s.enabled a)
    (hmux : ∀ calls, a ≠ .tickMux calls) :
    (s.next cfg env a).videoBlocks = s.videoBlocks ∧
      (s.next cfg env a).audioBlocks = s.audioBlocks := by
  unfold ThreadState.videoBlocks ThreadState.audioBlocks
  cases a with
  | tickMux calls => exact absurd rfl (hmux calls)
  -- these steps are on the same side of the mux as the one before
  | tickBegin | tickLock | tickExit =>
    rw [hen.1]
    exact ⟨rfl, rfl⟩
  | tickTakeVideo | tickTakeAudio | tickAdvance =>
    rw [show s.tick = _ from hen]
    exact ⟨rfl, rfl⟩
  -- a clear counts the snapshot as saved
  | tickClearVideo =>
    rw [show s.tick = _ from hen]
    exact ⟨List.append_nil _, rfl⟩
  | tickClearAudio =>
    rw [show s.tick = _ from hen]
    exact ⟨rfl, List.append_nil _⟩
  -- what a failed tick gives up was not written
  | tickUnlock =>
    rw [show s.tick = _ from hen]
    unfold ThreadState.next
    cases s.saveOk with
    | true => exact ⟨rfl, rfl⟩
    | false => exact ⟨rfl, rfl⟩
  | pushVideo | pushAudio | exportLock | exportCreate | exportList | exportFind | exportRead
  | exportUnlock | stopRequest | stopJoin | stopRemove | stopRemoveList | stopRemoved | stopReset =>
    exact ⟨rfl, rfl⟩

theorem ordered_next (cfg : Config) (env : SegmentEnv) {a : Action}
    (hvideo : s.video.Ordered src.video) (haudio : s.audio.Ordered src.audio)
    (hfeed : src.feeds s a) :
    (s.next cfg env a).video.Ordered src.video ∧ (s.next cfg env a).audio.Ordered src.audio := by
  cases a with
  | pushVideo frame =>
    obtain rfl : frame = _ := hfeed
    exact ⟨hvideo.push, haudio⟩
  | pushAudio frame =>
    obtain rfl : frame = _ := hfeed
    exact ⟨hvideo, haudio.push⟩
  | tickTakeVideo => exact ⟨hvideo.take, haudio⟩
  | tickTakeAudio => exact ⟨hvideo, haudio.take⟩
  | tickClearVideo => exact ⟨hvideo.clear, haudio⟩
  | tickClearAudio => exact ⟨hvideo, haudio.clear⟩
  | tickUnlock =>
    unfold ThreadState.next
    cases s.saveOk with
    | true => exact ⟨hvideo, haudio⟩
    | false => exact ⟨hvideo.giveUp, haudio.giveUp⟩
  | tickBegin | tickLock | tickMux | tickAdvance | tickExit | exportLock | exportCreate | exportList
  | exportFind | exportRead | exportUnlock | stopRequest | stopJoin | stopRemove | stopRemoveList
  | stopRemoved | stopReset => exact ⟨hvideo, haudio⟩

/-- Every other step leaves a slot alone, or removes its file. -/
theorem disk_next (cfg : Config) (env : SegmentEnv) {a : Action}
    (hmux : ∀ calls, a ≠ .tickMux calls) (idx : ℕ) :
    (s.next cfg env a).disk idx = s.disk idx ∨ (s.next cfg env a).disk idx = none := by
  cases a with
  | tickMux calls => exact absurd rfl (hmux calls)
  | stopRemove removed =>
    -- the file that is removed, and the others
    by_cases h : idx = removed
    · rw [h]
      exact .inr (Function.update_self ..)
    · exact .inl (Function.update_of_ne h ..)
  | stopRemoved dirGone =>
    cases dirGone with
    | true => exact .inr rfl
    | false => exact .inl rfl
  | tickUnlock =>
    unfold ThreadState.next
    cases s.saveOk <;> exact .inl rfl
  | tickBegin | tickLock | tickTakeVideo | tickTakeAudio | tickClearVideo | tickClearAudio
  | tickAdvance | tickExit | pushVideo | pushAudio | exportLock | exportCreate | exportList
  | exportFind | exportRead | exportUnlock | stopRequest | stopJoin | stopRemoveList | stopReset =>
    exact .inl rfl

/-- The count of the blocks, before and after a step that makes none. -/
theorem counted_next (env : SegmentEnv) {a : Action} (hS : StopInv cfg s) (hen : s.enabled a)
    (hmux : ∀ calls, a ≠ .tickMux calls) {N : ℕ}
    (hcounted : s.stop ≠ .stopped → N = s.seq + if s.tick.saved s.saveOk then 1 else 0)
    (hreset : s.stop = .stopped → s.seq = 0) :
    ((s.next cfg env a).stop ≠ .stopped → N = (s.next cfg env a).seq +
        if (s.next cfg env a).tick.saved (s.next cfg env a).saveOk then 1 else 0) ∧
      ((s.next cfg env a).stop = .stopped → (s.next cfg env a).seq = 0) := by
  cases a with
  | tickMux calls => exact absurd rfl (hmux calls)
  -- the tick advances `seq_` for the block it has written
  | tickBegin | tickLock | tickExit =>
    rw [hen.1] at hcounted
    exact ⟨hcounted, hreset⟩
  | tickTakeVideo | tickTakeAudio | tickClearVideo | tickClearAudio =>
    rw [show s.tick = _ from hen] at hcounted
    exact ⟨hcounted, hreset⟩
  | tickUnlock =>
    rw [show s.tick = _ from hen] at hcounted
    unfold ThreadState.next
    cases hok : s.saveOk with
    | true =>
      rw [hok] at hcounted
      exact ⟨hcounted, hreset⟩
    | false =>
      rw [hok] at hcounted
      exact ⟨hcounted, hreset⟩
  | tickAdvance =>
    have hpc : s.tick = .audioCleared := hen
    rw [hpc] at hcounted
    refine ⟨hcounted, fun hstop => ?_⟩
    -- the tick thread has not ended
    have hexited : s.tick = .exited := hS.joined_of_stopped hstop
    rw [hpc] at hexited
    cases hexited
  | pushVideo | pushAudio | exportLock | exportCreate | exportList | exportFind | exportRead
  | exportUnlock | stopRemove | stopRemoveList => exact ⟨hcounted, hreset⟩
  | stopRequest =>
    rw [show s.stop = _ from hen] at hcounted
    exact ⟨fun _ => hcounted nofun, nofun⟩
  | stopJoin | stopRemoved =>
    rw [hen.1] at hcounted
    exact ⟨fun _ => hcounted nofun, nofun⟩
  -- the stop path sets `seq_` back, and the blocks stay
  | stopReset => exact ⟨fun h => absurd rfl h, fun _ => rfl⟩

/-- **Step**: every step but the mux keeps the content of the slots. -/
theorem contentInv_next_of_ne_mux {a : Action} (hS : StopInv cfg s) (hI : ContentInv cfg src s)
    (hfeed : src.feeds s a) (hen : s.enabled a) (hmux : ∀ calls, a ≠ .tickMux calls) :
    ContentInv cfg src (s.next cfg env a) := by
  obtain ⟨hvideoBlocks, haudioBlocks⟩ := blocks_next cfg env hen hmux
  obtain ⟨hvideo, haudio⟩ := ordered_next cfg env hI.video hI.audio hfeed
  obtain ⟨hcounted, hreset⟩ := counted_next env hS hen hmux hI.counted hI.reset
  refine ⟨hvideo, haudio, ?_, ?_, hreset, ?_⟩
  · rw [hvideoBlocks, haudioBlocks]
    exact hI.length_audio
  · rw [hvideoBlocks]
    exact hcounted
  · intro idx f hf
    rw [hvideoBlocks, haudioBlocks]
    -- the file of the slot is the one of before, or gone
    rcases disk_next cfg env hmux idx with h | h
    · exact hI.slots idx f (h ▸ hf)
    · rw [h] at hf
      cases hf

/-- A slot of one of the blocks has the beginning of one, or nothing. -/
theorem SlotInv.written_or_empty {R idx : ℕ} {video audio : List (List ℕ)} {f : SegmentFile}
    (h : SlotInv R src video audio idx f) (hslot : ∃ t < video.length, t % R = idx) :
    f.file.packets = [] ∨ ∃ t, t % R = idx ∧ t < video.length ∧ video.length ≤ t + R ∧
      Begins src.videoPayload video t (contents 0 f.file.packets) ∧
      Begins src.audioPayload audio t (contents 1 f.file.packets) := by
  cases htick : f.tick with
  | none => exact .inl (h.truncated htick hslot)
  | some t => exact .inr ⟨t, h.written t htick⟩

theorem slotInv_truncated (R : ℕ) (src : Source) (video audio : List (List ℕ)) (idx : ℕ) :
    SlotInv R src video audio idx { file := TsFile.truncated } :=
  ⟨nofun, fun _ _ => rfl⟩

/-- The slot of the newest block. -/
theorem slotInv_newest {R : ℕ} (hR : 0 < R) {video audio : List (List ℕ)}
    (hlength : audio.length = video.length) {videoIds audioIds : List ℕ} {file : TsFile}
    (hvideo : contents 0 file.packets <+: videoIds.map src.videoPayload)
    (haudio : contents 1 file.packets <+: audioIds.map src.audioPayload) :
    SlotInv R src (video ++ [videoIds]) (audio ++ [audioIds]) (video.length % R)
      { file := file, tick := some video.length } := by
  refine ⟨?_, nofun⟩
  intro t ht
  obtain rfl : video.length = t := Option.some.inj ht
  rw [List.length_append, List.length_singleton]
  refine ⟨rfl, by omega, by omega, .of_front ?_ hvideo, .of_front ?_ haudio⟩
  · rw [List.getElem?_append_right le_rfl, Nat.sub_self]
    rfl
  · rw [List.getElem?_append_right hlength.le, hlength, Nat.sub_self]
    rfl

/-- The other slots, with one more block. -/
theorem SlotInv.append {R idx : ℕ} {video audio : List (List ℕ)} {f : SegmentFile}
    (h : SlotInv R src video audio idx f) (hlength : audio.length = video.length)
    (hidx : idx ≠ video.length % R) (videoIds audioIds : List ℕ) :
    SlotInv R src (video ++ [videoIds]) (audio ++ [audioIds]) idx f := by
  refine ⟨fun t ht => ?_, fun ht hslot => ?_⟩
  · obtain ⟨hmod, hlt, hlap, hvideo, haudio⟩ := h.written t ht
    -- the new block would have come to the same slot one lap later
    have hother : video.length ≠ t + R := by
      intro heq
      rw [heq, Nat.add_mod_right] at hidx
      exact hidx hmod.symm
    rw [List.length_append, List.length_singleton]
    exact ⟨hmod, by omega, by omega, hvideo.append hlt _, haudio.append (hlength.symm ▸ hlt) _⟩
  · obtain ⟨t, hlt, hmod⟩ := hslot
    rw [List.length_append, List.length_singleton] at hlt
    have hne : t ≠ video.length := fun heq => hidx (heq ▸ hmod.symm)
    exact h.truncated ht ⟨t, by omega, hmod⟩

/-- What a successful save leaves in the slot. -/
theorem savedFile_of_ok {calls : MuxCalls} (h : (s.save cfg env calls).result.failed = false) :
    ∃ file, s.savedFile cfg env calls = some { file := file, tick := some s.seq } ∧
      contents 0 file.packets <+: s.video.snapshotFrames.map EncodedVideoFrame.payload ∧
      contents 1 file.packets <+: s.audio.snapshotFrames.map EncodedAudioFrame.payload := by
  have hsetup : calls.setupSucceeds s.video.snapshotFrames s.audio.snapshotFrames := by
    -- a save that succeeds has been set up
    by_contra hnot
    rw [show (s.save cfg env calls).result.failed = true from
      (saveAvToTs_of_not_setupSucceeds env _ _ hnot).1] at h
    cases h
  obtain ⟨file, hfile, hpackets⟩ : ∃ file, (s.save cfg env calls).file = some file ∧
      file.packets = (env.muxLoop calls.packet s.video.snapshotFrames
        s.audio.snapshotFrames).filterMap WriteCall.packet? :=
    ⟨_, (saveAvToTs_of_setupSucceeds env (segPath cfg s.idx)
      ((s.disk s.idx).map SegmentFile.file) hsetup).2.2, rfl⟩
  refine ⟨file, ?_, ?_⟩
  · simp [ThreadState.savedFile, h, hfile]
  · rw [hpackets]
    exact contents_interleave ..

/-- A failed save leaves the slot as it was, or truncated. -/
theorem savedFile_of_failed {calls : MuxCalls} (h : (s.save cfg env calls).result.failed = true) :
    s.savedFile cfg env calls = s.disk s.idx ∨
      s.savedFile cfg env calls = some { file := TsFile.truncated } := by
  have hfile : (s.save cfg env calls).file = _ :=
    (saveAvToTs_of_not_setupSucceeds env (segPath cfg s.idx)
      ((s.disk s.idx).map SegmentFile.file) ((saveAvToTs_failed_iff ..).mp h)).2.2
  unfold ThreadState.savedFile
  simp only [h, if_true]
  -- the two ways in which the slot can be left
  split_ifs with hsame
  · exact .inl rfl
  · rw [hfile] at hsame ⊢
    split_ifs at hsame ⊢ with htruncated
    · exact .inr rfl
    · exact absurd rfl hsame

/-- **Step**: the mux writes the next block into its slot, or leaves no packets there, or leaves
    the slot as it was. -/
theorem contentInv_mux (hR : 0 < cfg.ringSize) {calls : MuxCalls} (hS : StopInv cfg s)
    (hI : ContentInv cfg src s) (hen : s.enabled (.tickMux calls)) :
    ContentInv cfg src (s.next cfg env (.tickMux calls)) := by
  have hpc : s.tick = .audioTaken := hen
  obtain ⟨hvideo, haudio, hlength, hcounted, hreset, hslots⟩ := hI
  have hidx : s.idx = s.seq % cfg.ringSize := hS.idx_eq (by rw [hpc]; rfl)
  -- the tick thread runs, so the stop path has not come to its end
  have hrunning : s.stop ≠ .stopped := by
    intro hstopped
    have hexited : s.tick = .exited := hS.joined_of_stopped hstopped
    rw [hpc] at hexited
    cases hexited
  -- before the mux no block is open: those counted are the saved ones
  have hvideoBlocks : s.videoBlocks = s.video.saved := by
    rw [ThreadState.videoBlocks, hpc]
    exact List.append_nil _
  have haudioBlocks : s.audioBlocks = s.audio.saved := by
    rw [ThreadState.audioBlocks, hpc]
    exact List.append_nil _
  have hseq : s.video.saved.length = s.seq := by
    rw [← hvideoBlocks, hcounted hrunning, hpc]
    rfl
  rw [hvideoBlocks, haudioBlocks] at hlength hslots
  have hdisk (idx : ℕ) : (s.next cfg env (.tickMux calls)).disk idx =
      if idx = s.idx then s.savedFile cfg env calls else s.disk idx :=
    Function.update_apply ..
  obtain ⟨hvideo', haudio'⟩ : (s.next cfg env (.tickMux calls)).video.Ordered src.video ∧
      (s.next cfg env (.tickMux calls)).audio.Ordered src.audio :=
    ordered_next cfg env hvideo haudio trivial
  cases hres : (s.save cfg env calls).result.failed with
  -- the save has failed: no block is added, and the slot has no packets, or what it had
  | true =>
    have hnext : (s.next cfg env (.tickMux calls)).saveOk = false := by
      simp [ThreadState.next, hres]
    have hvideoNext : (s.next cfg env (.tickMux calls)).videoBlocks = s.video.saved := by
      rw [ThreadState.videoBlocks, hnext]
      exact List.append_nil _
    have haudioNext : (s.next cfg env (.tickMux calls)).audioBlocks = s.audio.saved := by
      rw [ThreadState.audioBlocks, hnext]
      exact List.append_nil _
    refine ⟨hvideo', haudio', ?_, fun _ => ?_, hreset, fun idx f hf => ?_⟩
    · rw [hvideoNext, haudioNext, hlength]
    · rw [hvideoNext, hnext]
      exact hseq
    · rw [hvideoNext, haudioNext]
      rw [hdisk] at hf
      split_ifs at hf
      · rcases savedFile_of_failed hres with hsame | htruncated
        · exact hslots idx f (by rw [‹idx = s.idx›, ← hsame, hf])
        · rw [htruncated] at hf
          obtain rfl := Option.some.inj hf
          exact slotInv_truncated ..
      · exact hslots idx f hf
  -- the save has succeeded: its block is the newest, and this slot is the one of the newest
  | false =>
    have hnext : (s.next cfg env (.tickMux calls)).saveOk = true := by
      simp [ThreadState.next, hres]
    have hvideoNext : (s.next cfg env (.tickMux calls)).videoBlocks =
        s.video.saved ++ [s.video.takenIds] := by
      rw [ThreadState.videoBlocks, hnext]
      rfl
    have haudioNext : (s.next cfg env (.tickMux calls)).audioBlocks =
        s.audio.saved ++ [s.audio.takenIds] := by
      rw [ThreadState.audioBlocks, hnext]
      rfl
    obtain ⟨file, hfile, hvideoPart, haudioPart⟩ := savedFile_of_ok hres
    rw [hvideo.snapshotFrames_eq, List.map_map] at hvideoPart
    rw [haudio.snapshotFrames_eq, List.map_map] at haudioPart
    refine ⟨hvideo', haudio', ?_, fun _ => ?_, hreset, fun idx f hf => ?_⟩
    · rw [hvideoNext, haudioNext, List.length_append, List.length_append, hlength]
      rfl
    · rw [hvideoNext, hnext, List.length_append, hseq]
      rfl
    · rw [hvideoNext, haudioNext]
      rw [hdisk] at hf
      split_ifs at hf with heq
      · rw [hfile] at hf
        obtain rfl := Option.some.inj hf
        rw [heq, hidx, ← hseq]
        exact slotInv_newest hR hlength hvideoPart haudioPart
      · -- a slot that is not this one has none of its number
        refine (hslots idx f hf).append hlength ?_ _ _
        rwa [hseq, ← hidx]

/-- **Step**: every step keeps the content of the slots. -/
theorem contentInv_next {a : Action} (hR : 0 < cfg.ringSize) (hS : StopInv cfg s)
    (hI : ContentInv cfg src s) (hfeed : src.feeds s a) (hen : s.enabled a) :
    ContentInv cfg src (s.next cfg env a) := by
  by_cases hmux : ∃ calls, a = .tickMux calls
  · obtain ⟨calls, rfl⟩ := hmux
    exact contentInv_mux hR hS hI hen
  · exact contentInv_next_of_ne_mux hS hI hfeed hen fun calls heq => hmux ⟨calls, heq⟩

end Slots

/-! ## What is played -/

/-- What ffmpeg finds of a stream in a file that may be gone. -/
def playable (streamIndex : ℕ) (f : Option SegmentFile) : List Payload :=
  contents streamIndex ((f.map fun f => f.file.packets).getD [])

/-- A stream of the files that an export has read. -/
def ExportRun.played (streamIndex : ℕ) (e : ExportRun) : List Payload :=
  e.read.flatMap (playable streamIndex)

/-- The files give frames of the segments before the `n`-th in the order of their pushes, but that
    some of the `n`-th segment itself may come first. -/
def Plays (payload : ℕ → Payload) (blocks : List (List ℕ)) (n streamIndex : ℕ)
    (files : List (Option SegmentFile)) : Prop :=
  ∃ ids, Ring.NewestFirst blocks n ids ∧
    files.flatMap (playable streamIndex) = ids.map payload

/-- The files that are read are those of a list, as far as they are still there. -/
def ReadFrom (read files : List (Option SegmentFile)) : Prop :=
  List.Forall₂ (fun r f => r = none ∨ r = f) read (files.take read.length)

section Plays

variable {payload : ℕ → Payload} {blocks : List (List ℕ)} {n streamIndex : ℕ}
  {read files : List (Option SegmentFile)}

theorem Plays.nil : Plays payload blocks n streamIndex [] := ⟨[], .nil .., rfl⟩

theorem Plays.append (h : Plays payload blocks n streamIndex files) (more : List (List ℕ)) :
    Plays payload (blocks ++ more) n streamIndex files := by
  obtain ⟨ids, hids, hfiles⟩ := h
  exact ⟨ids, hids.append more, hfiles⟩

theorem exists_sublist_of_forall₂
    (h : List.Forall₂ (fun r f => r = none ∨ r = f) read files) {ids : List ℕ}
    (hfiles : files.flatMap (playable streamIndex) = ids.map payload) :
    ∃ ids' : List ℕ, ids'.Sublist ids ∧
      read.flatMap (playable streamIndex) = ids'.map payload := by
  induction h generalizing ids with
  | nil => exact ⟨[], List.nil_sublist _, rfl⟩
  | @cons r f read files hr _ ih =>
    rw [List.flatMap_cons] at hfiles
    obtain ⟨first, rest, rfl, hfirst, hrest⟩ := List.map_eq_append_iff.mp hfiles.symm
    obtain ⟨rest', hsub, hread⟩ := ih hrest.symm
    rw [List.flatMap_cons, hread]
    rcases hr with rfl | rfl
    · -- the file was gone: its frames are missing, and the others stay in their order
      exact ⟨rest', hsub.trans (List.sublist_append_right _ _), rfl⟩
    · -- the file was there
      refine ⟨first ++ rest', (List.Sublist.refl _).append hsub, ?_⟩
      rw [List.map_append, hfirst]

/-- What is read of a list plays as the list does. -/
theorem Plays.of_readFrom (h : Plays payload blocks n streamIndex files)
    (hread : ReadFrom read files) : Plays payload blocks n streamIndex read := by
  obtain ⟨ids, hids, hfiles⟩ := h
  rw [← List.take_append_drop read.length files, List.flatMap_append] at hfiles
  obtain ⟨first, rest, rfl, hfirst, -⟩ := List.map_eq_append_iff.mp hfiles.symm
  obtain ⟨ids', hsub, hplayed⟩ := exists_sublist_of_forall₂ hread hfirst.symm
  exact ⟨ids', hids.sublist (hsub.trans (List.sublist_append_left first rest)), hplayed⟩

theorem ReadFrom.nil : ReadFrom [] files := List.Forall₂.nil

/-- The next file of the list. -/
theorem ReadFrom.concat (h : ReadFrom read files) (hlt : read.length < files.length)
    {r : Option SegmentFile} (hr : r = none ∨ r = files[read.length]) :
    ReadFrom (read ++ [r]) files := by
  unfold ReadFrom
  rw [List.length_append, List.length_singleton, List.take_add_one,
    List.getElem?_eq_getElem hlt]
  exact List.rel_append h (.cons hr .nil)

end Plays

/-- **The list of an export** plays frames in order, but that the newest may come first. -/
theorem plays_window {R streamIndex n k : ℕ} {disk : ℕ → Option SegmentFile}
    {payload : ℕ → Payload} {blocks : List (List ℕ)} (hn : n ≤ blocks.length)
    (hN : blocks.length ≤ n + 1)
    (hslot : ∀ t < blocks.length, ∀ f, disk (t % R) = some f →
      contents streamIndex f.file.packets = [] ∨ ∃ u, u % R = t % R ∧ u < blocks.length ∧
        blocks.length ≤ u + R ∧ Begins payload blocks u (contents streamIndex f.file.packets)) :
    Plays payload blocks n streamIndex ((Ring.window R n k).map fun t => disk (t % R)) := by
  have hids : ∀ t ∈ Ring.window R n k, ∃ ids : List ℕ,
      playable streamIndex (disk (t % R)) = ids.map payload ∧
        (ids = [] ∨ ∃ u, u % R = t % R ∧ u < blocks.length ∧ blocks.length ≤ u + R ∧
          ids.Sublist (blocks[u]?.getD [])) := by
    intro t ht
    have hlt : t < blocks.length := (Ring.mem_window.mp ht).1.trans_le hn
    -- the slot of a segment of the window: gone, without packets, or with one lap's block
    cases hdisk : disk (t % R) with
    | none => exact ⟨[], rfl, .inl rfl⟩
    | some f =>
      rcases hslot t hlt f hdisk with hnone | ⟨u, hmod, hu, hlap, ids, hprefix, hstream⟩
      · exact ⟨[], hnone, .inl rfl⟩
      · exact ⟨ids, hstream, .inr ⟨u, hmod, hu, hlap, hprefix.sublist⟩⟩
  choose! g hplay hg using hids
  refine ⟨(Ring.window R n k).flatMap g, Ring.newestFirst_window hn hN hg, ?_⟩
  rw [List.flatMap_map, List.map_flatMap]
  exact List.flatMap_congr hplay

/-! ## Every export -/

/-- What an export has listed can be played in order, but that the newest segment may come first,
    the same one in both streams; and what ffmpeg opens is what the export has listed as far as
    that is still there. -/
structure ExportRun.PlaysOnce (src : Source) (video audio : List (List ℕ)) (e : ExportRun) :
    Prop where
  read : ReadFrom e.read (e.slots.map Prod.snd)
  plays : ∃ n, Plays src.videoPayload video n 0 (e.slots.map Prod.snd) ∧
    Plays src.audioPayload audio n 1 (e.slots.map Prod.snd)

structure ExportsPlay (src : Source) (s : ThreadState) : Prop where
  running : s.mutex = .export → s.run.PlaysOnce src s.videoBlocks s.audioBlocks ∧
    ∀ p ∈ s.run.slots, s.disk p.1 = none ∨ s.disk p.1 = p.2
  finished : ∀ e ∈ s.exported, e.PlaysOnce src s.videoBlocks s.audioBlocks

section Exports

variable {cfg : Config} {env : SegmentEnv} {src : Source} {s : ThreadState}

theorem ExportRun.PlaysOnce.append {e : ExportRun} {video audio : List (List ℕ)}
    (h : e.PlaysOnce src video audio) (moreVideo moreAudio : List (List ℕ)) :
    e.PlaysOnce src (video ++ moreVideo) (audio ++ moreAudio) := by
  obtain ⟨hread, n, hvideo, haudio⟩ := h
  exact ⟨hread, n, hvideo.append _, haudio.append _⟩

/-- A step after which no export runs, and which has finished none. -/
theorem ExportsPlay.of_not_exporting {s' : ThreadState} (hE : ExportsPlay src s)
    (hmutex : s'.mutex ≠ .export) (hexported : s'.exported = s.exported)
    (hvideo : s'.videoBlocks = s.videoBlocks) (haudio : s'.audioBlocks = s.audioBlocks) :
    ExportsPlay src s' := by
  refine ⟨fun hexport => absurd hexport hmutex, ?_⟩
  rw [hexported, hvideo, haudio]
  exact hE.finished

/-- A step that leaves the exports and the segments alone, but for files that go. -/
theorem ExportsPlay.of_same {s' : ThreadState} (hE : ExportsPlay src s)
    (hmutex : s'.mutex = s.mutex) (hlisted : s'.run.listed = s.run.listed)
    (hread : s'.run.read = s.run.read) (hexported : s'.exported = s.exported)
    (hvideo : s'.videoBlocks = s.videoBlocks) (haudio : s'.audioBlocks = s.audioBlocks)
    (hdisk : ∀ idx, s'.disk idx = s.disk idx ∨ s'.disk idx = none) : ExportsPlay src s' := by
  have hslots : s'.run.slots = s.run.slots := congrArg (·.getD []) hlisted
  refine ⟨fun hexport => ?_, ?_⟩
  · obtain ⟨⟨hreadFrom, hplays⟩, hkept⟩ := hE.running (hmutex ▸ hexport)
    rw [hvideo, haudio, hslots]
    refine ⟨⟨?_, ?_⟩, fun p hp => ?_⟩
    · rwa [hread, hslots]
    · rwa [hslots]
    · -- a file that has gone is not read any more
      rcases hdisk p.1 with hsame | hnone
      · rw [hsame]
        exact hkept p hp
      · exact .inl hnone
  · rw [hexported, hvideo, haudio]
    exact hE.finished

/-- The list of an export that begins now. -/
theorem playsOnce_exportList (hI : ContentInv cfg src s) (hread : s.run.read = []) :
    (s.next cfg env .exportList).run.PlaysOnce src s.videoBlocks s.audioBlocks := by
  have hslots : (s.next cfg env .exportList).run.slots.map Prod.snd =
      (Ring.window cfg.ringSize s.seq s.run.segments).map fun t => s.disk (t % cfg.ringSize) := by
    show ((exportWindow cfg s.seq s.run.segments).map _).map _ = _
    rw [exportWindow_eq, List.map_map, List.map_map]
    rfl
  have hreadFrom (files : List (Option SegmentFile)) :
      ReadFrom (s.next cfg env .exportList).run.read files := by
    show ReadFrom s.run.read files
    rw [hread]
    exact .nil
  by_cases hstop : s.stop = .stopped
  · -- `seq_` has been reset, and nothing is listed
    rw [hI.reset hstop, Ring.window_zero, List.map_nil] at hslots
    exact ⟨hreadFrom _, 0, hslots ▸ .nil, hslots ▸ .nil⟩
  · have hcounted := hI.counted hstop
    have hle : s.seq ≤ s.videoBlocks.length := hcounted ▸ Nat.le_add_right ..
    -- `seq_` is behind by one between the mux and the advance
    have hlt : s.videoBlocks.length ≤ s.seq + 1 := by
      rw [hcounted]
      split_ifs <;> omega
    have hlength : s.audioBlocks.length = s.videoBlocks.length := hI.length_audio
    refine ⟨hreadFrom _, s.seq, ?_, ?_⟩
    · rw [hslots]
      refine plays_window hle hlt fun t ht f hf => ?_
      have hslot := (hI.slots _ f hf).written_or_empty ⟨t, ht, rfl⟩
      rcases hslot with hempty | ⟨u, hmod, hu, hlap, h, -⟩
      · exact .inl (by rw [hempty]; rfl)
      · exact .inr ⟨u, hmod, hu, hlap, h⟩
    · rw [hslots]
      rw [← hlength] at hle hlt
      -- the same segment is the newest for the sound, since both streams have as many blocks
      refine plays_window hle hlt fun t ht f hf => ?_
      have hslot := (hI.slots _ f hf).written_or_empty ⟨t, hlength ▸ ht, rfl⟩
      rcases hslot with hempty | ⟨u, hmod, hu, hlap, -, h⟩
      · exact .inl (by rw [hempty]; rfl)
      · rw [← hlength] at hu hlap
        exact .inr ⟨u, hmod, hu, hlap, h⟩

/-- The mux adds a block, or none. -/
theorem blocks_mux (cfg : Config) (env : SegmentEnv) (calls : MuxCalls)
    (hen : s.enabled (.tickMux calls)) :
    ∃ moreVideo moreAudio : List (List ℕ),
      (s.next cfg env (.tickMux calls)).videoBlocks = s.videoBlocks ++ moreVideo ∧
        (s.next cfg env (.tickMux calls)).audioBlocks = s.audioBlocks ++ moreAudio := by
  have hpc : s.tick = .audioTaken := hen
  refine ⟨if (s.next cfg env (.tickMux calls)).saveOk then [s.video.takenIds] else [],
    if (s.next cfg env (.tickMux calls)).saveOk then [s.audio.takenIds] else [], ?_, ?_⟩
  · rw [ThreadState.videoBlocks, ThreadState.videoBlocks, hpc]
    exact congrArg (· ++ _) (List.append_nil _).symm
  · rw [ThreadState.audioBlocks, ThreadState.audioBlocks, hpc]
    exact congrArg (· ++ _) (List.append_nil _).symm

/-- **Step**: every export keeps playing what it can. -/
theorem exportsPlay_next {a : Action} (hS : StopInv cfg s) (hI : ContentInv cfg src s)
    (hE : ExportsPlay src s) (hen : s.enabled a) : ExportsPlay src (s.next cfg env a) := by
  have hfree : Holder.free ≠ .export := by decide
  have htick : Holder.tick ≠ .export := by decide
  by_cases hmux : ∃ calls, a = .tickMux calls
  · obtain ⟨calls, rfl⟩ := hmux
    obtain ⟨moreVideo, moreAudio, hvideo, haudio⟩ := blocks_mux cfg env calls hen
    refine ⟨fun hexport => ?_, fun e he => ?_⟩
    · -- the tick holds the mutex, so no export is running
      have hcritical : s.mutex = .tick := hS.critical (by rw [show s.tick = _ from hen]; rfl)
      exact absurd (hcritical.symm.trans hexport) htick
    · rw [hvideo, haudio]
      exact (hE.finished e he).append moreVideo moreAudio
  obtain ⟨hvideo, haudio⟩ := blocks_next cfg env hen fun calls heq => hmux ⟨calls, heq⟩
  have hdisk := disk_next (s := s) cfg env fun calls heq => hmux ⟨calls, heq⟩
  cases a with
  | tickMux calls => exact absurd ⟨calls, rfl⟩ hmux
  | tickUnlock =>
    have hunlocked : (s.next cfg env .tickUnlock).mutex = .free ∧
        (s.next cfg env .tickUnlock).exported = s.exported := by
      unfold ThreadState.next
      cases s.saveOk with
      | true => exact ⟨rfl, rfl⟩
      | false => exact ⟨rfl, rfl⟩
    exact hE.of_not_exporting (hunlocked.1 ▸ hfree) hunlocked.2 hvideo haudio
  | tickLock => exact hE.of_not_exporting htick rfl hvideo haudio
  | exportLock segments =>
    refine ⟨fun _ => ⟨⟨.nil, 0, .nil, .nil⟩, List.forall_mem_nil _⟩, ?_⟩
    rw [hvideo, haudio]
    exact hE.finished
  | exportList =>
    -- nothing has been read before there is a list
    have hread := (hE.running hen.1).1.read
    have hslots : s.run.slots = [] := by
      rw [ExportRun.slots, hen.2.2]
      rfl
    rw [hslots] at hread
    unfold ReadFrom at hread
    rw [List.map_nil, List.take_nil] at hread
    rw [List.forall₂_nil_right_iff] at hread
    refine ⟨fun _ => ⟨?_, fun p hp => ?_⟩, ?_⟩
    · rw [hvideo, haudio]
      exact playsOnce_exportList hI hread
    · -- what is recorded with a slot is what is there at this moment
      obtain ⟨idx, -, rfl⟩ := List.mem_map.mp hp
      exact .inr rfl
    · rw [hvideo, haudio]
      exact hE.finished
  | exportRead =>
    obtain ⟨⟨hread, hplays⟩, hslots⟩ := hE.running hen.1
    have hlt : s.run.read.length < s.run.slots.length := hen.2.2
    have hnext : s.run.nextSlot = s.run.slots[s.run.read.length].1 := by
      unfold ExportRun.nextSlot
      rw [List.getElem?_eq_getElem hlt]
      rfl
    refine ⟨fun _ => ⟨⟨?_, ?_⟩, hslots⟩, ?_⟩
    · -- the slot that is read next still has its file, or none
      refine hread.concat (by rwa [List.length_map]) ?_
      rw [hnext, List.getElem_map]
      exact hslots _ (List.getElem_mem hlt)
    · rw [hvideo, haudio]
      exact hplays
    · rw [hvideo, haudio]
      exact hE.finished
  | exportUnlock succeeded =>
    refine ⟨fun hexport => absurd hexport hfree, fun e he => ?_⟩
    rw [hvideo, haudio]
    rcases List.mem_append.mp he with hold | hnew
    · exact hE.finished e hold
    · rw [List.mem_singleton.mp hnew]
      exact (hE.running hen.1).1
  | tickBegin | tickTakeVideo | tickTakeAudio | tickClearVideo | tickClearAudio | tickAdvance
  | tickExit | pushVideo | pushAudio | exportCreate | exportFind | stopRequest | stopJoin
  | stopRemove | stopRemoveList | stopRemoved | stopReset =>
    exact hE.of_same rfl rfl rfl rfl hvideo haudio hdisk

theorem exportsPlay_of_reach (hR : 0 < cfg.ringSize)
    (h : Reach (segmenterSystem cfg env) src.feeds s) :
    ContentInv cfg src s ∧ ExportsPlay src s := by
  have hinv : (StopInv cfg s ∧ ContentInv cfg src s) ∧ ExportsPlay src s := by
    apply h.invariant_ofCommands
    · rintro _ ⟨videoCapacity, audioCapacity, stale, rfl⟩
      exact ⟨⟨stopInv_started .., contentInv_started ..⟩, nofun, nofun⟩
    · rintro s a ⟨⟨hS, hI⟩, hE⟩ hfeed hen
      exact ⟨⟨stopInv_next hS hen, contentInv_next hR hS hI hfeed hen⟩,
        exportsPlay_next hS hI hE hen⟩
  exact ⟨hinv.1.2, hinv.2⟩

/-- **What a saved recording plays**: in every run, whichever saves and packets fail and even
    while the recorder is stopped, an export gives ffmpeg frames that were pushed, each one once.
    They are of the segments before some segment `n`, in the order of their pushes, but that
    frames of this segment itself may come first; it is the same segment in both streams. -/
theorem export_plays_once (cfg : Config) (hR : 0 < cfg.ringSize) (env : SegmentEnv) (src : Source)
    (s : ThreadState) (h : Reach (segmenterSystem cfg env) src.feeds s) (e : ExportRun)
    (he : e ∈ s.exported) :
    ∃ (n : ℕ) (video audio : List ℕ),
      (Ring.NewestFirst s.videoBlocks n video ∧ video.Nodup ∧ ∀ m ∈ video, m < s.video.pushed) ∧
      (Ring.NewestFirst s.audioBlocks n audio ∧ audio.Nodup ∧ ∀ m ∈ audio, m < s.audio.pushed) ∧
      (s.videoBlocks.flatten.Pairwise (· < ·) ∧ s.audioBlocks.flatten.Pairwise (· < ·)) ∧
      e.played 0 = video.map src.videoPayload ∧ e.played 1 = audio.map src.audioPayload := by
  obtain ⟨hI, hE⟩ := exportsPlay_of_reach hR h
  obtain ⟨hvideoAscend, hvideoPushed⟩ := hI.video.blocks_fit (s.tick.wroteVideo s.saveOk)
  obtain ⟨haudioAscend, haudioPushed⟩ := hI.audio.blocks_fit (s.tick.wroteAudio s.saveOk)
  obtain ⟨hread, n, hvideo, haudio⟩ := hE.finished e he
  obtain ⟨video, hvideoIds, hvideoPlayed⟩ := hvideo.of_readFrom hread
  obtain ⟨audio, haudioIds, haudioPlayed⟩ := haudio.of_readFrom hread
  refine ⟨n, video, audio, ⟨hvideoIds, hvideoIds.nodup hvideoAscend, fun m hm => ?_⟩,
    ⟨haudioIds, haudioIds.nodup haudioAscend, fun m hm => ?_⟩, ⟨hvideoAscend, haudioAscend⟩,
    hvideoPlayed, haudioPlayed⟩
  · exact hvideoPushed m (hvideoIds.subset hm)
  · exact haudioPushed m (haudioIds.subset hm)

end Exports

/-- Video frames that can be told apart. -/
def numbered : Source where
  video n := { videoFrame with data := [UInt8.ofNat n] }
  audio _ := audioFrame

def numberedTick (n : ℕ) : List Action :=
  [.pushVideo (numbered.video n), .pushAudio (numbered.audio n)] ++ tickActions {} false

/-- Two ticks, and a third one that has released the mutex when an export runs. -/
def exportNewestFirst : List Action :=
  numberedTick 0 ++ numberedTick 1 ++ (numberedTick 2).take 8 ++
    [.exportLock 2, .exportCreate, .exportList, .exportFind, .exportRead, .exportRead,
      .exportUnlock true]

/-- The witness: frame 2 is played before frame 1. -/
theorem export_plays_once_newestFirst :
    ∃ (s : ThreadState) (e : ExportRun), e ∈ s.exported ∧ e.played 0 = [([2], true), ([1], true)] ∧
      ∃ (n : ℕ) (video audio : List ℕ),
        (Ring.NewestFirst s.videoBlocks n video ∧ video.Nodup ∧ ∀ m ∈ video, m < s.video.pushed) ∧
        (Ring.NewestFirst s.audioBlocks n audio ∧ audio.Nodup ∧ ∀ m ∈ audio, m < s.audio.pushed) ∧
        (s.videoBlocks.flatten.Pairwise (· < ·) ∧ s.audioBlocks.flatten.Pairwise (· < ·)) ∧
        e.played 0 = video.map numbered.videoPayload ∧
        e.played 1 = audio.map numbered.audioPayload := by
  have hinit : Reach (segmenterSystem twoSlots smallEnv) numbered.feeds
      (ThreadState.started 60 16 fun _ => none) :=
    .init ⟨60, 16, fun _ => none, rfl⟩
  obtain ⟨s, hreach, hs⟩ := hinit.exists_of_run exportNewestFirst
    (fun s => decide (s.exported.map (ExportRun.played 0) = [[([2], true), ([1], true)]]))
    (by decide)
  obtain ⟨e, hexported, hplayed⟩ := List.map_eq_singleton_iff.mp (of_decide_eq_true hs)
  have he : e ∈ s.exported := by
    rw [hexported]
    exact List.mem_singleton_self e
  exact ⟨s, e, he, hplayed,
    export_plays_once twoSlots (by decide) smallEnv numbered s hreach e he⟩

end AVCapture.Core
