import AVCapture.Core.SegmentThreads
import AVCapture.Lib.Ownership

/-!
# The Handles of the Segment Writer

What `save_av_to_ts` and `write_packet_to_stream` (`core/RollingSegments.cpp`) take from FFmpeg
and give back: a format context, the file behind it and a packet at a time. Most of the early
returns of `save_av_to_ts` leave the format context behind.

The machine of `Core.SegmentThreads` is run with a ledger of these handles, and with a record of
what each save was given.

## Main results

- `turns_saveHandles`, `lost_saveHandles`: what a save loses
- `segmentHandlesInv_of_reach`: what is out in every state of every run of the threads
- `segmentHandles_lost`: what is lost is counted by the saves, and by the ticks without sound
-/

namespace AVCapture.Core

open AVCapture.Utils Ownership Transition

/-! ## What a save takes -/

/-- `write_packet_to_stream`, with the context and the file that the packet is written to. -/
def packetHandles (fmtCtx pb : AvKind × ℕ) (calls : PacketCalls) (L : Ledger AvKind) :
    Ledger AvKind :=
  if !calls.packetAlloc then L
  else
    let pkt := (AvKind.packet, L.next)
    let L := L.acquire .packet
    if !calls.newPacket then L.release pkt
    else (((L.use pkt).use fmtCtx).use pb).release pkt

/-- The packets of the loop, `count` of them from number `n` on. -/
def interleaveHandles (fmtCtx pb : AvKind × ℕ) (calls : ℕ → PacketCalls) :
    ℕ → ℕ → Ledger AvKind → Ledger AvKind
  | 0, _, L => L
  | count + 1, n, L =>
    interleaveHandles fmtCtx pb calls count (n + 1) (packetHandles fmtCtx pb (calls n) L)

/-- `save_av_to_ts` from `avio_open2` on. -/
def muxHandles (env : SegmentEnv) (calls : MuxCalls) (videoFrames : List EncodedVideoFrame)
    (audioFrames : List EncodedAudioFrame) (fmtCtx : AvKind × ℕ) (L : Ledger AvKind) :
    Ledger AvKind × List (AvKind × ℕ) :=
  match calls.avioOpen with
  | .failed _ => (L, [fmtCtx])
  | .opened =>
    let pb := (AvKind.ioContext, L.next)
    let L := L.acquire .ioContext
    if !calls.writeHeader then (L, [pb, fmtCtx])
    else
      let writes := (env.muxLoop calls.packet videoFrames audioFrames).length
      let L := interleaveHandles fmtCtx pb calls.packet writes 0 L
      -- the trailer, and then everything is closed
      ((((L.use fmtCtx).use pb).release pb).release fmtCtx, [])

/-- `save_av_to_ts`: the ledger, and the handles that were in local variables only when the
    function returned. -/
def saveHandles (env : SegmentEnv) (calls : MuxCalls) (videoFrames : List EncodedVideoFrame)
    (audioFrames : List EncodedAudioFrame) (L : Ledger AvKind) :
    Ledger AvKind × List (AvKind × ℕ) :=
  if videoFrames.isEmpty then (L, [])
  else if !calls.allocOutputContext then (L, [])
  else
    let fmtCtx := (AvKind.formatContext, L.next)
    let L := L.acquire .formatContext
    if !calls.newVideoStream then (L, [fmtCtx])
    else if !calls.videoParameters then (L.release fmtCtx, []) -- the one that frees it
    else if audioFrames.isEmpty then (L, [fmtCtx])
    else if !calls.newAudioStream then (L, [fmtCtx])
    else if !calls.audioParameters then (L, [fmtCtx])
    else muxHandles env calls videoFrames audioFrames fmtCtx L

/-- A context is there and is not freed. -/
def MuxCalls.losesContext (calls : MuxCalls) (videoFrames : List EncodedVideoFrame)
    (audioFrames : List EncodedAudioFrame) : Bool :=
  !videoFrames.isEmpty && calls.allocOutputContext &&
    (!calls.newVideoStream || calls.videoParameters) &&
      !decide (calls.setupSucceeds videoFrames audioFrames)

/-- A file is open and is not closed. -/
def MuxCalls.losesFile (calls : MuxCalls) (videoFrames : List EncodedVideoFrame)
    (audioFrames : List EncodedAudioFrame) : Bool :=
  decide (setupError calls videoFrames audioFrames = none ∧ calls.avioOpen = .opened ∧
    calls.writeHeader = false)

variable {L : Ledger AvKind} {fmtCtx pb : AvKind × ℕ} {xs : List (AvKind × ℕ)}

theorem turns_packetHandles (hfmt : fmtCtx ∈ xs) (hpb : pb ∈ xs) (calls : PacketCalls)
    (L : Ledger AvKind) : Turns L xs (packetHandles fmtCtx pb calls L) xs := by
  have hacquire := turns_acquire L .packet xs
  unfold packetHandles
  dsimp only
  -- no packet, one whose buffer could not be had, or one that is written
  split_ifs
  · exact .refl L xs
  · exact hacquire.trans (turns_release _ _ xs)
  · exact (((hacquire.trans (turns_use List.mem_cons_self _)).trans
      (turns_use (List.mem_cons_of_mem _ hfmt) _)).trans
        (turns_use (List.mem_cons_of_mem _ hpb) _)).trans (turns_release _ _ xs)

theorem turns_interleaveHandles (hfmt : fmtCtx ∈ xs) (hpb : pb ∈ xs) (calls : ℕ → PacketCalls)
    (count n : ℕ) (L : Ledger AvKind) :
    Turns L xs (interleaveHandles fmtCtx pb calls count n L) xs := by
  -- the packets are written one after the other, each given back
  induction count generalizing n L with
  | zero => exact .refl L xs
  | succ count ih => exact (turns_packetHandles hfmt hpb (calls n) L).trans (ih (n + 1) _)

theorem turns_muxHandles (env : SegmentEnv) (calls : MuxCalls) (vs : List EncodedVideoFrame)
    (as : List EncodedAudioFrame) (fmtCtx : AvKind × ℕ) (L : Ledger AvKind) :
    Turns L [fmtCtx] (muxHandles env calls vs as fmtCtx L).1
      (muxHandles env calls vs as fmtCtx L).2 := by
  have hfile := turns_acquire L .ioContext [fmtCtx]
  have hin : fmtCtx ∈ [(AvKind.ioContext, L.next), fmtCtx] :=
    List.mem_cons_of_mem _ List.mem_cons_self
  unfold muxHandles
  cases calls.avioOpen with
  | failed => exact .refl L _
  | opened =>
    dsimp only
    -- an unwritten header leaves the file open, and the context with it
    split_ifs
    · exact hfile
    · have hloop := turns_interleaveHandles hin List.mem_cons_self calls.packet
        (env.muxLoop calls.packet vs as).length 0 (L.acquire .ioContext)
      have htrailer := (hfile.trans hloop).trans
        ((turns_use hin _).trans (turns_use List.mem_cons_self _))
      have hclose (L' : Ledger AvKind) :=
        (turns_release L' (AvKind.ioContext, L.next) [fmtCtx]).trans (turns_release _ fmtCtx [])
      dsimp only
      exact htrailer.trans (hclose _)

/-- A save keeps account of everything, but returns without some of it. -/
theorem turns_saveHandles (env : SegmentEnv) (calls : MuxCalls) (vs : List EncodedVideoFrame)
    (as : List EncodedAudioFrame) (L : Ledger AvKind) :
    Turns L [] (saveHandles env calls vs as L).1 (saveHandles env calls vs as L).2 := by
  have hcontext := turns_acquire L .formatContext []
  unfold saveHandles
  dsimp only
  -- in the order of `save_av_to_ts`; only the parameters of the video free the context
  split_ifs
  · exact .refl L []
  · exact .refl L []
  · exact hcontext
  · exact hcontext.trans (turns_release _ _ [])
  · exact hcontext
  · exact hcontext
  · exact hcontext
  · exact hcontext.trans (turns_muxHandles env calls vs as _ _)

/-- **What a save loses**: nothing, the context, or the context and the file. -/
theorem lost_saveHandles (env : SegmentEnv) (calls : MuxCalls) (vs : List EncodedVideoFrame)
    (as : List EncodedAudioFrame) (L : Ledger AvKind) :
    (saveHandles env calls vs as L).2 =
      (if calls.losesFile vs as then [(.ioContext, L.next + 1)] else []) ++
        (if calls.losesContext vs as then [(.formatContext, L.next)] else []) := by
  unfold MuxCalls.losesFile MuxCalls.losesContext MuxCalls.setupSucceeds
  -- a setup that succeeds or fails, and behind the first one the file and the header
  rcases Option.eq_none_or_eq_some (setupError calls vs as) with hsetup | ⟨text, hsetup⟩
  · simp only [hsetup, true_and]
    unfold setupError at hsetup
    split_ifs at hsetup
    cases hopen : calls.avioOpen with
    | failed => simp_all [saveHandles, muxHandles]
    | opened => cases hheader : calls.writeHeader <;>
        simp_all [saveHandles, muxHandles, Ledger.acquire]
  · simp only [hsetup, reduceCtorEq, false_and]
    unfold setupError at hsetup
    split_ifs at hsetup <;> simp_all [saveHandles]

/-! ## The threads with a ledger -/

/-- What one `save_av_to_ts` was given: FFmpeg's answers and the two snapshots. -/
structure SavedWith where
  calls : MuxCalls
  video : List EncodedVideoFrame
  audio : List EncodedAudioFrame

def SavedWith.losesContext (w : SavedWith) : Bool := w.calls.losesContext w.video w.audio

def SavedWith.losesFile (w : SavedWith) : Bool := w.calls.losesFile w.video w.audio

/-- The threads, the ledger, and the handles that nobody knows any more. Recorded besides: the
    saves, the last one first. -/
structure LedgeredThreads where
  threads : ThreadState
  ledger : Ledger AvKind := {}
  lost : List (AvKind × ℕ) := []
  saves : List SavedWith := []

/-- A step of the threads; the save is the one that works with handles. -/
def LedgeredThreads.next (cfg : Config) (env : SegmentEnv) (s : LedgeredThreads) (a : Action) :
    LedgeredThreads :=
  match a with
  | .tickMux calls =>
    let video := s.threads.video.snapshotFrames
    let audio := s.threads.audio.snapshotFrames
    let (ledger, lost) := saveHandles env calls video audio s.ledger
    { threads := s.threads.next cfg env (.tickMux calls)
      ledger := ledger
      lost := lost ++ s.lost
      saves := { calls := calls, video := video, audio := audio } :: s.saves }
  | a => { s with threads := s.threads.next cfg env a }

def ledgeredSystem (cfg : Config) (env : SegmentEnv) : System LedgeredThreads Action :=
  .ofCommands
    (fun s => ∃ videoCapacity audioCapacity stale,
      s = { threads := ThreadState.started videoCapacity audioCapacity stale })
    (fun s a => s.threads.enabled a) (LedgeredThreads.next cfg env)

/-- What is out was lost by some save. -/
structure SegmentHandlesInv (s : LedgeredThreads) : Prop where
  owned : Owned s.ledger fun _ : Unit => s.lost
  context : s.lost.countP (fun x => decide (x.1 = .formatContext)) =
    s.saves.countP SavedWith.losesContext
  file : s.lost.countP (fun x => decide (x.1 = .ioContext)) = s.saves.countP SavedWith.losesFile
  length : s.lost.length =
    s.saves.countP SavedWith.losesContext + s.saves.countP SavedWith.losesFile

theorem SegmentHandlesInv.tickMux {s : LedgeredThreads} (h : SegmentHandlesInv s) (cfg : Config)
    (env : SegmentEnv) (calls : MuxCalls) :
    SegmentHandlesInv (s.next cfg env (.tickMux calls)) := by
  have hturns := turns_saveHandles env calls s.threads.video.snapshotFrames
    s.threads.audio.snapshotFrames s.ledger
  have hlost := lost_saveHandles env calls s.threads.video.snapshotFrames
    s.threads.audio.snapshotFrames s.ledger
  -- what was lost before is none of this save's business
  have howned := hturns.frame s.lost _ () h.owned rfl
  have hself (xs : List (AvKind × ℕ)) :
      Function.update (fun _ : Unit => s.lost) () xs = fun _ => xs := rfl
  rw [hself] at howned
  refine ⟨howned, ?_, ?_, ?_⟩
  -- the three counts grow by what this save has lost
  all_goals
    simp only [LedgeredThreads.next, hlost, List.countP_append, List.length_append,
      List.countP_cons, h.context, h.file, h.length]
    simp only [SavedWith.losesContext, SavedWith.losesFile]
    split_ifs <;> simp_all <;> omega

theorem segmentHandlesInv_of_reach {cfg : Config} {env : SegmentEnv} {s : LedgeredThreads}
    (h : Reachable (ledgeredSystem cfg env) s) : SegmentHandlesInv s := by
  refine h.invariant_ofCommands (fun s hs => ?_) fun s a hI _ _ => ?_
  · obtain ⟨_, _, _, rfl⟩ := hs
    exact ⟨owned_empty, rfl, rfl, rfl⟩
  · -- only the save has handles in its hands
    cases a with
    | tickMux calls => exact hI.tickMux cfg env calls
    | _ => exact ⟨hI.owned, hI.context, hI.file, hI.length⟩

/-- There are pictures and no sound, and FFmpeg does what it is asked for until then. -/
def SavedWith.silent (w : SavedWith) : Bool :=
  !w.video.isEmpty && w.audio.isEmpty && w.calls.allocOutputContext && w.calls.newVideoStream &&
    w.calls.videoParameters

theorem SavedWith.losesContext_of_silent {w : SavedWith} (h : w.silent = true) :
    w.losesContext = true := by
  simp only [SavedWith.silent, Bool.and_eq_true, Bool.not_eq_true'] at h
  obtain ⟨⟨⟨⟨hvideo, haudio⟩, halloc⟩, hstream⟩, hparameters⟩ := h
  -- the save gives up when it comes to the sound, with a context in its hands
  have hsetup : setupError w.calls w.video w.audio = some "No audio frames to write" := by
    simp [setupError, hvideo, haudio, halloc, hstream, hparameters]
  simp [SavedWith.losesContext, MuxCalls.losesContext, MuxCalls.setupSucceeds, hsetup, hvideo,
    halloc, hparameters]

/-- **What saves lose.** In every run of the threads, whichever of FFmpeg's calls fail, nothing
    is freed twice or used after it was freed. Between the steps what is out is lost: one format
    context for each save that returned an error behind its allocation, one exception apart, and
    one open file for each header that could not be written. A recorder without sound loses a
    context on every tick that has pictures, if the calls before those for the sound succeed. -/
theorem segmentHandles_lost {cfg : Config} {env : SegmentEnv} {s : LedgeredThreads}
    (h : Reachable (ledgeredSystem cfg env) s) :
    s.ledger.misused = false ∧
      (s.ledger.live.filter fun x => x.1 = .formatContext).card =
        s.saves.countP SavedWith.losesContext ∧
      (s.ledger.live.filter fun x => x.1 = .ioContext).card =
        s.saves.countP SavedWith.losesFile ∧
      s.ledger.live.card =
        s.saves.countP SavedWith.losesContext + s.saves.countP SavedWith.losesFile ∧
      s.saves.countP SavedWith.silent ≤ s.ledger.live.card := by
  obtain ⟨howned, hcontext, hfile, hlength⟩ := segmentHandlesInv_of_reach h
  have hothers : ∀ j : Unit, j ≠ () → (fun _ : Unit => s.lost) j = [] := by simp
  have hcard := howned.card hothers
  have hsilent : s.saves.countP SavedWith.silent ≤ s.saves.countP SavedWith.losesContext :=
    List.countP_mono_left fun w _ => SavedWith.losesContext_of_silent
  refine ⟨howned.sound, ?_, ?_, hcard.trans hlength, ?_⟩
  · rw [howned.card_filter hothers]
    exact hcontext
  · rw [howned.card_filter hothers]
    exact hfile
  · rw [hcard, hlength]
    exact hsilent.trans (Nat.le_add_right _ _)

/-- Two ticks without sound. -/
theorem segmentHandles_lost_silent :
    ∃ s, Reachable (ledgeredSystem { dir := "segments" } smallEnv) s ∧
      s.saves.countP SavedWith.silent = 2 ∧ 2 ≤ s.ledger.live.card := by
  let tick : List Action :=
    [.tickBegin, .tickLock, .tickTakeVideo, .tickTakeAudio, .tickMux {}, .tickUnlock]
  have hinit : Reachable (ledgeredSystem { dir := "segments" } smallEnv)
      { threads := ThreadState.started 8 8 fun _ => none } := .init ⟨8, 8, _, rfl⟩
  obtain ⟨s, hreach, hsilent⟩ := hinit.exists_of_run (.pushVideo videoFrame :: (tick ++ tick))
    (fun s => s.saves.countP SavedWith.silent = 2) (by decide)
  have hcount : s.saves.countP SavedWith.silent = 2 := by simpa using hsilent
  refine ⟨s, hreach, hcount, ?_⟩
  rw [← hcount]
  exact (segmentHandles_lost hreach).2.2.2.2

end AVCapture.Core
