import AVCapture.Core.SegmentWriter

/-!
# Rebasing the Timestamps of a Segment

`save_av_to_ts` (`core/RollingSegments.cpp`) takes the first timestamp of a snapshot to be
its last one less the steps of one frame each that the other frames would take. The two
agree as long as the stream has no holes. A frame that `push_frame` drops or the encoder
fails on has used up its timestamp all the same, and leaves one.

## Main results

- `first_sub_tailDiff_eq_zero_iff`: it is the first timestamp exactly without holes
- `rebased_iff_noHoles`: which snapshots are rebased to zero
-/

namespace AVCapture.Core

/-! ## The shift -/

/-- The computation of both shifts, for a stream whose frames are `step` apart. -/
def tailDiff (step : Int) (pts : List Int) : Int :=
  let diff := pts.getLast?.getD 0 - ((pts.length : Int) - 1) * step
  if diff < 0 then 0 else diff

theorem videoFramesDiff_eq (vs : List EncodedVideoFrame) :
    videoFramesDiff vs = tailDiff 1 (vs.map EncodedVideoFrame.pts) := by
  simp [videoFramesDiff, tailDiff, List.getLast?_map]

theorem audioFramesDiff_eq (frameSize : Int) (as : List EncodedAudioFrame) :
    audioFramesDiff frameSize as = tailDiff frameSize (as.map EncodedAudioFrame.pts) := by
  simp [audioFramesDiff, tailDiff, List.getLast?_map]

/-- Timestamps that increase, by at least `step` from one frame to the next. -/
def IncreasingBy (step : Int) (pts : List Int) : Prop :=
  pts.IsChain fun s t => s ≤ t ∧ s + step ≤ t

/-- No frame is missing between two frames of the stream. -/
def NoHoles (step : Int) (pts : List Int) : Prop := pts.IsChain fun s t => t = s + step

instance (step : Int) (pts : List Int) : Decidable (NoHoles step pts) :=
  inferInstanceAs (Decidable (List.IsChain _ pts))

/-- The last timestamp is at least as many steps from the first one as there are frames
    between them, and exactly as many without holes. -/
theorem getLast_of_increasingBy {step first : Int} {pts : List Int}
    (h : IncreasingBy step (first :: pts)) :
    first + pts.length * step ≤ (first :: pts).getLast (List.cons_ne_nil _ _) ∧
      ((first :: pts).getLast (List.cons_ne_nil _ _) = first + pts.length * step ↔
        NoHoles step (first :: pts)) := by
  induction pts generalizing first with
  | nil => simp [NoHoles]
  | cons second pts ih =>
    obtain ⟨⟨_, hstep⟩, hrest⟩ := List.isChain_cons_cons.mp h
    obtain ⟨hle, heq⟩ := ih hrest
    have hlen : ((second :: pts).length : Int) * step = pts.length * step + step := by
      rw [List.length_cons, Int.natCast_add, Int.add_mul]
      simp
    have hholes : NoHoles step (first :: second :: pts) ↔
        second = first + step ∧ NoHoles step (second :: pts) := List.isChain_cons_cons
    rw [List.getLast_cons (List.cons_ne_nil _ _), hlen, hholes, ← heq]
    -- a hole before the second frame adds to the later ones
    refine ⟨by omega, ?_⟩
    refine ⟨?_, ?_⟩
    · intro hlast
      exact ⟨by omega, by omega⟩
    · intro h
      omega

theorem tailDiff_cons {step first : Int} {pts : List Int} (hfirst : 0 ≤ first)
    (h : IncreasingBy step (first :: pts)) :
    tailDiff step (first :: pts) =
      (first :: pts).getLast (List.cons_ne_nil _ _) - pts.length * step := by
  have hle := (getLast_of_increasingBy h).1
  have hlen : ((first :: pts).length : Int) - 1 = pts.length := by simp
  unfold tailDiff
  rw [List.getLast?_eq_getLast_of_ne_nil (List.cons_ne_nil _ _), Option.getD_some, hlen]
  -- the clamp at zero does nothing
  exact if_neg (by omega)

/-- **The exact shift**: the first timestamp becomes zero exactly when no frame is
    missing. -/
theorem first_sub_tailDiff_eq_zero_iff {step first : Int} {pts : List Int} (hfirst : 0 ≤ first)
    (h : IncreasingBy step (first :: pts)) :
    first - tailDiff step (first :: pts) = 0 ↔ NoHoles step (first :: pts) := by
  rw [tailDiff_cons hfirst h, ← (getLast_of_increasingBy h).2]
  omega

/-- In a stream that increases, the first timestamp is the least. -/
theorem first_le_of_increasingBy {step first : Int} {pts : List Int}
    (h : IncreasingBy step (first :: pts)) : ∀ t ∈ first :: pts, first ≤ t := by
  -- only that no timestamp is smaller than the one before
  have hle : (first :: pts).IsChain (· ≤ ·) := List.IsChain.imp (fun _ _ h => h.1) h
  intro t ht
  rcases List.mem_cons.mp ht with rfl | ht
  · exact Int.le_refl _
  · exact (List.pairwise_cons.mp (List.isChain_iff_pairwise.mp hle)).1 t ht

/-! ## What is passed to the muxer -/

/-- Every call of the loop writes a frame of one of the snapshots, shifted. -/
theorem mem_interleave {p : LoopParams} {calls : Nat → PacketCalls} {fuel n : Nat}
    {vs : List EncodedVideoFrame} {as : List EncodedAudioFrame} {w : WriteCall}
    (hw : w ∈ interleave p calls fuel n vs as) :
    (∃ c, ∃ v ∈ vs, w = p.writeVideo c v) ∨ ∃ c, ∃ a ∈ as, w = p.writeAudio c a := by
  induction fuel generalizing n vs as with
  | zero => simp [interleave] at hw
  | succ fuel ih =>
    cases vs with
    | nil => simp [interleave] at hw
    | cons v vs =>
      cases as with
      | nil => simp [interleave] at hw
      | cons a as =>
        simp only [interleave] at hw
        split at hw
        · rcases List.mem_cons.mp hw with rfl | hw
          · exact Or.inl ⟨_, v, List.mem_cons_self, rfl⟩
          · split at hw
            · exact absurd hw List.not_mem_nil
            · rcases ih hw with ⟨c, v', hv', rfl⟩ | h
              · exact Or.inl ⟨c, v', List.mem_cons_of_mem v hv', rfl⟩
              · exact Or.inr h
        · rcases List.mem_cons.mp hw with rfl | hw
          · exact Or.inr ⟨_, a, List.mem_cons_self, rfl⟩
          · split at hw
            · exact absurd hw List.not_mem_nil
            · rcases ih hw with h | ⟨c, a', ha', rfl⟩
              · exact Or.inl h
              · exact Or.inr ⟨c, a', List.mem_cons_of_mem a ha', rfl⟩

/-- A video snapshot as the encoder gives it: timestamps from 0 on, each after the one
    before. -/
def VideoTimed (vs : List EncodedVideoFrame) : Prop :=
  (∀ v ∈ vs, 0 ≤ v.pts ∧ v.dts = v.pts) ∧ vs.Pairwise fun v v' => v.pts < v'.pts

def AudioTimed (frameSize : Int) (as : List EncodedAudioFrame) : Prop :=
  (∀ a ∈ as, 0 ≤ a.pts ∧ a.dts = a.pts) ∧ IncreasingBy frameSize (as.map EncodedAudioFrame.pts)

/-- The writes to stream `i` start from zero: the frame with the timestamp `first` is given
    zero, and none of the writes has a negative timestamp. -/
def RebasedToZero (shift : Int) (first : Option Int) (i : Nat) (writes : List WriteCall) : Prop :=
  first.map (· - shift) = some 0 ∧ ∀ w ∈ writes, w.streamIndex = i → 0 ≤ w.pts ∧ 0 ≤ w.dts

/-- The video stream of a save starts from zero. -/
def SegmentEnv.VideoRebased (env : SegmentEnv) (calls : Nat → PacketCalls)
    (vs : List EncodedVideoFrame) (as : List EncodedAudioFrame) : Prop :=
  RebasedToZero (videoFramesDiff vs) (vs.head?.map EncodedVideoFrame.pts) 0
    (env.muxLoop calls vs as)

def SegmentEnv.AudioRebased (env : SegmentEnv) (calls : Nat → PacketCalls)
    (vs : List EncodedVideoFrame) (as : List EncodedAudioFrame) : Prop :=
  RebasedToZero (audioFramesDiff env.audioCodec.frameSize as)
    (as.head?.map EncodedAudioFrame.pts) 1 (env.muxLoop calls vs as)

/-- One stream: when every write to it is of one of its timestamps, shifted, the stream is
    rebased to zero exactly when it has no holes. -/
theorem rebasedToZero_iff {step : Int} {pts : List Int} {i : Nat} {writes : List WriteCall}
    (hne : pts ≠ []) (hnonneg : ∀ t ∈ pts, 0 ≤ t) (hinc : IncreasingBy step pts)
    (hwrites : ∀ w ∈ writes, w.streamIndex = i →
      ∃ t ∈ pts, w.pts = t - tailDiff step pts ∧ w.dts = t - tailDiff step pts) :
    RebasedToZero (tailDiff step pts) pts.head? i writes ↔ NoHoles step pts := by
  cases pts with
  | nil => exact absurd rfl hne
  | cons first pts =>
    have hfirst : 0 ≤ first := hnonneg first List.mem_cons_self
    have hzero := first_sub_tailDiff_eq_zero_iff hfirst hinc
    refine ⟨fun h => hzero.mp (by simpa using h.1), fun h => ⟨by simpa using hzero.mpr h, ?_⟩⟩
    intro w hw hi
    obtain ⟨t, ht, hpts, hdts⟩ := hwrites w hw hi
    -- without holes the shift is the first timestamp, and the least
    have hle := first_le_of_increasingBy hinc t ht
    have heq := hzero.mpr h
    omega

/-- Every write to the video stream gives the two timestamps of a frame, which are one,
    shifted. -/
theorem videoWrites_shifted {env : SegmentEnv} {calls : Nat → PacketCalls}
    {vs : List EncodedVideoFrame} {as : List EncodedAudioFrame}
    (hdts : ∀ v ∈ vs, v.dts = v.pts) :
    ∀ w ∈ env.muxLoop calls vs as, w.streamIndex = 0 →
      ∃ t ∈ vs.map EncodedVideoFrame.pts,
        w.pts = t - tailDiff 1 (vs.map EncodedVideoFrame.pts) ∧
          w.dts = t - tailDiff 1 (vs.map EncodedVideoFrame.pts) := by
  intro w hw hi
  rw [← videoFramesDiff_eq]
  rcases mem_interleave hw with ⟨c, v, hv, rfl⟩ | ⟨c, a, ha, rfl⟩
  · refine ⟨v.pts, List.mem_map_of_mem hv, rfl, ?_⟩
    rw [← hdts v hv]
    rfl
  · -- an audio frame is written to the other stream
    cases hi

theorem audioWrites_shifted {env : SegmentEnv} {calls : Nat → PacketCalls}
    {vs : List EncodedVideoFrame} {as : List EncodedAudioFrame}
    (hdts : ∀ a ∈ as, a.dts = a.pts) :
    ∀ w ∈ env.muxLoop calls vs as, w.streamIndex = 1 →
      ∃ t ∈ as.map EncodedAudioFrame.pts,
        w.pts = t - tailDiff env.audioCodec.frameSize (as.map EncodedAudioFrame.pts) ∧
          w.dts = t - tailDiff env.audioCodec.frameSize (as.map EncodedAudioFrame.pts) := by
  intro w hw hi
  rw [← audioFramesDiff_eq]
  rcases mem_interleave hw with ⟨c, v, hv, rfl⟩ | ⟨c, a, ha, rfl⟩
  · cases hi
  · refine ⟨a.pts, List.mem_map_of_mem ha, rfl, ?_⟩
    rw [← hdts a ha]
    rfl

/-- **Where rebasing works**: a stream of the segment starts from zero, with no negative
    timestamp passed to the muxer, exactly when its snapshot has no holes. -/
theorem rebased_iff_noHoles (env : SegmentEnv) (calls : Nat → PacketCalls)
    (vs : List EncodedVideoFrame) (as : List EncodedAudioFrame) :
    (vs ≠ [] → VideoTimed vs →
        (env.VideoRebased calls vs as ↔ NoHoles 1 (vs.map EncodedVideoFrame.pts))) ∧
      (as ≠ [] → AudioTimed env.audioCodec.frameSize as →
        (env.AudioRebased calls vs as ↔
          NoHoles env.audioCodec.frameSize (as.map EncodedAudioFrame.pts))) := by
  refine ⟨?_, ?_⟩
  · intro hvs htimed
    have hinc : IncreasingBy 1 (vs.map EncodedVideoFrame.pts) := by
      apply List.Pairwise.isChain
      exact List.pairwise_map.mpr (htimed.2.imp fun h => ⟨by omega, by omega⟩)
    unfold SegmentEnv.VideoRebased
    rw [videoFramesDiff_eq, ← List.head?_map]
    apply rebasedToZero_iff (by simpa using hvs)
    · intro t ht
      obtain ⟨v, hv, rfl⟩ := List.mem_map.mp ht
      exact (htimed.1 v hv).1
    · exact hinc
    · exact videoWrites_shifted fun v hv => (htimed.1 v hv).2
  · intro has htimed
    unfold SegmentEnv.AudioRebased
    rw [audioFramesDiff_eq, ← List.head?_map]
    apply rebasedToZero_iff (by simpa using has)
    · intro t ht
      obtain ⟨a, ha, rfl⟩ := List.mem_map.mp ht
      exact (htimed.1 a ha).1
    · exact htimed.2
    · exact audioWrites_shifted fun a ha => (htimed.1 a ha).2

/-- The witness: a video stream without holes, and an audio stream with one. -/
theorem rebased_iff_noHoles_audioHole :
    (SegmentEnv.mpegts 30 48000 1024).VideoRebased (fun _ => {})
        [⟨[1], 4, 4, 0⟩, ⟨[2], 5, 5, 0⟩] [⟨[3], 0, 0, true⟩, ⟨[4], 4096, 4096, true⟩] ∧
      ¬ (SegmentEnv.mpegts 30 48000 1024).AudioRebased (fun _ => {})
        [⟨[1], 4, 4, 0⟩, ⟨[2], 5, 5, 0⟩] [⟨[3], 0, 0, true⟩, ⟨[4], 4096, 4096, true⟩] := by
  have h := rebased_iff_noHoles (SegmentEnv.mpegts 30 48000 1024) (fun _ => {})
    [⟨[1], 4, 4, 0⟩, ⟨[2], 5, 5, 0⟩] [⟨[3], 0, 0, true⟩, ⟨[4], 4096, 4096, true⟩]
  refine ⟨(h.1 (by simp) ⟨by decide, by decide⟩).mpr (by decide), fun hrebased => ?_⟩
  have hholes := (h.2 (by simp)
    ⟨by decide, List.IsChain.cons_cons ⟨by decide, by decide⟩ (List.IsChain.singleton _)⟩).mp
    hrebased
  revert hholes
  decide

/-- Frame 1 of three was dropped: the first frame of the segment is given the timestamp
    -1. -/
theorem droppedFrame_negative :
    VideoTimed [⟨[1], 0, 0, 0⟩, ⟨[2], 2, 2, 0⟩] ∧
      ¬ (SegmentEnv.mpegts 30 48000 1024).VideoRebased (fun _ => {})
        [⟨[1], 0, 0, 0⟩, ⟨[2], 2, 2, 0⟩] [⟨[3], 0, 0, true⟩] := by
  refine ⟨⟨by decide, by decide⟩, fun h => ?_⟩
  have hfirst := h.1
  revert hfirst
  decide

end AVCapture.Core
