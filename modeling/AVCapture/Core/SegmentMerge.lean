import Mathlib.Algebra.Order.Field.Rat
import Mathlib.Tactic.FieldSimp
import Mathlib.Tactic.Linarith
import Mathlib.Tactic.Positivity
import AVCapture.Core.SegmentWriter
import AVCapture.Lib.Merge

/-!
# The Mux Loop as a Merge

The loop of `save_av_to_ts` (`core/RollingSegments.cpp`) takes the earlier of the two heads,
video first on ties, until one of the snapshots has run out. When every packet is accepted
it is a merge in the sense of `TwoWayMerge`, of the frames by their rebased times.

The loop ends with the first stream that runs out. The other one still holds the frame it
was compared with, and after the loop nothing writes it.

## Main results

- `interleave_merges`: the loop is a two-way merge
- `muxLoop_isMerge`: what is written is in order, and a prefix of either stream
- `packetsToWrite_eq`: how many packets a tick writes, from the timestamps
- `saveAvToTs_leftover`, `saveAvToTs_leaves_frame`: some frame of a committed segment is never
  written
-/

namespace AVCapture.Core

open TwoWayMerge

/-! ## Time -/

def AVRational.Positive (tb : AVRational) : Prop := 0 < tb.num ∧ 0 < tb.den

instance (tb : AVRational) : Decidable tb.Positive := inferInstanceAs (Decidable (_ ∧ _))

/-- A timestamp in seconds. -/
def AVRational.seconds (tb : AVRational) (ts : Int) : ℚ := ts * tb.num / tb.den

theorem AVRational.seconds_le_seconds {tb : AVRational} (htb : tb.Positive) {s t : Int}
    (h : s ≤ t) : tb.seconds s ≤ tb.seconds t := by
  have hnum : (0 : ℚ) ≤ tb.num := by exact_mod_cast htb.1.le
  have hden : (0 : ℚ) ≤ tb.den := by exact_mod_cast htb.2.le
  have hts : (s : ℚ) ≤ t := by exact_mod_cast h
  exact div_le_div_of_nonneg_right (mul_le_mul_of_nonneg_right hts hnum) hden

/-- `av_compare_ts` as it is documented: -1, 1 or 0 as the first time is earlier, later or
    the same. -/
def Muxer.ComparesExactly (mx : Muxer) : Prop :=
  ∀ (a b : Int) (tbA tbB : AVRational), tbA.Positive → tbB.Positive →
    mx.compareTs a tbA b tbB =
      if tbA.seconds a < tbB.seconds b then -1
      else if tbB.seconds b < tbA.seconds a then 1 else 0

theorem Muxer.ComparesExactly.le_zero_iff {mx : Muxer} (h : mx.ComparesExactly) {a b : Int}
    {tbA tbB : AVRational} (htbA : tbA.Positive) (htbB : tbB.Positive) :
    mx.compareTs a tbA b tbB ≤ 0 ↔ tbA.seconds a ≤ tbB.seconds b := by
  rw [h a b tbA tbB htbA htbB]
  split
  · rename_i hlt
    exact ⟨fun _ => hlt.le, fun _ => by omega⟩
  · split
    · rename_i _ hgt
      exact ⟨fun h => absurd h (by omega), fun hle => absurd hgt (not_lt.mpr hle)⟩
    · rename_i _ hge
      exact ⟨fun _ => not_lt.mp hge, fun _ => by omega⟩

/-- Comparing by cross-multiplication is exact. -/
theorem mpegts_comparesExactly (fps sampleRate frameSize : Int) :
    (SegmentEnv.mpegts fps sampleRate frameSize).mx.ComparesExactly := by
  intro a b tbA tbB htbA htbB
  have hdenA : (0 : ℚ) < tbA.den := by exact_mod_cast htbA.2
  have hdenB : (0 : ℚ) < tbB.den := by exact_mod_cast htbB.2
  have hlt : tbA.seconds a < tbB.seconds b ↔ a * tbA.num * tbB.den < b * tbB.num * tbA.den := by
    unfold AVRational.seconds
    rw [div_lt_div_iff₀ hdenA hdenB]
    exact_mod_cast Iff.rfl
  have hgt : tbB.seconds b < tbA.seconds a ↔ b * tbB.num * tbA.den < a * tbA.num * tbB.den := by
    unfold AVRational.seconds
    rw [div_lt_div_iff₀ hdenB hdenA]
    exact_mod_cast Iff.rfl
  -- the sign of the difference, in the three cases
  show Int.sign (a * tbA.num * tbB.den - b * tbB.num * tbA.den) = _
  rcases lt_trichotomy (a * tbA.num * tbB.den) (b * tbB.num * tbA.den) with h | h | h
  · rw [if_pos (hlt.mpr h)]
    exact Int.sign_eq_neg_one_of_neg (by omega)
  · rw [if_neg (by rw [hlt]; omega), if_neg (by rw [hgt]; omega), h, Int.sub_self]
    rfl
  · rw [if_neg (by rw [hlt]; omega), if_pos (hgt.mpr h)]
    exact Int.sign_eq_one_of_pos (by omega)

/-! ## The loop is a merge -/

theorem PacketCalls.eq_of_succeed {c : PacketCalls} (h : c.succeed = true) : c = {} := by
  obtain ⟨a, n, w⟩ := c
  cases a <;> cases n <;> cases w <;> first | rfl | cases h

/-- When a video frame is shown, in seconds from the start of the segment. -/
def LoopParams.videoTime (p : LoopParams) (v : EncodedVideoFrame) : ℚ :=
  p.videoCodec.timeBase.seconds (v.pts - p.videoDiff)

def LoopParams.audioTime (p : LoopParams) (a : EncodedAudioFrame) : ℚ :=
  p.audioCodec.timeBase.seconds (a.pts - p.audioDiff)

theorem LoopParams.videoFirst_iff {p : LoopParams} (hcmp : p.mx.ComparesExactly)
    (hvideo : p.videoCodec.timeBase.Positive) (haudio : p.audioCodec.timeBase.Positive)
    (v : EncodedVideoFrame) (a : EncodedAudioFrame) :
    p.videoFirst v a ↔ p.videoTime v ≤ p.audioTime a :=
  hcmp.le_zero_iff hvideo haudio

/-- The call that writes a frame of either stream. -/
def LoopParams.write (p : LoopParams) : EncodedVideoFrame ⊕ EncodedAudioFrame → WriteCall :=
  Sum.elim (p.writeVideo {}) (p.writeAudio {})

/-- **The loop is a merge**: when every packet is accepted, its calls are those of a merge
    that stops when a stream runs out. -/
theorem interleave_merges (p : LoopParams) {calls : Nat → PacketCalls}
    (hok : ∀ n, (calls n).succeed = true) (fuel n : Nat) (vs : List EncodedVideoFrame)
    (as : List EncodedAudioFrame) (hfuel : vs.length + as.length ≤ fuel) :
    ∃ out vs' as', Merges p.videoFirst vs as out vs' as' ∧
      interleave p calls fuel n vs as = out.map p.write := by
  induction fuel generalizing n vs as with
  | zero =>
    -- without fuel both snapshots are empty
    have hvs : vs = [] := List.eq_nil_of_length_eq_zero (by omega)
    subst hvs
    exact ⟨[], [], as, .leftOut as, rfl⟩
  | succ fuel ih =>
    match vs, as with
    | [], as => exact ⟨[], [], as, .leftOut as, rfl⟩
    | v :: vs, [] => exact ⟨[], v :: vs, [], .rightOut _, rfl⟩
    | v :: vs, a :: as =>
      have hgood : ({} : PacketCalls).succeed = true := rfl
      simp only [List.length_cons] at hfuel
      -- one packet, of the head that the merge takes
      by_cases hfirst : p.videoFirst v a
      · obtain ⟨out, vs', as', hout, heq⟩ :=
          ih (n + 1) vs (a :: as) (by simp only [List.length_cons]; omega)
        refine ⟨.inl v :: out, vs', as', .takeLeft hfirst hout, ?_⟩
        simp [interleave, hfirst, heq, PacketCalls.eq_of_succeed (hok n), hgood, LoopParams.write]
      · obtain ⟨out, vs', as', hout, heq⟩ :=
          ih (n + 1) (v :: vs) as (by simp only [List.length_cons]; omega)
        refine ⟨.inr a :: out, vs', as', .takeRight hfirst hout, ?_⟩
        simp [interleave, hfirst, heq, PacketCalls.eq_of_succeed (hok n), hgood, LoopParams.write]

/-- The calls that write to the stream `i`. -/
def onStream (i : Nat) (writes : List WriteCall) : List WriteCall :=
  writes.filter fun w => w.streamIndex == i

theorem onStream_video (p : LoopParams) (out : List (EncodedVideoFrame ⊕ EncodedAudioFrame)) :
    onStream 0 (out.map p.write) = (lefts out).map (p.writeVideo {}) := by
  induction out with
  | nil => rfl
  | cons x out ih =>
    cases x with
    | inl v => exact congrArg (p.writeVideo {} v :: ·) ih
    | inr a => exact ih

theorem onStream_audio (p : LoopParams) (out : List (EncodedVideoFrame ⊕ EncodedAudioFrame)) :
    onStream 1 (out.map p.write) = (rights out).map (p.writeAudio {}) := by
  induction out with
  | nil => rfl
  | cons x out ih =>
    cases x with
    | inl v => exact ih
    | inr a => exact congrArg (p.writeAudio {} a :: ·) ih

/-! ## What is written -/

/-- When the frame of a write is shown, in seconds from the start of the segment. -/
def SegmentEnv.presentation (env : SegmentEnv) (w : WriteCall) : ℚ :=
  if w.streamIndex = 0 then env.videoCodec.timeBase.seconds w.pts
  else env.audioCodec.timeBase.seconds w.pts

/-- What a write passes on of its frame, and the timestamps it gives it. -/
def WriteCall.args (w : WriteCall) : List UInt8 × Int × Int × Bool :=
  (w.data, w.pts, w.dts, w.isKeyFrame)

def EncodedVideoFrame.shifted (shift : Int) (frame : EncodedVideoFrame) :
    List UInt8 × Int × Int × Bool :=
  (frame.data, frame.pts - shift, frame.dts - shift, frame.isKeyFrame)

def EncodedAudioFrame.shifted (shift : Int) (frame : EncodedAudioFrame) :
    List UInt8 × Int × Int × Bool :=
  (frame.data, frame.pts - shift, frame.dts - shift, frame.isKeyFrame)

/-- The writes are a merge of the first `nv` video frames and the first `na` audio frames
    of the snapshots, shifted by two constants. -/
structure SegmentEnv.IsMerge (env : SegmentEnv) (vs : List EncodedVideoFrame)
    (as : List EncodedAudioFrame) (writes : List WriteCall) (videoShift audioShift : Int)
    (nv na : Nat) : Prop where
  accepted : ∀ w ∈ writes, w.failed = false ∧ (w.streamIndex = 0 ∨ w.streamIndex = 1)
  video : (onStream 0 writes).map WriteCall.args = (vs.take nv).map (·.shifted videoShift)
  audio : (onStream 1 writes).map WriteCall.args = (as.take na).map (·.shifted audioShift)
  ordered : writes.Pairwise fun w w' => env.presentation w ≤ env.presentation w' ∧
    (w.streamIndex = 1 → w'.streamIndex = 0 → env.presentation w < env.presentation w')
  complete : vs.drop nv = [] ∨ as.drop na = []
  videoLeft : ∀ v ∈ vs.drop nv, ∀ w ∈ writes,
    env.presentation w ≤ env.videoCodec.timeBase.seconds (v.pts - videoShift)
  audioLeft : ∀ a ∈ as.drop na, ∀ w ∈ writes,
    env.presentation w ≤ env.audioCodec.timeBase.seconds (a.pts - audioShift)

/-- A merge that stops when a stream runs out has written a prefix of either stream. -/
theorem take_drop_of_merges {p : LoopParams} {vs vs' : List EncodedVideoFrame}
    {as as' : List EncodedAudioFrame} {out : List (EncodedVideoFrame ⊕ EncodedAudioFrame)}
    (h : Merges p.videoFirst vs as out vs' as') :
    (lefts out = vs.take (lefts out).length ∧ vs' = vs.drop (lefts out).length) ∧
      (rights out = as.take (rights out).length ∧ as' = as.drop (rights out).length) := by
  refine ⟨?_, ?_⟩
  · rw [← h.lefts_append]
    exact ⟨List.take_left.symm, List.drop_left.symm⟩
  · rw [← h.rights_append]
    exact ⟨List.take_left.symm, List.drop_left.symm⟩

/-- **The mux loop is a correct merge**: the loop comes to its end, with one stream written
    completely; either stream is written in order, from its first frame, with both
    timestamps shifted by one constant; everything is written in the order of presentation,
    video first on ties; and no frame left is earlier than one written. -/
theorem muxLoop_isMerge (env : SegmentEnv) {calls : Nat → PacketCalls}
    (vs : List EncodedVideoFrame) (as : List EncodedAudioFrame)
    (hvs : vs.Pairwise fun v v' => v.pts ≤ v'.pts) (has : as.Pairwise fun a a' => a.pts ≤ a'.pts)
    (hvideo : env.videoCodec.timeBase.Positive) (haudio : env.audioCodec.timeBase.Positive)
    (hcmp : env.mx.ComparesExactly) (hok : ∀ n, (calls n).succeed = true) :
    (∀ extra, interleave (env.loopParams vs as) calls (vs.length + as.length + extra) 0 vs as =
        env.muxLoop calls vs as) ∧
      ∃ videoShift audioShift nv na,
        env.IsMerge vs as (env.muxLoop calls vs as) videoShift audioShift nv na := by
  refine ⟨fun extra => interleave_fuel _ _ _ _ _ _ _ le_rfl, ?_⟩
  obtain ⟨out, vs', as', hout, heq⟩ :=
    interleave_merges (env.loopParams vs as) hok (vs.length + as.length) 0 vs as le_rfl
  have hwrites : env.muxLoop calls vs as = out.map (env.loopParams vs as).write := heq
  obtain ⟨⟨hlefts, rfl⟩, hrights, rfl⟩ := take_drop_of_merges hout
  refine ⟨videoFramesDiff vs, audioFramesDiff env.audioCodec.frameSize as,
    (lefts out).length, (rights out).length, ?_⟩
  rw [hwrites]
  -- the keys of the merge are the presentation times of the writes
  have hkey : ∀ x, env.presentation ((env.loopParams vs as).write x) =
      Sum.elim (env.loopParams vs as).videoTime (env.loopParams vs as).audioTime x := by
    intro x
    cases x <;> rfl
  have hpairs := hout.pairwise _ _ (LoopParams.videoFirst_iff hcmp hvideo haudio)
    (hvs.imp fun h => AVRational.seconds_le_seconds hvideo (by omega))
    (has.imp fun h => AVRational.seconds_le_seconds haudio (by omega))
  -- the rests come after all that was written
  obtain ⟨hsorted, -, hleft⟩ := List.pairwise_append.mp hpairs
  refine ⟨?_, ?_, ?_, ?_, hout.exhausted, ?_, ?_⟩
  · intro w hw
    obtain ⟨x, -, rfl⟩ := List.mem_map.mp hw
    cases x with
    | inl v => exact ⟨LoopParams.failed_writeVideo .., Or.inl rfl⟩
    | inr a => exact ⟨LoopParams.failed_writeAudio .., Or.inr rfl⟩
  · rw [onStream_video, ← hlefts, List.map_map]
    rfl
  · rw [onStream_audio, ← hrights, List.map_map]
    rfl
  · refine List.pairwise_map.mpr (hsorted.imp fun {x y} h => ?_)
    rw [hkey, hkey]
    refine ⟨h.1, fun hx hy => h.2 ?_ ?_⟩
    · cases x with
      | inl v => cases hx
      | inr a => rfl
    · cases y with
      | inl v => rfl
      | inr a => cases hy
  · intro v hv w hw
    obtain ⟨x, hx, rfl⟩ := List.mem_map.mp hw
    rw [hkey]
    exact (hleft x hx (.inl v) (List.mem_append_left _ (List.mem_map_of_mem hv))).1
  · intro a ha w hw
    obtain ⟨x, hx, rfl⟩ := List.mem_map.mp hw
    rw [hkey]
    exact (hleft x hx (.inr a) (List.mem_append_right _ (List.mem_map_of_mem ha))).1

/-- The witness: two streams of two frames, at 30 frames and 48000 samples a second. -/
theorem muxLoop_isMerge_twoFrames :
    ∃ videoShift audioShift nv na, (SegmentEnv.mpegts 30 48000 1024).IsMerge
      [⟨[1], 4, 4, 0⟩, ⟨[2], 5, 5, 0⟩] [⟨[3], 0, 0, true⟩, ⟨[4], 1024, 1024, true⟩]
      ((SegmentEnv.mpegts 30 48000 1024).muxLoop (fun _ => {})
        [⟨[1], 4, 4, 0⟩, ⟨[2], 5, 5, 0⟩] [⟨[3], 0, 0, true⟩, ⟨[4], 1024, 1024, true⟩])
      videoShift audioShift nv na :=
  (muxLoop_isMerge _ _ _ (by decide) (by decide) (by decide) (by decide)
    (mpegts_comparesExactly 30 48000 1024) (fun _ => rfl)).2

/-! ## What is left behind -/

/-- Every frame of both snapshots is written exactly once, in some order. -/
def SaveOutcome.WritesEveryFrame (o : SaveOutcome) (p : LoopParams)
    (vs : List EncodedVideoFrame) (as : List EncodedAudioFrame) : Prop :=
  (onStream 0 o.writes).Perm (vs.map (p.writeVideo {})) ∧
    (onStream 1 o.writes).Perm (as.map (p.writeAudio {}))

/-- The writes of a merge are all the frames only if it leaves nothing. -/
theorem rests_eq_nil_of_perm {p : LoopParams} {vs vs' : List EncodedVideoFrame}
    {as as' : List EncodedAudioFrame} {out : List (EncodedVideoFrame ⊕ EncodedAudioFrame)}
    (h : Merges p.videoFirst vs as out vs' as')
    (hvideo : (onStream 0 (out.map p.write)).Perm (vs.map (p.writeVideo {})))
    (haudio : (onStream 1 (out.map p.write)).Perm (as.map (p.writeAudio {}))) :
    vs' = [] ∧ as' = [] := by
  rw [onStream_video, ← h.lefts_append] at hvideo
  rw [onStream_audio, ← h.rights_append] at haudio
  -- a rearrangement of a snapshot has its length, which leaves none for the rest
  have hlenVideo := hvideo.length_eq
  have hlenAudio := haudio.length_eq
  simp only [List.map_append, List.length_append, List.length_map] at hlenVideo hlenAudio
  exact ⟨List.eq_nil_of_length_eq_zero (by omega), List.eq_nil_of_length_eq_zero (by omega)⟩

/-- **How many packets** a tick hands to the muxer, from the timestamps of the snapshots alone:
    all of the stream that ends first, and of the other one what comes before its last frame. -/
theorem packetsToWrite_eq (env : SegmentEnv) {vs : List EncodedVideoFrame}
    {as : List EncodedAudioFrame} (hvs : vs.Pairwise fun v v' => v.pts ≤ v'.pts)
    (has : as.Pairwise fun a a' => a.pts ≤ a'.pts) (hvideo : env.videoCodec.timeBase.Positive)
    (haudio : env.audioCodec.timeBase.Positive) (hcmp : env.mx.ComparesExactly)
    {lastVideo : EncodedVideoFrame} {lastAudio : EncodedAudioFrame}
    (hlastVideo : vs.getLast? = some lastVideo) (hlastAudio : as.getLast? = some lastAudio) :
    let p := env.loopParams vs as
    env.packetsToWrite vs as =
      if p.videoTime lastVideo ≤ p.audioTime lastAudio then
        vs.length + as.countP fun a => p.audioTime a < p.videoTime lastVideo
      else as.length + vs.countP fun v => p.videoTime v ≤ p.audioTime lastAudio := by
  intro p
  have hok (n : Nat) : ((fun _ => {} : Nat → PacketCalls) n).succeed = true := rfl
  obtain ⟨out, vs', as', hout, heq⟩ :=
    interleave_merges p hok (vs.length + as.length) 0 vs as le_rfl
  have hlength : env.packetsToWrite vs as = out.length :=
    (congrArg List.length heq).trans (List.length_map _)
  rw [hlength]
  exact hout.length_out _ _ (LoopParams.videoFirst_iff hcmp hvideo haudio)
    (hvs.imp fun h => AVRational.seconds_le_seconds hvideo (by omega))
    (has.imp fun h => AVRational.seconds_le_seconds haudio (by omega)) hlastVideo hlastAudio

/-- **The two ways** of a save in which every packet is accepted. When a call before the loop
    fails, it writes nothing and returns the error, so that the tick keeps both buffers. When
    none does, it returns success and has written all of one stream and not the last frame of
    the other one. -/
theorem saveAvToTs_leftover (env : SegmentEnv) {calls : MuxCalls} (tsPath : String)
    {vs : List EncodedVideoFrame} {as : List EncodedAudioFrame} (before : Option TsFile)
    (hvs : vs ≠ []) (has : as ≠ []) (hok : ∀ n, (calls.packet n).succeed = true) :
    let o := saveAvToTs env calls tsPath vs as before
    (¬ calls.setupSucceeds vs as → o.result.failed = true ∧ o.writes = []) ∧
      (calls.setupSucceeds vs as → o.result = .ok () ∧
        ∃ out vs' as', Merges (env.loopParams vs as).videoFirst vs as out vs' as' ∧
          o.writes = out.map (env.loopParams vs as).write ∧ (vs' = [] ∨ as' = []) ∧
          (vs' ≠ [] ∨ as' ≠ [])) := by
  refine ⟨fun hsetup => ?_, fun hsetup => ?_⟩
  · obtain ⟨hfailed, hwrites, -⟩ := saveAvToTs_of_not_setupSucceeds env tsPath before hsetup
    exact ⟨hfailed, hwrites⟩
  · obtain ⟨hresult, hwrites, -⟩ := saveAvToTs_of_setupSucceeds env tsPath before hsetup
    obtain ⟨out, vs', as', hout, heq⟩ :=
      interleave_merges (env.loopParams vs as) hok (vs.length + as.length) 0 vs as le_rfl
    exact ⟨hresult, out, vs', as', hout, hwrites.trans heq, hout.exhausted,
      hout.leftover hvs has⟩

/-- **A frame is always left**: when every packet is accepted, the save does not write every
    frame of two non-empty snapshots. One stream runs out first, and the loop ends with the
    other one's next frame unwritten. -/
theorem saveAvToTs_leaves_frame (env : SegmentEnv) (calls : MuxCalls) (tsPath : String)
    (vs : List EncodedVideoFrame) (as : List EncodedAudioFrame) (before : Option TsFile)
    (hvs : vs ≠ []) (has : as ≠ []) (hok : ∀ n, (calls.packet n).succeed = true) :
    ¬ (saveAvToTs env calls tsPath vs as before).WritesEveryFrame (env.loopParams vs as) vs as := by
  intro hall
  obtain ⟨herror, hloop⟩ := saveAvToTs_leftover env tsPath before hvs has hok
  by_cases hsetup : calls.setupSucceeds vs as
  · obtain ⟨-, out, vs', as', hout, hwrites, -, hleft⟩ := hloop hsetup
    unfold SaveOutcome.WritesEveryFrame at hall
    rw [hwrites] at hall
    obtain ⟨hvs', has'⟩ := rests_eq_nil_of_perm hout hall.1 hall.2
    exact hleft.elim (fun h => h hvs') fun h => h has'
  · -- an early return has written nothing at all
    have hnone := hall.1
    rw [(herror hsetup).2] at hnone
    have hlen := hnone.length_eq
    rw [List.length_map] at hlen
    exact hvs (List.eq_nil_of_length_eq_zero hlen.symm)

/-- The witness: two frames and one. -/
theorem saveAvToTs_leaves_frame_twoFrames :
    ¬ (saveAvToTs (SegmentEnv.mpegts 30 48000 1024) {} "segment_0.ts"
        [⟨[1], 0, 0, 0⟩, ⟨[2], 1, 1, 0⟩] [⟨[3], 0, 0, true⟩] none).WritesEveryFrame
      ((SegmentEnv.mpegts 30 48000 1024).loopParams
        [⟨[1], 0, 0, 0⟩, ⟨[2], 1, 1, 0⟩] [⟨[3], 0, 0, true⟩])
      [⟨[1], 0, 0, 0⟩, ⟨[2], 1, 1, 0⟩] [⟨[3], 0, 0, true⟩] :=
  saveAvToTs_leaves_frame _ {} _ _ _ _ (by simp) (by simp) (fun _ => rfl)

/-- One frame of either stream: the video frame is written, the audio frame is not, and
    the save is a success. -/
theorem oneFrameEach_leaves_audio :
    (saveAvToTs (SegmentEnv.mpegts 30 48000 1024) {} "segment_0.ts"
        [⟨[1], 0, 0, 0⟩] [⟨[3], 0, 0, true⟩] none).result = .ok () ∧
      ¬ (saveAvToTs (SegmentEnv.mpegts 30 48000 1024) {} "segment_0.ts"
          [⟨[1], 0, 0, 0⟩] [⟨[3], 0, 0, true⟩] none).WritesEveryFrame
        ((SegmentEnv.mpegts 30 48000 1024).loopParams [⟨[1], 0, 0, 0⟩] [⟨[3], 0, 0, true⟩])
        [⟨[1], 0, 0, 0⟩] [⟨[3], 0, 0, true⟩] := by
  refine ⟨rfl, fun h => ?_⟩
  have hlen := h.2.length_eq
  revert hlen
  decide

end AVCapture.Core
