import Mathlib.Algebra.Order.Ring.Int
import Mathlib.Tactic.NormNum
import AVCapture.Lib.Pacing

/-!
# The Pace of the Capture Loop

Model of `ScreenRecorderBase::recording_loop` (`core/video/ScreenRecorderBase.cpp`): the
deadline `next_frame_time`, which moves on by one frame duration, or to the current time if
the loop is behind.

Times are in nanoseconds of the steady clock. What the environment decides are the times
that pass: before a capture starts, during the capture, and in `sleep_until` past its
deadline.

## Main results

- `recordingLoop_paced`: the deadlines and the starts of the captures are paced
- `capture_pacing`: the earliest start of each capture, and the captures in a window
-/

namespace AVCapture.Platform

open Pacing

/-- `microseconds(1'000'000 / config_.fps_)` -/
def frameDuration (fps : ℤ) : ℤ := 1000 * (1000000 : ℤ).tdiv fps

/-- The times that pass in one round of the loop. -/
structure LoopDelays where
  idle : ℕ
  capture : ℕ
  overslept : ℕ

/-- The clock and `next_frame_time` at the head of the loop. -/
structure LoopState where
  now : ℤ
  nextFrameTime : ℤ

/-- When `capture_frame` is called in a round. -/
def LoopState.captureStart (s : LoopState) (delays : LoopDelays) : ℤ := s.now + delays.idle

/-- A round of `recording_loop`. -/
def LoopState.round (duration : ℤ) (s : LoopState) (delays : LoopDelays) : LoopState :=
  let now := s.captureStart delays + delays.capture
  let nextFrameTime := s.nextFrameTime + duration
  if now < nextFrameTime then
    -- `sleep_until(next_frame_time)`
    { now := nextFrameTime + delays.overslept, nextFrameTime := nextFrameTime }
  else { now := now, nextFrameTime := now }

/-- The loop that starts at the time `start`, before round `k`. A loop that is stopped has
    made some number of these rounds. -/
def recordingLoop (fps start : ℤ) (delays : ℕ → LoopDelays) : ℕ → LoopState
  | 0 => { now := start, nextFrameTime := start }
  | k + 1 => (recordingLoop fps start delays k).round (frameDuration fps) (delays k)

/-- The start of capture `k`. -/
def captureStart (fps start : ℤ) (delays : ℕ → LoopDelays) (k : ℕ) : ℤ :=
  (recordingLoop fps start delays k).captureStart (delays k)

/-! ## The pace -/

/-- What a round does to the deadline: it is the later one of the next deadline in the raster
    and the end of the capture. -/
theorem nextFrameTime_round (duration : ℤ) (s : LoopState) (delays : LoopDelays) :
    (s.round duration delays).nextFrameTime =
      max (s.nextFrameTime + duration) (s.captureStart delays + delays.capture) := by
  unfold LoopState.round
  by_cases h : s.captureStart delays + delays.capture < s.nextFrameTime + duration
  · simp only [if_pos h, max_eq_left h.le]
  · simp only [if_neg h, max_eq_right (not_lt.mp h)]

/-- The clock has passed the deadline at the head of the loop. -/
theorem nextFrameTime_le_now (duration : ℤ) (s : LoopState) (delays : LoopDelays) :
    (s.round duration delays).nextFrameTime ≤ (s.round duration delays).now := by
  unfold LoopState.round
  by_cases h : s.captureStart delays + delays.capture < s.nextFrameTime + duration
  · simp only [if_pos h]
    exact Int.le_add_of_nonneg_right (Int.natCast_nonneg _)
  · simp only [if_neg h]
    exact Int.le_refl _

theorem recordingLoop_paced (fps start : ℤ) (delays : ℕ → LoopDelays) :
    Paced (frameDuration fps) (fun k => (recordingLoop fps start delays k).nextFrameTime)
      (captureStart fps start delays) where
  advance k := by
    show _ ≤ ((recordingLoop fps start delays k).round _ (delays k)).nextFrameTime
    rw [nextFrameTime_round]
    exact le_max_left _ _
  notBefore k := by
    have hnow : (recordingLoop fps start delays k).nextFrameTime ≤
        (recordingLoop fps start delays k).now := by
      cases k with
      | zero => exact Int.le_refl _
      | succ k => exact nextFrameTime_le_now _ _ _
    exact hnow.trans (Int.le_add_of_nonneg_right (Int.natCast_nonneg _))
  resync k := by
    show _ ≤ ((recordingLoop fps start delays k).round _ (delays k)).nextFrameTime
    rw [nextFrameTime_round]
    -- the capture has started before it has ended
    exact le_max_of_le_right (Int.le_add_of_nonneg_right (Int.natCast_nonneg _))

theorem frameDuration_pos {fps : ℤ} (hlow : 1 ≤ fps) (hhigh : fps ≤ 1000000) :
    0 < frameDuration fps := by
  have hdiv : 1 ≤ (1000000 : ℤ).tdiv fps := by
    rw [Int.tdiv_eq_ediv_of_nonneg (by norm_num)]
    exact (Int.le_ediv_iff_mul_le (by omega)).mpr (by omega)
  unfold frameDuration
  omega

/-- **Capture pacing never bursts.** Whatever the captures take and however long the loop
    oversleeps, capture `k` does not start before `k` frame durations have passed, and in a
    window of length `L` at most `⌊L / d⌋ + 2` captures start. -/
theorem capture_pacing (fps : ℤ) (hlow : 1 ≤ fps) (hhigh : fps ≤ 1000000) (start : ℤ)
    (delays : ℕ → LoopDelays) :
    (∀ k : ℕ, start + k * frameDuration fps ≤ captureStart fps start delays k) ∧
      ∀ (n : ℕ) (t L : ℤ), 0 ≤ L →
        ((((Finset.range n).filter fun k =>
          t ≤ captureStart fps start delays k ∧
            captureStart fps start delays k ≤ t + L).card : ℕ) : ℤ) ≤
          L / frameDuration fps + 2 := by
  have hpaced := recordingLoop_paced fps start delays
  have hpos := frameDuration_pos hlow hhigh
  refine ⟨fun k => ?_, fun n t L hL => ?_⟩
  · have hstart := hpaced.le_start k
    rwa [nsmul_eq_mul] at hstart
  · obtain ⟨m, hm⟩ := Int.eq_ofNat_of_zero_le (Int.ediv_nonneg hL hpos.le)
    have hshort : L < (m + 1) • frameDuration fps := by
      have hlt := Int.lt_ediv_add_one_mul_self L hpos
      rw [hm] at hlt
      rw [nsmul_eq_mul]
      exact_mod_cast hlt
    rw [hm]
    exact_mod_cast hpaced.card_window_le hpos.le hshort t n

/-- The witness: 30 frames per second, with a first capture that takes 100 ms. -/
theorem capture_pacing_stall :
    0 + 2 * frameDuration 30 ≤
      captureStart 30 0
        (fun k => { idle := 0, capture := if k = 0 then 100000000 else 0, overslept := 0 }) 2 :=
  (capture_pacing 30 (by norm_num) (by norm_num) 0 _).1 2

end AVCapture.Platform
