import AVCapture.Platform.ScreenRecorderWindows

/-!
# Frames of a Locked Session

The lock handler sets `force_black_flag_`, and a capture that finds it set pushes a black
frame. Two other places clear the flag without asking whether the session is locked: the
end of a capture that has got a frame or has timed out, and the resume handler.

## Main results

- `blackWhileLocked_of_reach`: a locked session is recorded black in every run in which
  neither of the two clears the flag between a lock and the next unlock
- `lateClear_records_desktop`: a capture that was under way at the lock is enough
-/

namespace AVCapture.Platform

open Transition

/-- A call of `capture_frame` that began with the session locked pushes a black frame
    before it returns, and nothing else. -/
def BlackWhileLocked (s : WinState) : Prop :=
  s.beganLocked = true →
    s.pushed ≠ some .desktop ∧ (s.capture = .idle → s.pushed = some .black)

/-- From the first store of a lock handler to the first one of the next unlock handler,
    neither a capture nor a resume handler clears `force_black_flag_`. -/
def flagKept (s : WinState) : WinAction → Prop
  | .storeForceBlack => s.lockBegun = false
  | .resumeForceBlack => s.lockBegun = false
  | _ => True

instance WinState.decidableFlagKept (s : WinState) (a : WinAction) : Decidable (flagKept s a) := by
  unfold flagKept
  split <;> infer_instance

/-- While a lock is in force the flag is set, so that a call that begins then has nothing
    left to do but return. -/
structure LockInv (s : WinState) : Prop where
  handled : s.lockHandled = true → s.lockBegun = true
  locking : s.monitor = .locking → s.lockBegun = true
  flag : s.lockBegun = true → s.forceBlack = true
  black : s.beganLocked = true →
    s.pushed = some .black ∧ (s.capture = .idle ∨ s.capture = .returning)

theorem lockInv_init (lastFrame : Option Content) : LockInv { lastFrame := lastFrame } :=
  ⟨nofun, nofun, nofun, nofun⟩

/-- A call that began with the session locked is not in the middle of anything. -/
theorem LockInv.not_beganLocked {s : WinState} (hI : LockInv s) {pc : CapturePc}
    (hpc : s.capture = pc) (hidle : pc ≠ .idle) (hret : pc ≠ .returning) :
    s.beganLocked ≠ true := by
  intro h
  rcases (hI.black h).2 with h' | h'
  · exact hidle (hpc.symm.trans h')
  · exact hret (hpc.symm.trans h')

/-- The part of the state that a step between two accesses to the black flag leaves. -/
def SameLock (s s' : WinState) : Prop :=
  s'.forceBlack = s.forceBlack ∧ s'.monitor = s.monitor ∧ s'.lockBegun = s.lockBegun ∧
    s'.lockHandled = s.lockHandled ∧ s'.beganLocked = s.beganLocked

theorem sameLock_runReinitDuplication (s : WinState) (calls : ReinitCalls) :
    SameLock s (s.runReinitDuplication calls) := by
  unfold WinState.runReinitDuplication
  split <;> exact ⟨rfl, rfl, rfl, rfl, rfl⟩

theorem sameLock_runReinit (s : WinState) (calls : ReinitCalls) :
    SameLock s (s.runReinit calls) := by
  unfold WinState.runReinit
  split <;> exact ⟨rfl, rfl, rfl, rfl, rfl⟩

theorem sameLock_acquireFrame (s : WinState) (out : AcquireOutcome) :
    SameLock s (s.acquireFrame out) := by
  unfold WinState.acquireFrame
  split
  · exact ⟨rfl, rfl, rfl, rfl, rfl⟩
  · cases out with
    | timeout => cases s.lastFrame <;> exact ⟨rfl, rfl, rfl, rfl, rfl⟩
    | deviceLost calls => exact sameLock_runReinit s calls
    | _ => exact ⟨rfl, rfl, rfl, rfl, rfl⟩

/-- Such a step keeps the invariant when it is taken in the middle of a call. -/
theorem LockInv.of_sameLock {s s' : WinState} (hI : LockInv s) {pc : CapturePc}
    (hpc : s.capture = pc) (hidle : pc ≠ .idle) (hret : pc ≠ .returning)
    (hsame : SameLock s s') : LockInv s' := by
  obtain ⟨hforce, hmon, hbegun, hhandled, hbegan⟩ := hsame
  refine ⟨?_, ?_, ?_, ?_⟩
  · rw [hhandled, hbegun]
    exact hI.handled
  · rw [hmon, hbegun]
    exact hI.locking
  · rw [hbegun, hforce]
    exact hI.flag
  · rw [hbegan]
    exact fun h => absurd h (hI.not_beganLocked hpc hidle hret)

/-- **Step**: a step that keeps the flag keeps the invariant. -/
theorem lockInv_next {s : WinState} {a : WinAction} (hI : LockInv s) (hok : flagKept s a)
    (hen : s.enabled a) : LockInv (s.next a) := by
  cases a with
  | beginCapture =>
    cases hforce : s.forceBlack with
    | true =>
      have hnext : s.next .beginCapture =
          { s with beganLocked := s.lockHandled, pushed := none }.pushBlack := if_pos hforce
      rw [hnext]
      exact ⟨hI.handled, hI.locking, fun _ => hforce, fun _ => ⟨rfl, Or.inr rfl⟩⟩
    | false =>
      have hnext : s.next .beginCapture =
          { s with beganLocked := s.lockHandled, pushed := none, capture := .checked } :=
        if_neg (by rw [hforce]; nofun)
      -- the flag is not set, so no lock is in force
      have hnot : s.lockHandled ≠ true := by
        intro h
        rw [hI.flag (hI.handled h)] at hforce
        cases hforce
      rw [hnext]
      exact ⟨hI.handled, hI.locking, hI.flag, fun h => absurd h hnot⟩
  | exchangeReinit => exact hI.of_sameLock hen nofun nofun ⟨rfl, rfl, rfl, rfl, rfl⟩
  | reinitDuplication calls =>
    exact hI.of_sameLock hen nofun nofun (sameLock_runReinitDuplication s calls)
  | storeReinit => exact hI.of_sameLock hen nofun nofun ⟨rfl, rfl, rfl, rfl, rfl⟩
  | acquire out => exact hI.of_sameLock hen nofun nofun (sameLock_acquireFrame s out)
  | storeForceBlack =>
    -- the guard: no lock is in force that would need the flag
    have hbegun : s.lockBegun ≠ true := Bool.eq_false_iff.mp hok
    have hbegan : s.beganLocked ≠ true := by
      rcases hen with hpc | hpc
      · exact hI.not_beganLocked hpc nofun nofun
      · exact hI.not_beganLocked hpc nofun nofun
    unfold WinState.next WinState.clearForceBlack
    simp only
    split
    · exact ⟨hI.handled, hI.locking, fun h => absurd h hbegun, fun h => absurd h hbegan⟩
    · exact ⟨hI.handled, hI.locking, fun h => absurd h hbegun, fun h => absurd h hbegan⟩
  | returnCapture =>
    refine ⟨hI.handled, hI.locking, hI.flag, ?_⟩
    exact fun h => ⟨(hI.black h).1, Or.inl rfl⟩
  -- a call that is already running when the lock comes did not begin with it
  | lockForceBlack => exact ⟨fun _ => rfl, fun _ => rfl, fun _ => rfl, hI.black⟩
  | lockReinit => exact ⟨fun _ => hI.locking hen, nofun, hI.flag, hI.black⟩
  | unlockForceBlack => exact ⟨nofun, nofun, nofun, hI.black⟩
  | unlockReinit => exact ⟨hI.handled, nofun, hI.flag, hI.black⟩
  | suspend => exact ⟨hI.handled, hI.locking, fun _ => rfl, hI.black⟩
  | resumeReinit => exact ⟨hI.handled, nofun, hI.flag, hI.black⟩
  | resumeForceBlack =>
    have hbegun : s.lockBegun ≠ true := Bool.eq_false_iff.mp hok
    exact ⟨hI.handled, nofun, fun h => absurd h hbegun, hI.black⟩

/-- **Run**: the invariant holds in every run in which the flag is kept. -/
theorem lockInv_of_reach {s : WinState} (h : Reach windowsSystem flagKept s) : LockInv s := by
  apply h.invariant_ofCommands
  · intro s hs
    obtain ⟨lastFrame, rfl⟩ := hs
    exact lockInv_init lastFrame
  · intro s a hI hok hen
    exact lockInv_next hI hok hen

/-- **A locked session is recorded black** in every state of every run in which no capture
    and no resume handler clears the flag between a lock and the next unlock. -/
theorem blackWhileLocked_of_reach (s : WinState) (h : Reach windowsSystem flagKept s) :
    BlackWhileLocked s := by
  intro hbegan
  have hblack : s.pushed = some .black := ((lockInv_of_reach h).black hbegan).1
  rw [hblack]
  exact ⟨nofun, fun _ => rfl⟩

/-- A lock, and a capture that begins after it. -/
def captureAfterLock : List WinAction :=
  [.beginCapture, .exchangeReinit, .acquire .acquired, .storeForceBlack, .returnCapture,
    .lockForceBlack, .lockReinit, .beginCapture, .returnCapture]

theorem captureAfterLock_black :
    ∃ s, run windowsSystem flagKept {} captureAfterLock = some s ∧ s.beganLocked = true ∧
      BlackWhileLocked s := by
  refine ⟨_, rfl, rfl, ?_⟩
  apply blackWhileLocked_of_reach
  exact Reach.of_run (.init ⟨none, rfl⟩) captureAfterLock rfl

/-- The session is locked between the acquisition of a frame and the store that ends the
    capture; the next capture finds the flag cleared. -/
def lockDuringCapture : List WinAction :=
  [.beginCapture, .exchangeReinit, .acquire .acquired, .lockForceBlack, .lockReinit,
    .storeForceBlack, .returnCapture,
    .beginCapture, .exchangeReinit, .acquire .acquired, .storeForceBlack, .returnCapture]

/-- The desktop of a locked session is pushed. -/
theorem lateClear_records_desktop :
    ¬ ∀ s, Reachable windowsSystem s → BlackWhileLocked s := by
  intro hall
  have hinit : Reachable windowsSystem {} := .init ⟨none, rfl⟩
  obtain ⟨s, hreach, hs⟩ := hinit.exists_of_run lockDuringCapture
    (fun s => s.beganLocked && s.pushed == some .desktop) (by decide)
  obtain ⟨hbegan, hpushed⟩ := Bool.and_eq_true_iff.mp hs
  exact (hall s hreach hbegan).1 (beq_iff_eq.mp hpushed)

end AVCapture.Platform
