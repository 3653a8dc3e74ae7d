import AVCapture.Platform.ScreenRecorderWindows

/-!
# Recovering from a Lost Device

A capture that finds something missing pushes a black frame and leaves the recovery to
the next exchange of `need_video_reinit_`. When `reinit_duplication` fails, the flag is
set again; when `reinit` fails after a removed device, it is not, and the device itself
is gone. The lock handler clears the flag as well.

## Main results

- `recovers_of_reach`: the recorder recovers in every run in which `reinit` succeeds and
  no lock handler withdraws a request that is still needed
- `removedDevice_crashes`: a failed `reinit` and an unlock end in a null pointer
-/

namespace AVCapture.Platform

open AVCapture.Utils Transition

/-- A call that returns with something missing leaves a re-initialisation requested, and
    `recreate_desk_duplication` has not been entered without a device. -/
structure Recovers (s : WinState) : Prop where
  requested : s.enabled .returnCapture → s.resources.missing = true → s.needReinit = true
  device : s.capture ≠ .crashed

/-- The capture thread is in a re-initialisation, after whose failure it will set the flag. -/
def CapturePc.willRequest : CapturePc → Bool
  | .reinitialising | .storingReinit => true
  | _ => false

/-- A re-initialisation after a removed device succeeds, and the lock handler clears
    `need_video_reinit_` only if nothing is missing, or a re-initialisation is under way. -/
def requestKept (s : WinState) : WinAction → Prop
  | .acquire (.deviceLost calls) => calls.succeed = true
  | .lockReinit => s.resources.missing = true → s.capture.willRequest = true
  | _ => True

instance WinState.decidableRequestKept (s : WinState) (a : WinAction) :
    Decidable (requestKept s a) := by
  unfold requestKept
  split <;> infer_instance

/-- There is a device with its context, and what is missing has been or will be asked for. -/
structure DeviceInv (s : WinState) : Prop where
  device : s.resources.device = true
  context : s.resources.context = true
  alive : s.capture ≠ .crashed
  requested : s.resources.missing = true → s.needReinit = true ∨ s.capture.willRequest = true

theorem deviceInv_init (lastFrame : Option Content) : DeviceInv { lastFrame := lastFrame } :=
  ⟨rfl, rfl, nofun, nofun⟩

/-- A step that leaves the resources alone and withdraws no request. -/
theorem DeviceInv.of_same {s s' : WinState} (hI : DeviceInv s)
    (hres : s'.resources = s.resources) (halive : s'.capture ≠ .crashed)
    (hreq : s.needReinit = true ∨ s.capture.willRequest = true →
      s'.needReinit = true ∨ s'.capture.willRequest = true) : DeviceInv s' := by
  refine ⟨?_, ?_, halive, ?_⟩
  · rw [hres]
    exact hI.device
  · rw [hres]
    exact hI.context
  · rw [hres]
    exact fun hmissing => hreq (hI.requested hmissing)

/-- Outside the re-initialisations only the flag can be the request. -/
theorem flag_of_request {s : WinState} {pc : CapturePc} (hpc : s.capture = pc)
    (hnot : pc.willRequest = false)
    (h : s.needReinit = true ∨ s.capture.willRequest = true) : s.needReinit = true := by
  rcases h with hneed | hwill
  · exact hneed
  · rw [hpc, hnot] at hwill
    cases hwill

/-- Such a step outside the re-initialisations, which leaves the flag alone too. -/
theorem DeviceInv.of_same_flag {s s' : WinState} (hI : DeviceInv s) {pc : CapturePc}
    (hpc : s.capture = pc) (hnot : pc.willRequest = false)
    (hres : s'.resources = s.resources) (hneed : s'.needReinit = s.needReinit)
    (halive : s'.capture ≠ .crashed) : DeviceInv s' := by
  apply hI.of_same hres halive
  exact fun h => Or.inl (hneed.trans (flag_of_request hpc hnot h))

theorem deviceInv_runReinitDuplication {s : WinState} (hI : DeviceInv s)
    (calls : ReinitCalls) : DeviceInv (s.runReinitDuplication calls) := by
  obtain ⟨res, r, hcall, hdevice, hcontext, hok⟩ := reinitDuplication_spec calls hI.device
  unfold WinState.runReinitDuplication
  rw [hcall]
  cases res with
  -- the flag is about to be set again
  | error e => exact ⟨hdevice, hcontext.trans hI.context, nofun, fun _ => Or.inr rfl⟩
  | ok u =>
    -- both are there again, and the context never went
    obtain ⟨hdupl, hstaging⟩ := hok rfl
    refine ⟨hdevice, hcontext.trans hI.context, nofun, ?_⟩
    intro hmissing
    have hnone : r.missing = false := by
      rw [Resources.missing, hdupl, hstaging, hcontext, hI.context]
      rfl
    exact absurd (hnone.symm.trans hmissing) Bool.false_ne_true

theorem deviceInv_acquireFrame {s : WinState} (hI : DeviceInv s) (hpc : s.capture = .ready)
    (out : AcquireOutcome) (hok : requestKept s (.acquire out)) :
    DeviceInv (s.acquireFrame out) := by
  unfold WinState.acquireFrame
  split
  · exact hI.of_same_flag hpc rfl rfl rfl nofun
  · cases out with
    | timeout => cases s.lastFrame <;> exact hI.of_same_flag hpc rfl rfl rfl nofun
    | accessLost => exact hI.of_same rfl nofun fun _ => Or.inr rfl
    | deviceLost calls =>
      have hcall : reinit calls s.resources = some (.ok (), {}) := reinit_of_succeed _ hok
      show DeviceInv (s.runReinit calls)
      unfold WinState.runReinit
      rw [hcall]
      exact ⟨rfl, rfl, nofun, nofun⟩
    | failed | noTexture | mapFails => exact hI.of_same_flag hpc rfl rfl rfl nofun
    | acquired => exact hI.of_same_flag hpc rfl rfl rfl nofun

/-- **Step**: a step that keeps the requests keeps the invariant. -/
theorem deviceInv_next {s : WinState} {a : WinAction} (hI : DeviceInv s)
    (hok : requestKept s a) (hen : s.enabled a) : DeviceInv (s.next a) := by
  cases a with
  | beginCapture =>
    unfold WinState.next WinState.beginCapture
    simp only
    split <;> exact hI.of_same_flag hen rfl rfl rfl nofun
  | exchangeReinit =>
    -- a request that the exchange takes is carried on by the program counter
    cases hneed : s.needReinit with
    | true =>
      refine hI.of_same rfl ?_ fun _ => Or.inr ?_
      · simp [WinState.next, hneed]
      · simp [WinState.next, hneed, CapturePc.willRequest]
    | false =>
      refine hI.of_same rfl ?_ fun h => ?_
      · simp [WinState.next, hneed]
      · exact absurd (hneed.symm.trans (flag_of_request hen rfl h)) Bool.false_ne_true
  | reinitDuplication calls => exact deviceInv_runReinitDuplication hI calls
  | storeReinit => exact hI.of_same rfl nofun fun _ => Or.inl rfl
  | acquire out => exact deviceInv_acquireFrame hI hen out hok
  | storeForceBlack =>
    unfold WinState.next WinState.clearForceBlack
    simp only
    rcases hen with hpc | hpc
    · split <;> exact hI.of_same_flag hpc rfl rfl rfl nofun
    · split <;> exact hI.of_same_flag hpc rfl rfl rfl nofun
  | returnCapture => exact hI.of_same_flag hen rfl rfl rfl nofun
  | lockReinit =>
    -- the guard: what is still missing is in the hands of the capture thread
    exact ⟨hI.device, hI.context, hI.alive, fun hmissing => Or.inr (hok hmissing)⟩
  | unlockReinit | resumeReinit => exact hI.of_same rfl hI.alive fun _ => Or.inl rfl
  | lockForceBlack | unlockForceBlack | suspend | resumeForceBlack =>
    exact hI.of_same rfl hI.alive id

/-- **Run**: the invariant holds in every run in which the requests are kept. -/
theorem deviceInv_of_reach {s : WinState} (h : Reach windowsSystem requestKept s) :
    DeviceInv s := by
  apply h.invariant_ofCommands
  · intro s hs
    obtain ⟨lastFrame, rfl⟩ := hs
    exact deviceInv_init lastFrame
  · intro s a hI hok hen
    exact deviceInv_next hI hok hen

/-- **The recorder recovers** in every state of every run in which each `reinit` succeeds
    and no lock handler withdraws a request that is still needed. -/
theorem recovers_of_reach (s : WinState) (h : Reach windowsSystem requestKept s) :
    Recovers s := by
  have hI := deviceInv_of_reach h
  refine ⟨?_, hI.alive⟩
  intro hreturning hmissing
  exact flag_of_request hreturning rfl (hI.requested hmissing)

/-- Access is lost, and the duplication cannot be created again at first. -/
def accessLost : List WinAction :=
  [.beginCapture, .exchangeReinit, .acquire .accessLost, .storeReinit, .returnCapture,
    .beginCapture, .exchangeReinit,
    .reinitDuplication { duplicationFault := some .duplicateOutput }, .storeReinit]

theorem accessLost_recovers :
    ∃ s, run windowsSystem requestKept {} accessLost = some s ∧
      s.resources.missing = true ∧ Recovers s := by
  refine ⟨_, rfl, rfl, ?_⟩
  apply recovers_of_reach
  exact Reach.of_run (.init ⟨none, rfl⟩) accessLost rfl

/-- The device is removed and cannot be created again; then the session is unlocked. -/
def deviceRemoved : List WinAction :=
  [.beginCapture, .exchangeReinit, .acquire (.deviceLost { device := false }), .returnCapture,
    .unlockForceBlack, .unlockReinit,
    .beginCapture, .exchangeReinit, .reinitDuplication {}]

/-- `recreate_desk_duplication` is called with a null device. -/
theorem removedDevice_crashes : ¬ ∀ s, Reachable windowsSystem s → Recovers s := by
  intro hall
  have hinit : Reachable windowsSystem {} := .init ⟨none, rfl⟩
  obtain ⟨s, hreach, hs⟩ := hinit.exists_of_run deviceRemoved
    (fun s => s.capture == .crashed) (by decide)
  exact (hall s hreach).device (beq_iff_eq.mp hs)

end AVCapture.Platform
