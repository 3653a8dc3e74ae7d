import AVCapture.Lib.Transition
import AVCapture.Utils.Error

/-!
# Desktop Duplication and the Session Monitor

Model of `ScreenRecorderWindows::capture_frame` with its two re-initialisations
(`platform/ScreenRecorderWindows.cpp`), and of `WinSessionPowerMonitor::WndProc`
(`platform/WinSessionPowerMonitor.cpp`).

The capture thread and the monitor thread share two flags, `force_black_flag_` and
`need_video_reinit_`. Each atomic access to one of them is a step of its own; what the
capture thread does in between touches only data of its own and belongs to the step
before. What DirectX returns is the environment's choice.

## Main definitions

- `reinitDuplication`, `reinit`: which resources each of them leaves
- `WinState`, `WinAction`, `windowsSystem`: the two threads as a transition system
-/

namespace AVCapture.Platform

open AVCapture.Utils Transition

/-! ## The resources -/

/-- Which of the `ComPtr`s are set. -/
structure Resources where
  device : Bool := true
  context : Bool := true
  duplication : Bool := true
  staging : Bool := true
  deriving DecidableEq, Repr

/-- What `capture_frame` tests before it acquires a frame. -/
def Resources.missing (r : Resources) : Bool := !r.duplication || !r.staging || !r.context

/-- Where `recreate_desk_duplication` can fail. -/
inductive DuplicationFault where
  | dxgiDevice
  | dxgiAdapter
  | enumOutputs (monitorIndex : Nat)
  | dxgiOutput1
  | duplicateOutput
  deriving DecidableEq, Repr

def DuplicationFault.text : DuplicationFault → String
  | .dxgiDevice => "Failed to get DXGI device"
  | .dxgiAdapter => "Failed to get DXGI adapter"
  | .enumOutputs monitorIndex => "Failed to enumerate output #" ++ toString monitorIndex
  | .dxgiOutput1 => "Failed to get IDXGIOutput1"
  | .duplicateOutput => "Failed duplicating output"

/-- Which calls of a re-initialisation succeed. -/
structure ReinitCalls where
  device : Bool := true
  duplicationFault : Option DuplicationFault := none
  staging : Bool := true
  deriving DecidableEq, Repr

def ReinitCalls.succeed (c : ReinitCalls) : Bool :=
  c.device && c.duplicationFault.isNone && c.staging

/-- `create_device`: passing the addresses of the two pointers releases them first. -/
def createDevice (ok : Bool) (r : Resources) : VoidResult × Resources :=
  if ok then (.ok (), { r with device := true, context := true })
  else (.error (makeError.withContext "Failed to initialize D3D11 device"),
    { r with device := false, context := false })

/-- `recreate_desk_duplication`; `none` is the call through a null `d3d_device_`. -/
def recreateDeskDuplication (fault : Option DuplicationFault) (r : Resources) :
    Option (VoidResult × Resources) :=
  if r.device then
    match fault with
    | none => some (.ok (), { r with duplication := true })
    | some .duplicateOutput =>
      some (.error (makeError.withContext DuplicationFault.duplicateOutput.text),
        { r with duplication := false })
    | some f => some (.error (makeError.withContext f.text), r)
  else none

def createStagingTexture (ok : Bool) (r : Resources) : VoidResult × Resources :=
  if ok then (.ok (), { r with staging := true })
  else (.error (makeError.withContext "Failed to create staging texture"),
    { r with staging := false })

def reinitDuplication (calls : ReinitCalls) (r : Resources) :
    Option (VoidResult × Resources) :=
  -- both are released before anything is created
  let r := { r with staging := false, duplication := false }
  match recreateDeskDuplication calls.duplicationFault r with
  | none => none
  | some (.error e, r) => some (.error e, r)
  | some (.ok (), r) => some (createStagingTexture calls.staging r)

def reinit (calls : ReinitCalls) (r : Resources) : Option (VoidResult × Resources) :=
  -- everything goes, the device last
  let r := { r with staging := false, duplication := false, context := false, device := false }
  match createDevice calls.device r with
  | (.error e, r) => some (.error e, r)
  | (.ok (), r) =>
    match recreateDeskDuplication calls.duplicationFault r with
    | none => none
    | some (.error e, r) => some (.error e, r)
    | some (.ok (), r) => some (createStagingTexture calls.staging r)

/-! ## The two threads -/

/-- What a pushed frame shows. -/
inductive Content where
  | black
  | desktop
  deriving DecidableEq, Repr

/-- What `AcquireNextFrame` and the calls after it come to. -/
inductive AcquireOutcome where
  | timeout
  | accessLost
  | deviceLost (calls : ReinitCalls)
  | failed
  | noTexture
  | mapFails
  | acquired
  deriving DecidableEq, Repr

/-- Where the capture thread is in `capture_frame`. -/
inductive CapturePc where
  | idle
  | checked
  | reinitialising
  | storingReinit
  | ready
  | timedOut
  | gotFrame
  | returning
  | crashed
  deriving DecidableEq, Repr

/-- Where the monitor thread is in a handler of two stores. -/
inductive MonitorPc where
  | idle
  | locking
  | unlocking
  | resuming
  deriving DecidableEq, Repr

/-- The shared flags, the capture thread's data and the two program counters. Recorded
    besides: whether a lock event has begun and has been fully handled with no unlock
    event since, and of the latest `capture_frame` call whether it began with the session
    locked so, and what it has pushed. -/
structure WinState where
  forceBlack : Bool := false
  needReinit : Bool := false
  resources : Resources := {}
  lastFrame : Option Content := none
  capture : CapturePc := .idle
  monitor : MonitorPc := .idle
  lockBegun : Bool := false
  lockHandled : Bool := false
  beganLocked : Bool := false
  pushed : Option Content := none
  deriving DecidableEq, Repr

inductive WinAction where
  | beginCapture
  | exchangeReinit
  | reinitDuplication (calls : ReinitCalls)
  | storeReinit
  | acquire (out : AcquireOutcome)
  | storeForceBlack
  | returnCapture
  | lockForceBlack
  | lockReinit
  | unlockForceBlack
  | unlockReinit
  | suspend
  | resumeReinit
  | resumeForceBlack
  deriving DecidableEq, Repr

def WinState.enabled (s : WinState) : WinAction → Prop
  | .beginCapture => s.capture = .idle
  | .exchangeReinit => s.capture = .checked
  | .reinitDuplication _ => s.capture = .reinitialising
  | .storeReinit => s.capture = .storingReinit
  | .acquire _ => s.capture = .ready
  | .storeForceBlack => s.capture = .timedOut ∨ s.capture = .gotFrame
  | .returnCapture => s.capture = .returning
  | .lockForceBlack => s.monitor = .idle
  | .lockReinit => s.monitor = .locking
  | .unlockForceBlack => s.monitor = .idle
  | .unlockReinit => s.monitor = .unlocking
  | .suspend => s.monitor = .idle
  | .resumeReinit => s.monitor = .idle
  | .resumeForceBlack => s.monitor = .resuming

instance WinState.decidableEnabled (s : WinState) (a : WinAction) : Decidable (s.enabled a) := by
  cases a <;> unfold WinState.enabled <;> infer_instance

/-- `push_black_frame`, after which only the return is left. -/
def WinState.pushBlack (s : WinState) : WinState :=
  { s with lastFrame := some .black, pushed := some .black, capture := .returning }

/-- The call begins, and reads `force_black_flag_`. -/
def WinState.beginCapture (s : WinState) : WinState :=
  let s := { s with beganLocked := s.lockHandled, pushed := none }
  if s.forceBlack then s.pushBlack else { s with capture := .checked }

/-- The re-initialisation that the exchange of `need_video_reinit_` has asked for. -/
def WinState.runReinitDuplication (s : WinState) (calls : ReinitCalls) : WinState :=
  match reinitDuplication calls s.resources with
  | none => { s with capture := .crashed }
  | some (.error _, r) => { s with resources := r, capture := .storingReinit }
  | some (.ok (), r) => { s with resources := r }.pushBlack

/-- The re-initialisation after a lost device. Its result is only logged. -/
def WinState.runReinit (s : WinState) (calls : ReinitCalls) : WinState :=
  match reinit calls s.resources with
  | none => { s with capture := .crashed }
  | some (_, r) => { s with resources := r }.pushBlack

/-- From the test of the resources to the next atomic access or the return. -/
def WinState.acquireFrame (s : WinState) (out : AcquireOutcome) : WinState :=
  if s.resources.missing then s.pushBlack
  else
    match out with
    | .timeout =>
      match s.lastFrame with
      | some content => { s with pushed := some content, capture := .timedOut }
      -- without a frame to show again the picture is black
      | none => { s.pushBlack with capture := .timedOut }
    | .accessLost => { s with capture := .storingReinit }
    | .deviceLost calls => s.runReinit calls
    | .failed | .noTexture | .mapFails => s.pushBlack
    | .acquired => { s with lastFrame := some .desktop, capture := .gotFrame }

/-- The clearing of `force_black_flag_`. An acquired frame is pushed after it; a reused one
    has been pushed before it. -/
def WinState.clearForceBlack (s : WinState) : WinState :=
  if s.capture = .gotFrame then
    { s with forceBlack := false, pushed := s.lastFrame, capture := .returning }
  else { s with forceBlack := false, capture := .returning }

def WinState.next (s : WinState) : WinAction → WinState
  | .beginCapture => s.beginCapture
  | .exchangeReinit =>
    { s with needReinit := false, capture := if s.needReinit then .reinitialising else .ready }
  | .reinitDuplication calls => s.runReinitDuplication calls
  -- after a failed re-initialisation, or when the access is lost
  | .storeReinit => { s with needReinit := true }.pushBlack
  | .acquire out => s.acquireFrame out
  | .storeForceBlack => s.clearForceBlack
  | .returnCapture => { s with capture := .idle }
  | .lockForceBlack => { s with forceBlack := true, lockBegun := true, monitor := .locking }
  | .lockReinit => { s with needReinit := false, lockHandled := true, monitor := .idle }
  | .unlockForceBlack =>
    { s with forceBlack := false, lockBegun := false, lockHandled := false
             monitor := .unlocking }
  | .unlockReinit => { s with needReinit := true, monitor := .idle }
  | .suspend => { s with forceBlack := true }
  | .resumeReinit => { s with needReinit := true, monitor := .resuming }
  | .resumeForceBlack => { s with forceBlack := false, monitor := .idle }

/-- A recorder whose `init_platform` has succeeded; `last_frame_` has no initialiser. -/
def windowsSystem : System WinState WinAction :=
  System.ofCommands (fun s => ∃ lastFrame, s = { lastFrame := lastFrame })
    WinState.enabled WinState.next

/-! ## What the re-initialisations leave -/

/-- **Spec of `reinit_duplication`** with a device: on success nothing is missing that
    was there before, and on an error the caller knows. -/
theorem reinitDuplication_spec (calls : ReinitCalls) {r : Resources}
    (hdevice : r.device = true) :
    ∃ res r', reinitDuplication calls r = some (res, r') ∧ r'.device = true ∧
      r'.context = r.context ∧
      (res.failed = false → r'.duplication = true ∧ r'.staging = true) := by
  -- the device is there, so that no call goes through a null pointer
  obtain ⟨device, fault, staging⟩ := calls
  obtain ⟨_, context, dupl, stage⟩ := r
  subst hdevice
  cases fault with
  | none => cases staging <;> exact ⟨_, _, rfl, rfl, rfl, by simp⟩
  | some f => cases f <;> exact ⟨_, _, rfl, rfl, rfl, by simp⟩

/-- **Spec of `reinit`**: it never calls through a null device, and it leaves everything
    in place when its calls succeed. -/
theorem reinit_of_succeed {calls : ReinitCalls} (r : Resources) (h : calls.succeed = true) :
    reinit calls r = some (.ok (), {}) := by
  obtain ⟨device, fault, staging⟩ := calls
  simp only [ReinitCalls.succeed, Bool.and_eq_true, Option.isNone_iff_eq_none] at h
  obtain ⟨⟨rfl, rfl⟩, rfl⟩ := h
  rfl

end AVCapture.Platform
