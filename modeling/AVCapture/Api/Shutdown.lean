import AVCapture.Api.Router
import AVCapture.Lib.OneShotTimer
import AVCapture.Lib.Transition
import Mathlib.Data.Nat.Basic

/-!
# Shutting Down

Model of the event loop of `main` (`main.cpp`), as far as shutdown requests go: the callback
of `Router::handle_shutdown` saves and stops the recorder and arms a timer, and the handler
of the timer stops the loop, 200 ms later, so that the response can be written before.

The handler does not look at its error code: it stops the loop when its wait has been
aborted, too. Times are in milliseconds. How long the callback takes to save a recording is
the environment's.

## Main results

- `handle_of_shutsDown`, `handle_of_not_shutsDown`: which requests arm the timer
- `orderly_next`: a request at a time when no earlier wait is outstanding
- `graceKept_of_undisturbed`: the runs of such requests, and the others
-/

namespace AVCapture.Api

open AVCapture.Utils OneShotTimer Transition

/-! ## The event loop -/

/-- What `main` calls on the recorder, besides what the router does. -/
structure MainOps (σ : Type) extends RecorderOps σ where
  saveRecording : σ → Result String × σ
  stop : σ → σ

/-- A call of `io_ctx.stop()`: when, and whether the wait of the handler that made it had run
    to its expiry. -/
structure Stop where
  time : ℕ
  expired : Bool

/-- The recorder and the timer; when the callback has last run, and the call that ended the
    loop. -/
structure Loop (σ : Type) where
  recorder : σ
  now : ℕ := 0
  timer : OneShot ℕ := {}
  lastRequest : Option ℕ := none
  stopped : Option Stop := none

structure Server (σ : Type) where
  fields : Fields
  ops : MainOps σ
  serialize : JsonObject → String
  apiKey : Bytes := []

section Loops

variable {σ : Type}

/-- `save_and_stop_recorder`; an error of the save is logged only. -/
def saveAndStopRecorder (ops : MainOps σ) (recorder : σ) : σ :=
  if !ops.isRecording recorder then recorder else ops.stop (ops.saveRecording recorder).2

/-- `on_shutdown_requested`, when saving and stopping takes `busy`. -/
def onShutdownRequested (ops : MainOps σ) (busy : ℕ) (l : Loop σ) : Loop σ :=
  { l with
    recorder := saveAndStopRecorder ops l.recorder
    now := l.now + busy
    timer := l.timer.arm (l.now + busy + 200)
    lastRequest := some (l.now + busy) }

/-- The recorder that the router reaches. -/
def RecorderOps.onLoop (ops : RecorderOps σ) : RecorderOps (Loop σ) where
  isRecording l := ops.isRecording l.recorder
  saveRecordingAsync l :=
    let (res, recorder) := ops.saveRecordingAsync l.recorder
    (res, { l with recorder := recorder })
  what := ops.what

def Server.router (m : Server σ) (busy : ℕ) : Router (Loop σ) where
  fields := m.fields
  recorder := m.ops.toRecorderOps.onLoop
  serialize := m.serialize
  onShutdown := some (onShutdownRequested m.ops busy)
  apiKey := m.apiKey

/-- The handler of the timer, which ignores its error code. -/
def runHandler (l : Loop σ) : Loop σ :=
  match l.timer.ready with
  | [] => l
  | c :: _ => { l with timer := l.timer.pop, stopped := some ⟨l.now, c.expired⟩ }

/-- Time passes; a request is handled; the wait of the timer expires; the next handler of the
    timer runs. -/
inductive Event where
  | elapse (ms : ℕ)
  | request (req : Request) (busy : ℕ)
  | expire
  | runHandler

def enabled (l : Loop σ) : Event → Prop
  | .elapse _ => True
  | .request _ _ => l.stopped.isNone = true
  | .expire => l.stopped.isNone = true ∧ l.timer.Due l.now
  | .runHandler => l.stopped.isNone = true ∧ l.timer.ready ≠ []

instance (l : Loop σ) (a : Event) : Decidable (enabled l a) :=
  match a with
  | .elapse _ => isTrue trivial
  | .request _ _ => inferInstanceAs (Decidable (_ = true))
  | .expire => inferInstanceAs (Decidable (_ ∧ OneShot.Due _ _))
  | .runHandler => inferInstanceAs (Decidable (_ ∧ ¬ _ = _))

def next (m : Server σ) (l : Loop σ) : Event → Loop σ
  | .elapse ms => { l with now := l.now + ms }
  | .request req busy => ((m.router busy).handle { recorder := l } req).2.recorder
  | .expire => { l with timer := l.timer.expire }
  | .runHandler => Api.runHandler l

/-- The loop, from the time on when the server runs. -/
def loop (m : Server σ) : System (Loop σ) Event :=
  .ofCommands (fun l => ∃ recorder, l = { recorder := recorder }) enabled (next m)

/-! ## Requests -/

/-- The request gets past the key check, and its route is the one of `handle_shutdown`. -/
def Server.shutsDown (m : Server σ) (req : Request) : Bool :=
  (m.router 0).isAuthorized req && (req.method == .post && req.target == Routes.kSHUTDOWN)

variable {m : Server σ} {req : Request}

theorem handle_of_shutsDown (h : m.shutsDown req = true) (busy : ℕ) (l : Loop σ) :
    ((m.router busy).handle { recorder := l } req).2.recorder =
      onShutdownRequested m.ops busy l := by
  obtain ⟨hkey, hroute⟩ := Bool.and_eq_true_iff.mp h
  obtain ⟨hpost, htarget⟩ := Bool.and_eq_true_iff.mp hroute
  have hkey' : (m.router busy).isAuthorized req = true := hkey
  have hmethod : req.method = .post := eq_of_beq hpost
  have hpath : req.target = Routes.kSHUTDOWN := eq_of_beq htarget
  have hstop : (Routes.kSHUTDOWN == Routes.kSTOP) = false := by decide
  simp [Router.handle, Router.isHealth, hkey', hmethod, hpath, hstop, Router.handleShutdown]
  rfl

/-- Every other request acts on the recorder at most. -/
theorem handle_of_not_shutsDown (h : m.shutsDown req = false) (busy : ℕ) (l : Loop σ) :
    ∃ recorder, ((m.router busy).handle { recorder := l } req).2.recorder =
      { l with recorder := recorder } := by
  unfold Router.handle
  split
  · -- the health check
    exact ⟨l.recorder, rfl⟩
  · split
    · -- no key
      exact ⟨l.recorder, rfl⟩
    · rename_i hauthorized
      split
      · -- a recording is saved if there is one
        unfold Router.handleStop
        split
        · exact ⟨l.recorder, rfl⟩
        · exact ⟨_, rfl⟩
      · split
        · -- the status
          exact ⟨l.recorder, rfl⟩
        · split
          · -- with the key checked, this would be a shutdown request
            rename_i hroute
            have hkey : (m.router busy).isAuthorized req = true := by simpa using hauthorized
            have hshuts : m.shutsDown req = true := Bool.and_eq_true_iff.mpr ⟨hkey, hroute⟩
            rw [h] at hshuts
            cases hshuts
          · exact ⟨l.recorder, rfl⟩

/-! ## Orderly runs -/

/-- The loop is stopped by a handler whose wait has run to its expiry, and 200 ms after the
    last shutdown request at the earliest. -/
def Loop.GraceKept (l : Loop σ) : Prop :=
  ∀ stop, l.stopped = some stop →
    stop.expired = true ∧ ∀ t, l.lastRequest = some t → t + 200 ≤ stop.time

variable (m) in
/-- No shutdown request is handled while the wait of an earlier one is outstanding. -/
def Undisturbed (l : Loop σ) : Event → Prop
  | .request req _ => m.shutsDown req = true → ¬ l.timer.Outstanding
  | _ => True

/-- The timer has nothing to do but with the last request. -/
structure Orderly (l : Loop σ) : Prop where
  sound : l.timer.Sound l.now
  fresh : ∀ t, l.lastRequest = some t → l.timer.Fresh (t + 200)
  idle : l.lastRequest = none → ¬ l.timer.Outstanding
  grace : l.GraceKept

theorem orderly_init (recorder : σ) : Orderly ({ recorder := recorder } : Loop σ) where
  sound := OneShot.sound_empty
  fresh t ht := by cases ht
  idle _ h := h.elim (fun hpending => hpending rfl) (fun hready => hready rfl)
  grace stop hstop := by cases hstop

theorem orderly_request {l : Loop σ} (h : Orderly l) (hopen : l.stopped.isNone = true)
    (busy : ℕ) (hok : m.shutsDown req = true → ¬ l.timer.Outstanding) :
    Orderly (next m l (.request req busy)) := by
  cases hshuts : m.shutsDown req with
  | false =>
    obtain ⟨recorder, heq⟩ := handle_of_not_shutsDown hshuts busy l
    show Orderly ((m.router busy).handle { recorder := l } req).2.recorder
    rw [heq]
    exact ⟨h.sound, h.fresh, h.idle, h.grace⟩
  | true =>
    show Orderly ((m.router busy).handle { recorder := l } req).2.recorder
    rw [handle_of_shutsDown hshuts]
    refine ⟨(h.sound.mono (Nat.le_add_right _ _)).arm _, fun t ht => ?_, fun hnone => ?_,
      fun stop hstop => ?_⟩
    · -- the only wait is the one that begins here
      rw [← Option.some.inj ht]
      exact OneShot.fresh_arm (hok hshuts)
    · cases hnone
    · have hnone : l.stopped = none := Option.isNone_iff_eq_none.mp hopen
      have hsome : l.stopped = some stop := hstop
      rw [hnone] at hsome
      cases hsome

theorem orderly_expire {l : Loop σ} (h : Orderly l) (hdue : l.timer.Due l.now) :
    Orderly { l with timer := l.timer.expire } where
  sound := h.sound.expire hdue
  fresh t ht := (h.fresh t ht).expire
  idle hnone := by
    obtain ⟨d, hd, _⟩ := hdue
    have hpending : l.timer.pending ≠ none := hd ▸ Option.some_ne_none d
    exact absurd (Or.inl hpending) (h.idle hnone)
  grace := h.grace

/-- The handler that runs is the one of the last request, and its time has come. -/
theorem orderly_runHandler {l : Loop σ} (h : Orderly l) (hready : l.timer.ready ≠ []) :
    Orderly (runHandler l) := by
  obtain ⟨c, rest, hcons⟩ := List.exists_cons_of_ne_nil hready
  have hmem : c ∈ l.timer.ready := hcons ▸ List.mem_cons_self
  have hrun : runHandler l =
      { l with timer := l.timer.pop, stopped := some ⟨l.now, c.expired⟩ } := by
    rw [runHandler, hcons]
  rw [hrun]
  refine ⟨h.sound.pop, fun t ht => (h.fresh t ht).pop, fun hnone => ?_, fun stop hstop => ?_⟩
  · exact absurd (Or.inr hready) (h.idle hnone)
  · rw [← Option.some.inj hstop]
    cases hlast : l.lastRequest with
    | none => exact absurd (Or.inr hready) (h.idle hlast)
    | some last =>
      obtain ⟨hdeadline, hexpired⟩ := (h.fresh last hlast).ready c hmem
      refine ⟨hexpired, fun t ht => ?_⟩
      have hlt : last = t := Option.some.inj ht
      calc t + 200 = c.deadline := by rw [hdeadline, hlt]
        _ ≤ l.now := h.sound c hmem hexpired

/-- **One step**: an event that does not disturb a wait keeps the order. -/
theorem orderly_next {l : Loop σ} (h : Orderly l) {a : Event} (hen : enabled l a)
    (hok : Undisturbed m l a) : Orderly (next m l a) := by
  cases a with
  | elapse ms => exact ⟨h.sound.mono (Nat.le_add_right _ _), h.fresh, h.idle, h.grace⟩
  | request req busy => exact orderly_request h hen busy hok
  | expire => exact orderly_expire h hen.2
  | runHandler => exact orderly_runHandler h hen.2

/-! ## All runs -/

/-- A shutdown request while an earlier wait is outstanding: the next handler of the timer
    stops the loop in the moment in which the request has been handled. -/
theorem not_graceKept_of_disturbed {l : Loop σ} (hopen : l.stopped.isNone = true)
    (hout : l.timer.Outstanding) (hshuts : m.shutsDown req = true) (busy : ℕ) :
    ¬ Along (loop m) Loop.GraceKept (next m l (.request req busy)) [.runHandler] := by
  have hrequest : next m l (.request req busy) = onShutdownRequested m.ops busy l :=
    handle_of_shutsDown hshuts busy l
  rw [hrequest]
  obtain ⟨c, rest, hcons⟩ := List.exists_cons_of_ne_nil
    (OneShot.ready_arm_ne_nil hout (l.now + busy + 200))
  have hready : (onShutdownRequested m.ops busy l).timer.ready = c :: rest := hcons
  have hen : enabled (onShutdownRequested m.ops busy l) .runHandler :=
    ⟨hopen, hready ▸ List.cons_ne_nil c rest⟩
  intro h
  have hgrace := h.2 _ (ofCommands_step_iff.mpr ⟨hen, rfl⟩)
  have hstop : (next m (onShutdownRequested m.ops busy l) .runHandler).stopped =
      some ⟨l.now + busy, c.expired⟩ := by
    show (runHandler (onShutdownRequested m.ops busy l)).stopped = _
    rw [runHandler, hready]
    rfl
  have hlast : (next m (onShutdownRequested m.ops busy l) .runHandler).lastRequest =
      some (l.now + busy) := by
    show (runHandler (onShutdownRequested m.ops busy l)).lastRequest = _
    rw [runHandler, hready]
    rfl
  have hle : l.now + busy + 200 ≤ l.now + busy := (hgrace _ hstop).2 _ hlast
  omega

variable (m) in
/-- **The grace period is kept**, at whatever point of a run the next handler of the timer
    comes, exactly if no shutdown request is handled while the wait of an earlier one is in
    progress, or its handler has not run yet. -/
theorem graceKept_iff (recorder : σ) (as : List Event) :
    (∀ p, p <+: as →
        Along (loop m) Loop.GraceKept { recorder := recorder } (p ++ [.runHandler])) ↔
      Guarded (loop m) (Undisturbed m) { recorder := recorder } as := by
  have hkeep (l : Loop σ) (a : Event) (l' : Loop σ) (h : Orderly l) (hok : Undisturbed m l a)
      (hs : (loop m).step l a = some l') : Orderly l' := by
    obtain ⟨hen, rfl⟩ := ofCommands_step_iff.mp hs
    exact orderly_next h hen hok
  have hharm (l : Loop σ) (a : Event) (l' : Loop σ) (_ : Orderly l)
      (hs : (loop m).step l a = some l') (hnot : ¬ Undisturbed m l a) :
      ¬ Along (loop m) Loop.GraceKept l' [.runHandler] := by
    obtain ⟨hen, rfl⟩ := ofCommands_step_iff.mp hs
    cases a with
    | request req busy =>
      obtain ⟨hshuts, hout⟩ := Classical.not_imp.mp hnot
      exact not_graceKept_of_disturbed hen (not_not.mp hout) hshuts busy
    | _ => exact absurd trivial hnot
  have hprobe (l : Loop σ) (_ : Orderly l) : Undisturbed m l .runHandler := trivial
  exact along_probe_iff_guarded hkeep (fun _ h => h.grace) hprobe hharm (orderly_init recorder) as

end Loops

/-- A recorder that is saved and stopped. -/
def plainServer : Server Bool where
  fields := .search
  ops :=
    { isRecording := id
      saveRecordingAsync := fun recording => (.ok "out.mp4", recording)
      what := fun e => String.join e.contextStack
      saveRecording := fun recording => (.ok "out.mp4", recording)
      stop := fun _ => false }
  serialize obj := String.join (obj.map Prod.fst)

def shutdownRequest : Request := { method := .post, target := Routes.kSHUTDOWN }

/-- Two requests within 200 ms: the aborted wait of the first one stops the loop. -/
theorem not_graceKept_twice :
    ¬ Along (loop plainServer) Loop.GraceKept { recorder := true }
      [.request shutdownRequest 0, .elapse 100, .request shutdownRequest 0, .runHandler] := by
  have hshuts : plainServer.shutsDown shutdownRequest = true := by decide
  have hfirst : next plainServer { recorder := true } (.request shutdownRequest 0) =
      onShutdownRequested plainServer.ops 0 { recorder := true } :=
    handle_of_shutsDown hshuts 0 { recorder := true }
  intro h
  have hsecond := (h.2 _ (ofCommands_step_iff.mpr ⟨rfl, rfl⟩)).2 _
    (ofCommands_step_iff.mpr ⟨trivial, rfl⟩)
  rw [hfirst] at hsecond
  have hbroken := hsecond.2 _ (ofCommands_step_iff.mpr ⟨rfl, rfl⟩)
  -- 100 ms later, the wait of the first request is still in progress
  exact not_graceKept_of_disturbed rfl (Or.inl (Option.some_ne_none 200)) hshuts 0 hbroken

end AVCapture.Api
