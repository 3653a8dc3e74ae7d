import AVCapture.Lib.Transition

/-!
# The Thread of the Session Monitor

Model of `WinSessionPowerMonitor` (`platform/WinSessionPowerMonitor.cpp`) but for what `WndProc`
does to the flags: `start`, `stop` and the destructor in the thread that owns the monitor, and
the thread with the message loop.

The message loop blocks in `GetMessageW`. A `stop` posts `WM_QUIT` to the thread and requests the
stop of its token; the destructor stops again, and then `std::jthread` waits for the thread. A
post reaches nobody as long as the thread has not written its id and made its message queue.

`hwnd_`, `thread_id_` and the stop token are read and written one at a time, by both threads;
only `create_window` is one step. A `stop` that clears `hwnd_` in the middle of it ends the
thread, as a window that cannot be created does, or keeps the window from being registered, as
a failed registration does. `WM_CLOSE`, which nothing in the program sends to the hidden window, is
left out, and so is `WM_DESTROY`, which comes when the thread is at its end.

## Main results

- `monitorInv_of_reach`: where the messages and the handles are
- `monitor_join_iff`: when the destructor comes back
- `monitor_registration`: when the registration of the window is left behind
-/

namespace AVCapture.Platform

open Transition

/-! ## The machine -/

/-- Where the owner is. `last` is the `stop` of the destructor. -/
inductive OwnerPc where
  | idle
  | posting (last : Bool)
  | requesting (last : Bool)
  | clearing (last : Bool)
  | clearingId (last : Bool)
  | joining
  | destroyed
  deriving DecidableEq, Repr

def OwnerPc.isRequesting : OwnerPc → Bool
  | .requesting _ => true
  | _ => false

/-- Where the thread is. -/
inductive ListenerPc where
  | absent
  | starting
  | peeking
  | creating
  | checking
  | getting
  | testing
  | unregistering
  | clearing
  | ended
  deriving DecidableEq, Repr

inductive ThreadMessage where
  | quit
  | session
  deriving DecidableEq, Repr

/-- What the calls of `create_window` return; a class that exists already is as good as one that
    has been registered. -/
structure WindowCalls where
  classRegistered : Bool := true
  windowCreated : Bool := true
  notifies : Bool := true
  deriving DecidableEq, Repr

/-- `threadId` is whether `thread_id_` is not 0, `hwnd` whether `hwnd_` is not null, `registered`
    whether the window is registered for session notifications. Recorded besides: that the last
    post has reached no queue (`unheard`), that the thread has looked at its token between such a
    post and the request of the same `stop`, and has got no message since (`missed`), and that a
    `stop` has cleared `hwnd_` while the window was registered (`forgotten`). -/
structure SessionMonitor where
  owner : OwnerPc := .idle
  thread : ListenerPc := .absent
  threadId : Bool := false
  hwnd : Bool := false
  stopRequested : Bool := false
  queue : Bool := false
  messages : List ThreadMessage := []
  registered : Bool := false
  unheard : Bool := false
  missed : Bool := false
  forgotten : Bool := false
  deriving DecidableEq, Repr

inductive MonitorAction where
  | start
  | stop
  | destroy
  | ownerStep
  | threadStep (calls : WindowCalls)
  /-- a message for the window -/
  | arrive

namespace SessionMonitor

/-- The next step of `stop`, or of the destructor. -/
def ownerStep (s : SessionMonitor) : SessionMonitor :=
  match s.owner with
  | .posting last =>
    let heard := s.threadId && s.queue
    -- `th_` is joinable from the start on
    { s with
      messages := s.messages ++ if heard then [.quit] else []
      unheard := !heard
      owner :=
        if s.thread = .absent then if last then .destroyed else .idle else .requesting last }
  -- from here on the thread that looks at its token leaves its loop
  | .requesting last => { s with stopRequested := true, owner := .clearing last }
  | .clearing last =>
    { s with hwnd := false, forgotten := s.forgotten || s.registered, owner := .clearingId last }
  | .clearingId last => { s with threadId := false, owner := if last then .joining else .idle }
  | .joining => { s with owner := .destroyed }
  | .idle | .destroyed => s

/-- `create_window` -/
def createWindow (s : SessionMonitor) (calls : WindowCalls) : Bool × SessionMonitor :=
  -- `RegisterClassExW` has failed, or `CreateWindowExW`, or neither
  if !calls.classRegistered then (false, s)
  else if !calls.windowCreated then (false, { s with hwnd := false })
  else (true, { s with hwnd := true, registered := calls.notifies })

/-- The message queue goes with the thread. -/
def endThread (s : SessionMonitor) : SessionMonitor :=
  { s with thread := .ended, queue := false, messages := [] }

/-- The next step of the thread; none, if it waits for a message. -/
def threadStep (calls : WindowCalls) (s : SessionMonitor) : SessionMonitor :=
  match s.thread with
  | .starting => { s with threadId := true, thread := .peeking }
  | .peeking => { s with queue := true, thread := .creating }
  | .creating =>
    match s.createWindow calls with
    | (true, s) => { s with thread := .checking }
    | (false, s) => s.endThread
  -- `while (!stoken.stop_requested())`
  | .checking =>
    if s.stopRequested then { s with thread := .testing }
    else
      -- recorded: whether it looks between a post that nobody heard and the request
      { s with
        thread := .getting
        missed := s.unheard && s.owner.isRequesting }
  | .getting =>
    match s.messages with
    -- `GetMessageW` blocks
    | [] => s
    | .quit :: rest => { s with messages := rest, thread := .testing }
    | .session :: rest => { s with messages := rest, missed := false, thread := .checking }
  -- `if (hwnd_)`, which a `stop` may have cleared
  | .testing => if s.hwnd then { s with thread := .unregistering } else s.endThread
  -- `WTSUnRegisterSessionNotification(hwnd_)`, on the handle that is there at this moment
  | .unregistering => { s with registered := s.registered && !s.hwnd, thread := .clearing }
  | .clearing => { s with hwnd := false }.endThread
  | .absent | .ended => s

def enabled (s : SessionMonitor) : MonitorAction → Prop
  | .start | .stop | .destroy => s.owner = .idle
  | .ownerStep =>
    s.owner ≠ .idle ∧ s.owner ≠ .destroyed ∧ (s.owner = .joining → s.thread = .ended)
  -- a blocked thread has no step
  | .threadStep _ =>
    s.thread ≠ .absent ∧ s.thread ≠ .ended ∧ (s.thread = .getting → s.messages ≠ [])
  | .arrive => s.queue = true

instance decidableEnabled (s : SessionMonitor) (a : MonitorAction) : Decidable (s.enabled a) := by
  cases a <;> unfold enabled <;> infer_instance

def next (s : SessionMonitor) : MonitorAction → SessionMonitor
  | .start => if s.thread = .absent then { s with thread := .starting } else s
  | .stop => { s with owner := .posting false }
  | .destroy => { s with owner := .posting true }
  | .ownerStep => s.ownerStep
  | .threadStep calls => s.threadStep calls
  | .arrive => { s with messages := s.messages ++ [.session] }

end SessionMonitor

def sessionMonitor : System SessionMonitor MonitorAction :=
  System.ofCommands (fun s => s = {}) SessionMonitor.enabled SessionMonitor.next

/-! ## The invariant -/

namespace ListenerPc

/-- The thread has written its id, and has not left the message loop. -/
def inLoop : ListenerPc → Bool
  | .peeking | .creating | .checking | .getting => true
  | _ => false

/-- The thread has left the message loop. -/
def pastLoop : ListenerPc → Bool
  | .testing | .unregistering | .clearing | .ended => true
  | _ => false

def hasQueue : ListenerPc → Bool
  | .creating | .checking | .getting | .testing | .unregistering | .clearing => true
  | _ => false

def beforeWindow : ListenerPc → Bool
  | .absent | .starting | .peeking | .creating => true
  | _ => false

end ListenerPc

namespace OwnerPc

/-- The request of the `stop` under way has been made. -/
def hasRequested : OwnerPc → Bool
  | .clearing _ | .clearingId _ | .joining => true
  | _ => false

/-- The owner is between the post of a `stop` and its last write. -/
def inStop : OwnerPc → Bool
  | .requesting _ | .clearing _ | .clearingId _ => true
  | _ => false

end OwnerPc

/-- Where the messages are. -/
structure MessagesInv (s : SessionMonitor) : Prop where
  queue : s.queue = s.thread.hasQueue
  threadId : s.stopRequested = false → s.thread.inLoop = true → s.threadId = true
  absent : s.thread = .absent → s.stopRequested = false ∧ s.owner.inStop = false ∧
    s.owner ≠ .joining
  requested : s.owner.hasRequested = true → s.stopRequested = true
  noQuit : s.stopRequested = false → s.owner.isRequesting = false ∨ s.unheard = true →
    .quit ∉ s.messages
  heard : s.owner.isRequesting = true → s.unheard = false →
    s.thread.pastLoop = true ∨ .quit ∈ s.messages
  pending : s.thread = .getting → s.missed = false →
    s.stopRequested = true ∨ s.owner.isRequesting = true → .quit ∈ s.messages
  missed : s.missed = true → s.thread = .getting ∧ .quit ∉ s.messages ∧
    (s.threadId = false ∨ s.owner.inStop = true)

/-- Where the handles are. -/
structure HandlesInv (s : SessionMonitor) : Prop where
  beforeWindow : s.thread.beforeWindow = true → s.registered = false ∧ s.forgotten = false
  forgotten : s.forgotten = true → s.registered = true ∧ s.hwnd = false
  registered : s.registered = true → s.hwnd = true ∨ s.forgotten = true
  behind : s.thread = .clearing ∨ s.thread = .ended → s.registered = true → s.forgotten = true

structure MonitorInv (s : SessionMonitor) : Prop where
  messages : MessagesInv s
  handles : HandlesInv s

section Invariant

variable {s : SessionMonitor} {last : Bool}

/-! ### The messages -/

/-- **A post**: the monitor was never started, or the thread hears it, or it does not. -/
theorem ownerStep_posting (hpc : s.owner = .posting last) (hqueue : s.queue = s.thread.hasQueue) :
    (s.thread = .absent ∧ s.ownerStep =
        { s with unheard := true, owner := if last then .destroyed else .idle }) ∨
      (s.thread ≠ .absent ∧ s.threadId = true ∧ s.queue = true ∧ s.ownerStep =
        { s with
          messages := s.messages ++ [.quit], unheard := false, owner := .requesting last }) ∨
      (s.thread ≠ .absent ∧ (s.threadId = false ∨ s.queue = false) ∧ s.ownerStep =
        { s with unheard := true, owner := .requesting last }) := by
  unfold SessionMonitor.ownerStep
  rw [hpc]
  by_cases habsent : s.thread = .absent
  · -- `th_` is not joinable, and the stop is over with its post
    have hnone : s.queue = false := by
      rw [hqueue, habsent]
      rfl
    -- a monitor that was never started has no message queue either
    exact Or.inl ⟨habsent, by simp [hnone, habsent]⟩
  · refine Or.inr ?_
    -- the post is heard if the id is there and the queue as well
    cases hid : s.threadId <;> cases hq : s.queue <;> simp [habsent]

/-- The owner posts. A thread that waits and has not missed the stop hears it, or has heard an
    earlier one. -/
theorem messagesInv_posting (h : MessagesInv s) (hpc : s.owner = .posting last) :
    MessagesInv s.ownerStep := by
  rcases ownerStep_posting hpc h.queue with ⟨habsent, hs⟩ | ⟨hmade, hid, hq, hs⟩ |
    ⟨hmade, hunheard, hs⟩ <;> rw [hs]
  · obtain ⟨hrequest, -, -⟩ := h.absent habsent
    -- a thread that was never made waits for nothing
    have hnot : s.thread ≠ .getting := by
      rw [habsent]
      nofun
    refine ⟨h.queue, h.threadId, fun _ => ⟨hrequest, ?_, ?_⟩, ?_, fun hr _ => h.noQuit hr ?_, ?_,
      fun ht => absurd ht hnot, fun hm => absurd (h.missed hm).1 hnot⟩
    · cases last <;> rfl
    · cases last <;> nofun
    · cases last <;> nofun
    · exact Or.inl (by rw [hpc]; rfl)
    · cases last <;> nofun
  · -- the thread is heard: the message is in its queue
    refine ⟨h.queue, h.threadId, fun ht => absurd ht hmade, nofun, fun _ => nofun,
      fun _ _ => Or.inr ?_, fun _ _ _ => ?_, fun hm => ?_⟩
    · exact List.mem_append_right _ (List.mem_singleton_self _)
    · exact List.mem_append_right _ (List.mem_singleton_self _)
    · -- whoever has missed the stop has been deprived of its id
      have hgone := (h.missed hm).2.2
      rw [hid, hpc] at hgone
      cases hgone <;> contradiction
  · refine ⟨h.queue, h.threadId, fun ht => absurd ht hmade, nofun, fun hr _ => h.noQuit hr ?_,
      fun _ => nofun, fun ht hm _ => ?_, fun hm => ?_⟩
    · exact Or.inl (by rw [hpc]; rfl)
    · -- a thread that waits has a queue, so the post failed for want of the id
      have hwaits : s.thread = .getting := ht
      have hq : s.queue = true := by
        rw [h.queue, hwaits]
        rfl
      have hid : s.threadId = false := hunheard.resolve_right (by simp [hq])
      -- and the id is gone only when an earlier stop has cleared it behind its request
      have hrequest : s.stopRequested = true := by
        by_contra hno
        have hid' := h.threadId (Bool.eq_false_iff.mpr hno) (by rw [hwaits]; rfl)
        rw [hid] at hid'
        cases hid'
      exact h.pending ht hm (Or.inl hrequest)
    · exact ⟨(h.missed hm).1, (h.missed hm).2.1, Or.inr rfl⟩

/-- The other steps of the owner. -/
theorem messagesInv_ownerStep (h : MessagesInv s) : MessagesInv s.ownerStep := by
  cases hpc : s.owner with
  | posting last => exact messagesInv_posting h hpc
  -- the request: whoever waits has been posted to by the same stop
  | requesting last =>
    have hmade : s.thread ≠ .absent := by
      intro ht
      have hout := (h.absent ht).2.1
      rw [hpc] at hout
      cases hout
    unfold SessionMonitor.ownerStep
    rw [hpc]
    refine ⟨h.queue, nofun, fun ht => absurd ht hmade, fun _ => rfl, nofun, nofun,
      fun ht hm _ => h.pending ht hm (Or.inr (by rw [hpc]; rfl)), fun hm => ?_⟩
    exact ⟨(h.missed hm).1, (h.missed hm).2.1, Or.inr rfl⟩
  -- `hwnd_` is cleared, which no message depends on
  | clearing last =>
    have hrequest := h.requested (by rw [hpc]; rfl)
    unfold SessionMonitor.ownerStep
    rw [hpc]
    refine ⟨h.queue, h.threadId, fun ht => ?_, fun _ => hrequest, fun hr => ?_, nofun,
      fun ht hm _ => h.pending ht hm (Or.inl hrequest), fun hm => ?_⟩
    · exact absurd ((h.absent ht).1.symm.trans hrequest) Bool.false_ne_true
    · exact absurd (Eq.trans (Eq.symm hr) hrequest) Bool.false_ne_true
    · exact ⟨(h.missed hm).1, (h.missed hm).2.1, Or.inr rfl⟩
  -- with `thread_id_` gone the next post will not be heard
  | clearingId last =>
    have hrequest := h.requested (by rw [hpc]; rfl)
    unfold SessionMonitor.ownerStep
    rw [hpc]
    refine ⟨h.queue, fun hr => ?_, fun ht => ?_, fun _ => hrequest, fun hr => ?_, ?_,
      fun ht hm _ => h.pending ht hm (Or.inl hrequest), fun hm => ?_⟩
    · exact absurd (Eq.trans (Eq.symm hr) hrequest) Bool.false_ne_true
    · exact absurd ((h.absent ht).1.symm.trans hrequest) Bool.false_ne_true
    · exact absurd (Eq.trans (Eq.symm hr) hrequest) Bool.false_ne_true
    · cases last <;> nofun
    · exact ⟨(h.missed hm).1, (h.missed hm).2.1, Or.inl rfl⟩
  -- the owner has waited for the thread
  | joining =>
    have hrequest := h.requested (by rw [hpc]; rfl)
    unfold SessionMonitor.ownerStep
    rw [hpc]
    refine ⟨h.queue, h.threadId, fun ht => ⟨(h.absent ht).1, rfl, nofun⟩, nofun,
      fun hr => ?_, nofun, fun ht hm _ => h.pending ht hm (Or.inl hrequest), fun hm => ?_⟩
    · exact absurd (Eq.trans (Eq.symm hr) hrequest) Bool.false_ne_true
    · have hgone := (h.missed hm).2.2
      rw [hpc] at hgone
      exact ⟨(h.missed hm).1, (h.missed hm).2.1, hgone⟩
  | idle | destroyed =>
    unfold SessionMonitor.ownerStep
    rw [hpc]
    exact h

/-- The thread has come to an end. -/
theorem messagesInv_endThread (h : MessagesInv s) (hthread : s.thread ≠ .getting) :
    MessagesInv s.endThread := by
  -- only a thread that waits can have missed a stop
  have hnot : s.missed ≠ true := fun hm => hthread (h.missed hm).1
  exact ⟨rfl, nofun, nofun, h.requested, fun _ _ => List.not_mem_nil, fun _ _ => Or.inl rfl,
    nofun, fun hm => absurd hm hnot⟩

/-- The thread looks at its token. -/
theorem messagesInv_checking (h : MessagesInv s) (hpc : s.thread = .checking)
    (calls : WindowCalls) : MessagesInv (s.threadStep calls) := by
  have hnot : s.missed ≠ true := by
    intro hm
    cases hpc.symm.trans (h.missed hm).1
  have hq : s.queue = true := by
    rw [h.queue, hpc]
    rfl
  unfold SessionMonitor.threadStep
  rw [hpc]
  dsimp only
  split
  -- the thread has seen the request and is past its loop
  case isTrue hrequest =>
    exact ⟨hq, fun _ => nofun, nofun, h.requested, h.noQuit, fun _ _ => Or.inl rfl, nofun,
      fun hm => absurd hm hnot⟩
  -- the thread goes on to wait, and this is where a stop can be missed
  case isFalse hrequest =>
    have hno : s.stopRequested = false := Bool.eq_false_iff.mpr hrequest
    have hid : s.threadId = true := h.threadId hno (by rw [hpc]; rfl)
    refine ⟨hq, fun _ _ => hid, nofun, h.requested, h.noQuit, fun hr hu => ?_,
      fun _ hm hr => ?_, fun hm => ?_⟩
    · refine (h.heard hr hu).imp_left fun hpast => ?_
      rw [hpc] at hpast
      cases hpast
    · -- the owner has posted, and the thread has heard it
      have hposted : s.owner.isRequesting = true := hr.resolve_left hrequest
      have hu : s.unheard = false := by simpa [hposted] using hm
      refine (h.heard hposted hu).resolve_left ?_
      rw [hpc]
      nofun
    · -- the thread has missed the stop: its request is still to come
      obtain ⟨hu, hposted⟩ : s.unheard = true ∧ s.owner.isRequesting = true := by simpa using hm
      refine ⟨rfl, h.noQuit hno (Or.inr hu), Or.inr ?_⟩
      show s.owner.inStop = true
      cases ho : s.owner <;> rw [ho] at hposted <;> first | rfl | cases hposted

/-- The thread takes a message. -/
theorem messagesInv_getting (h : MessagesInv s) (hpc : s.thread = .getting)
    (calls : WindowCalls) : MessagesInv (s.threadStep calls) := by
  have hq : s.queue = true := by
    rw [h.queue, hpc]
    rfl
  unfold SessionMonitor.threadStep
  rw [hpc]
  -- the thread waits, or takes the oldest of its messages
  cases hmessages : s.messages with
  | nil =>
    dsimp only
    exact h
  | cons message rest =>
    have hrest (hin : .quit ∉ s.messages) : .quit ∉ rest := by
      rw [hmessages] at hin
      exact fun hin' => hin (List.mem_cons_of_mem _ hin')
    cases message with
    -- `WM_QUIT` ends the loop
    | quit =>
      have hnot : s.missed ≠ true := by
        intro hm
        have hin := (h.missed hm).2.1
        rw [hmessages] at hin
        exact hin List.mem_cons_self
      exact ⟨hq, fun _ => nofun, nofun, h.requested, fun hr hu => hrest (h.noQuit hr hu),
        fun _ _ => Or.inl rfl, nofun, fun hm => absurd hm hnot⟩
    -- a message for the window brings the thread back to its token
    | session =>
      have hthread (hr : s.stopRequested = false) : s.threadId = true :=
        h.threadId hr (by rw [hpc]; rfl)
      refine ⟨hq, fun hr _ => hthread hr, nofun, h.requested,
        fun hr hu => hrest (h.noQuit hr hu), fun hr hu => ?_, nofun, nofun⟩
      refine Or.inr ?_
      have hin := (h.heard hr hu).resolve_left (by rw [hpc]; nofun)
      rw [hmessages] at hin
      exact (List.mem_cons.mp hin).resolve_left nofun

/-- The thread goes on without a look at the token or at its messages. -/
theorem messagesInv_move (h : MessagesInv s) (hnot : s.thread ≠ .getting) {pc : ListenerPc}
    (hpc : pc ≠ .getting) (hmade : pc ≠ .absent) {threadId queue hwnd registered : Bool}
    (hq : queue = pc.hasQueue)
    (hid : s.stopRequested = false → pc.inLoop = true → threadId = true)
    (hpast : s.thread.pastLoop = true → pc.pastLoop = true) :
    MessagesInv { s with
      thread := pc, threadId := threadId, queue := queue, hwnd := hwnd,
      registered := registered } :=
  ⟨hq, hid, fun ht => absurd ht hmade, h.requested, h.noQuit,
    fun hr hu => (h.heard hr hu).imp_left hpast, fun ht => absurd ht hpc,
    fun hm => absurd (h.missed hm).1 hnot⟩

/-- **Step** of the thread. -/
theorem messagesInv_threadStep (h : MessagesInv s) (calls : WindowCalls) :
    MessagesInv (s.threadStep calls) := by
  -- the steps that are neither about the token nor about the messages move the thread only
  have hqueue := h.queue
  have hid := h.threadId
  cases hpc : s.thread with
  | checking => exact messagesInv_checking h hpc calls
  | getting => exact messagesInv_getting h hpc calls
  | absent | ended =>
    unfold SessionMonitor.threadStep
    rw [hpc]
    exact h
  | starting =>
    unfold SessionMonitor.threadStep
    simp only [hpc] at hqueue ⊢
    exact messagesInv_move h (hpc ▸ nofun) (by decide) (by decide) hqueue (fun _ _ => rfl)
      (hpc ▸ nofun)
  | peeking =>
    unfold SessionMonitor.threadStep
    simp only [hpc] at hid ⊢
    exact messagesInv_move h (hpc ▸ nofun) (by decide) (by decide) rfl hid (hpc ▸ nofun)
  | creating =>
    have hfailed : MessagesInv { s with hwnd := false } := { h with }
    have hended := messagesInv_endThread h (hpc ▸ nofun)
    have hended' := messagesInv_endThread hfailed (hpc ▸ nofun)
    unfold SessionMonitor.threadStep SessionMonitor.createWindow
    simp only [hpc] at hqueue hid ⊢
    -- the outcomes of `create_window`
    cases calls.classRegistered with
    | false => exact hended
    | true =>
      cases calls.windowCreated with
      | false => exact hended'
      | true =>
        exact messagesInv_move h (hpc ▸ nofun) (by decide) (by decide) hqueue hid (hpc ▸ nofun)
  | testing =>
    have hended := messagesInv_endThread h (hpc ▸ nofun)
    unfold SessionMonitor.threadStep
    simp only [hpc] at hqueue ⊢
    -- the window is taken down first, or there is none
    split
    · exact messagesInv_move h (hpc ▸ nofun) (by decide) (by decide) hqueue (fun _ => nofun)
        fun _ => rfl
    · exact hended
  | unregistering =>
    unfold SessionMonitor.threadStep
    simp only [hpc] at hqueue ⊢
    exact messagesInv_move h (hpc ▸ nofun) (by decide) (by decide) hqueue (fun _ => nofun)
      fun _ => rfl
  | clearing =>
    have hcleared : MessagesInv { s with hwnd := false } := { h with }
    have hended := messagesInv_endThread hcleared (hpc ▸ nofun)
    unfold SessionMonitor.threadStep
    simp only [hpc]
    exact hended

theorem messagesInv_next {a : MonitorAction} (h : MessagesInv s) (hen : s.enabled a) :
    MessagesInv (s.next a) := by
  cases a with
  | start =>
    unfold SessionMonitor.next
    dsimp only
    -- a second start does nothing
    split
    case isTrue habsent =>
      have hqueue := h.queue
      rw [habsent] at hqueue
      exact messagesInv_move h (habsent ▸ nofun) (by decide) (by decide) hqueue (fun _ => nofun)
        (habsent ▸ nofun)
    case isFalse => exact h
  | stop | destroy =>
    have howner : s.owner = .idle := hen
    refine ⟨h.queue, h.threadId, fun ht => ⟨(h.absent ht).1, rfl, nofun⟩, nofun,
      fun hr _ => h.noQuit hr ?_, nofun, fun ht hm hr => h.pending ht hm (hr.imp_right nofun),
      fun hm => ?_⟩
    · exact Or.inl (by rw [howner]; rfl)
    · have hgone := (h.missed hm).2.2
      rw [howner] at hgone
      exact ⟨(h.missed hm).1, (h.missed hm).2.1, hgone⟩
  | ownerStep => exact messagesInv_ownerStep h
  | threadStep calls => exact messagesInv_threadStep h calls
  | arrive =>
    -- a message for the window is no `WM_QUIT`
    have hadd : .quit ∉ s.messages → .quit ∉ s.messages ++ [.session] := by simp
    refine ⟨h.queue, h.threadId, h.absent, h.requested, fun hr hu => hadd (h.noQuit hr hu),
      fun hr hu => (h.heard hr hu).imp_right (List.mem_append_left _),
      fun ht hm hr => List.mem_append_left _ (h.pending ht hm hr), fun hm => ?_⟩
    exact ⟨(h.missed hm).1, hadd (h.missed hm).2.1, (h.missed hm).2.2⟩

/-! ### The handles -/

theorem handlesInv_ownerStep (h : HandlesInv s) : HandlesInv s.ownerStep := by
  unfold SessionMonitor.ownerStep
  cases s.owner with
  -- the owner forgets the handle; if it was registered, that is recorded
  | clearing last =>
    refine ⟨fun ht => ?_, fun hf => ⟨?_, rfl⟩, fun hr => Or.inr ?_, fun _ hr => ?_⟩
    · obtain ⟨hr, hf⟩ := h.beforeWindow ht
      exact ⟨hr, by simp [hr, hf]⟩
    · exact ((Bool.or_eq_true _ _).mp hf).elim (fun hf => (h.forgotten hf).1) id
    · exact (Bool.or_eq_true _ _).mpr (Or.inr hr)
    · exact (Bool.or_eq_true _ _).mpr (Or.inr hr)
  | _ => exact ⟨h.beforeWindow, h.forgotten, h.registered, h.behind⟩

theorem handlesInv_threadStep (h : HandlesInv s) (calls : WindowCalls) :
    HandlesInv (s.threadStep calls) := by
  have hbefore := h.beforeWindow
  have hbehind := h.behind
  unfold SessionMonitor.threadStep
  cases hpc : s.thread with
  | creating =>
    -- no window has been registered before
    rw [hpc] at hbefore
    obtain ⟨hr, hf⟩ := hbefore rfl
    have hno : s.forgotten ≠ true := by simp [hf]
    have hnotRegistered : s.registered ≠ true := by simp [hr]
    unfold SessionMonitor.createWindow
    cases calls.classRegistered with
    | false =>
      exact ⟨nofun, fun h => absurd h hno, fun h => absurd h hnotRegistered,
        fun _ h => absurd h hnotRegistered⟩
    | true =>
      cases calls.windowCreated with
      | false =>
        exact ⟨nofun, fun h => absurd h hno, fun h => absurd h hnotRegistered,
          fun _ h => absurd h hnotRegistered⟩
      | true => exact ⟨nofun, fun h => absurd h hno, fun _ => Or.inl rfl, nofun⟩
  | testing =>
    dsimp only
    -- without a handle nothing is unregistered, which is so only when a stop has cleared it
    split
    case isTrue hwnd => exact ⟨nofun, h.forgotten, h.registered, nofun⟩
    case isFalse hwnd =>
      exact ⟨nofun, h.forgotten, h.registered, fun _ hr => (h.registered hr).resolve_left hwnd⟩
  | unregistering =>
    -- the window stays registered only if the handle was gone
    have hleft (hr : (s.registered && !s.hwnd) = true) : s.forgotten = true := by
      obtain ⟨hr, hwnd⟩ : s.registered = true ∧ s.hwnd = false := by simpa using hr
      exact (h.registered hr).resolve_left (by simp [hwnd])
    refine ⟨nofun, fun hf => ?_, fun hr => Or.inr (hleft hr), fun _ hr => hleft hr⟩
    obtain ⟨hr, hwnd⟩ := h.forgotten hf
    exact ⟨by simp [hr, hwnd], hwnd⟩
  | clearing =>
    -- the window was unregistered one step before, if its handle was there
    rw [hpc] at hbehind
    have hleft := hbehind (Or.inl rfl)
    exact ⟨nofun, fun hf => ⟨(h.forgotten hf).1, rfl⟩, fun hr => Or.inr (hleft hr),
      fun _ hr => hleft hr⟩
  | checking =>
    dsimp only
    split <;> exact ⟨nofun, h.forgotten, h.registered, nofun⟩
  | getting =>
    cases s.messages with
    | nil => exact h
    | cons message rest =>
      cases message <;> exact ⟨nofun, h.forgotten, h.registered, nofun⟩
  | starting | peeking =>
    rw [hpc] at hbefore
    exact ⟨fun _ => hbefore rfl, h.forgotten, h.registered, nofun⟩
  | absent | ended => exact h

theorem handlesInv_next {a : MonitorAction} (h : HandlesInv s) : HandlesInv (s.next a) := by
  cases a with
  | start =>
    unfold SessionMonitor.next
    dsimp only
    split
    case isTrue habsent =>
      have hbefore := h.beforeWindow
      rw [habsent] at hbefore
      exact ⟨fun _ => hbefore rfl, h.forgotten, h.registered, nofun⟩
    case isFalse => exact h
  | ownerStep => exact handlesInv_ownerStep h
  | threadStep calls => exact handlesInv_threadStep h calls
  | stop | destroy | arrive => exact ⟨h.beforeWindow, h.forgotten, h.registered, h.behind⟩

/-- **Run**: where the messages and the handles are in every state. -/
theorem monitorInv_of_reach (h : Reachable sessionMonitor s) : MonitorInv s := by
  apply h.invariant_ofCommands
  · rintro s rfl
    exact ⟨⟨rfl, fun _ => nofun, fun _ => ⟨rfl, rfl, nofun⟩, nofun, fun _ _ => nofun, nofun,
      nofun, nofun⟩, ⟨fun _ => ⟨rfl, rfl⟩, nofun, nofun, fun _ => nofun⟩⟩
  · exact fun s a hI _ hen => ⟨messagesInv_next hI.messages hen, handlesInv_next hI.handles⟩

end Invariant

/-! ## The end of the thread -/

namespace ListenerPc

/-- How many steps the thread has to go, once the stop has been requested. -/
def rank : ListenerPc → ℕ
  | .absent => 0
  | .starting => 8
  | .peeking => 7
  | .creating => 6
  | .getting => 5
  | .checking => 4
  | .testing => 3
  | .unregistering => 2
  | .clearing => 1
  | .ended => 0

end ListenerPc

section Join

variable {s : SessionMonitor}

/-- The stop has been requested, and a thread that waits has a message. -/
structure Ending (s : SessionMonitor) : Prop where
  requested : s.stopRequested = true
  made : s.thread ≠ .absent
  awake : s.thread = .getting → s.messages ≠ []

/-- A step on the way to the end. -/
theorem ending_threadStep (h : Ending s) (hgoing : s.thread ≠ .ended) (calls : WindowCalls) :
    Ending (s.threadStep calls) ∧ (s.threadStep calls).thread.rank < s.thread.rank := by
  obtain ⟨hrequested, hmade, hawake⟩ := h
  have hended (s : SessionMonitor) : s.endThread.thread = .ended := rfl
  unfold SessionMonitor.threadStep
  -- every step of the thread lowers its rank
  cases hpc : s.thread with
  | absent => exact absurd hpc hmade
  | ended => exact absurd hpc hgoing
  | getting =>
    -- whatever message it is, the thread goes on
    obtain ⟨message, rest, hmessages⟩ := List.exists_cons_of_ne_nil (hawake hpc)
    rw [hmessages]
    cases message <;> exact ⟨⟨hrequested, nofun, nofun⟩, by simp [ListenerPc.rank]⟩
  | checking =>
    -- the stop has been requested, so that the loop is left
    simp only [hrequested, if_true]
    exact ⟨⟨rfl, nofun, nofun⟩, by simp [ListenerPc.rank]⟩
  | creating =>
    unfold SessionMonitor.createWindow
    cases calls.classRegistered with
    | false => exact ⟨⟨hrequested, nofun, nofun⟩, by simp [ListenerPc.rank, hended]⟩
    | true =>
      cases calls.windowCreated <;>
        exact ⟨⟨hrequested, nofun, nofun⟩, by simp [ListenerPc.rank, hended]⟩
  | testing =>
    dsimp only
    split <;> exact ⟨⟨hrequested, nofun, nofun⟩, by simp [ListenerPc.rank, hended]⟩
  | starting | peeking | unregistering | clearing =>
    exact ⟨⟨hrequested, nofun, nofun⟩, by simp [ListenerPc.rank, hended]⟩

/-- **When the destructor comes back.** It waits for the thread, and the steps of the thread
    alone bring the thread to its end unless it has missed the stop: it has looked at its token
    after a post that reached no queue and before the request of the same `stop`, and no message
    has come since. Then it waits forever. -/
theorem monitor_join_iff (h : Reachable sessionMonitor s) (hjoining : s.owner = .joining)
    (calls : WindowCalls) :
    (∃ n, ((SessionMonitor.threadStep calls)^[n] s).thread = .ended) ↔
      ¬ (s.missed = true ∧ s.messages = []) := by
  have hI := (monitorInv_of_reach h).messages
  have hrequested : s.stopRequested = true := hI.requested (by rw [hjoining]; rfl)
  constructor
  · -- a thread that has missed the stop and has no message stays where it is
    rintro ⟨n, hn⟩ ⟨hmissed, hmessages⟩
    have hwaits : s.thread = .getting := (hI.missed hmissed).1
    have hstuck : s.threadStep calls = s := by
      unfold SessionMonitor.threadStep
      rw [hwaits, hmessages]
    rw [Function.iterate_fixed hstuck, hwaits] at hn
    cases hn
  · intro hheard
    have hending : Ending s := by
      refine ⟨hrequested, fun ht => (hI.absent ht).2.2 hjoining, fun ht hmessages => ?_⟩
      -- it has not missed the stop, or has a message, so that it does not block
      have hno : s.missed = false := by simpa [hmessages] using hheard
      have hquit := hI.pending ht hno (Or.inl hrequested)
      rw [hmessages] at hquit
      cases hquit
    exact exists_iterate_of_measure (fun s : SessionMonitor => s.thread = .ended)
      (fun s => s.thread.rank) (fun s hs hgoing => ending_threadStep hs hgoing calls) hending

/-- The monitor is destroyed while it starts: the post comes before the message queue, and the
    request after the thread has looked at its token. -/
def missedStop : List MonitorAction :=
  let step : MonitorAction := .threadStep {}
  [.start, step, .stop, .ownerStep, step, step, step, .ownerStep, .ownerStep, .ownerStep,
    .destroy, .ownerStep, .ownerStep, .ownerStep, .ownerStep]

theorem monitor_join_missed :
    ∃ s, run sessionMonitor anyStep {} missedStop = some s ∧ s.owner = .joining ∧
      ¬ ∃ n, ((SessionMonitor.threadStep {})^[n] s).thread = .ended := by
  refine ⟨_, rfl, rfl, ?_⟩
  have hreach : Reachable sessionMonitor {} := .init rfl
  rw [monitor_join_iff (hreach.of_run missedStop rfl) rfl]
  decide

/-- **What the thread leaves behind**: the registration of its window, if a `stop` has cleared
    `hwnd_` before the thread came to it. -/
theorem monitor_registration (h : Reachable sessionMonitor s) (hended : s.thread = .ended) :
    s.registered = true ↔ s.forgotten = true := by
  have hI := (monitorInv_of_reach h).handles
  exact ⟨hI.behind (Or.inr hended), fun hf => (hI.forgotten hf).1⟩

end Join

end AVCapture.Platform
