import AVCapture.Lib.Simulation
import Mathlib.Data.List.Basic
import Mathlib.Data.Nat.Notation

/-!
# A Queue for One Producer and One Consumer

What a first-in first-out queue for two threads is for: each operation takes effect at one
moment between its call and its return. The producer's value is appended, or refused if the
queue has been seen with at least `room` values in it since the call; the consumer takes or
looks at the value in front, or finds nothing if the queue has been seen empty since the call.
A producer that lets the queue grow is refused only when there is no memory left.

An implementation is shown right by a simulation (`Lib.Simulation`). What can be told from
its calls and returns then follows from the laws of this queue.

## Contents

- `Step`, `queue`: the queue as a process
- `fifo`: values are taken in the order in which they were accepted
- `peek_promise`: what has been looked at is taken next
-/

namespace AtomicQueue

open Transition

variable {α : Type*}

/-! ## The queue -/

/-- The two operations of the consumer. -/
inductive Look where
  | take
  | peek
  deriving DecidableEq

/-- Calls and returns, and a failure to find memory. A return names the value of its call. -/
inductive Event (α : Type*) where
  | enqueueCall (v : α) (mayGrow : Bool)
  | noMemory
  | enqueueReturn (v : α) (accepted : Bool)
  | lookCall (op : Look)
  | lookReturn (op : Look) (result : Option α)
  deriving DecidableEq

/-- The producer between its calls, before and after the moment of the effect. -/
inductive Producer (α : Type*) where
  | idle
  | pending (v : α) (mayGrow sawFull outOfMemory : Bool)
  | answered (v : α) (accepted : Bool)

inductive Consumer (α : Type*) where
  | idle
  | pending (op : Look) (sawEmpty : Bool)
  | answered (op : Look) (result : Option α)

structure State (α : Type*) where
  items : List α := []
  producer : Producer α := .idle
  consumer : Consumer α := .idle

/-- What is left when the value in front has been taken or looked at. -/
def Look.rest : Look → List α → List α
  | .take, items => items.tail
  | .peek, items => items

/-- The steps, with their events. -/
inductive Step (room : ℕ) : State α → List (Event α) → State α → Prop where
  | enqueue {s : State α} (v : α) (mayGrow : Bool) (h : s.producer = .idle) :
      Step room s [.enqueueCall v mayGrow]
        { s with producer := .pending v mayGrow false false }
  | seeFull {s : State α} {v : α} {mayGrow sawFull outOfMemory : Bool}
      (h : s.producer = .pending v mayGrow sawFull outOfMemory) (hfull : room ≤ s.items.length) :
      Step room s [] { s with producer := .pending v mayGrow true outOfMemory }
  | failMemory {s : State α} {v : α} {mayGrow sawFull outOfMemory : Bool}
      (h : s.producer = .pending v mayGrow sawFull outOfMemory) :
      Step room s [.noMemory] { s with producer := .pending v mayGrow sawFull true }
  | append {s : State α} {v : α} {mayGrow sawFull outOfMemory : Bool}
      (h : s.producer = .pending v mayGrow sawFull outOfMemory) :
      Step room s [] { s with items := s.items ++ [v], producer := .answered v true }
  | refuse {s : State α} {v : α} {mayGrow outOfMemory : Bool}
      (h : s.producer = .pending v mayGrow true outOfMemory)
      (hmemory : mayGrow = true → outOfMemory = true) :
      Step room s [] { s with producer := .answered v false }
  | enqueueReturn {s : State α} {v : α} {accepted : Bool}
      (h : s.producer = .answered v accepted) :
      Step room s [.enqueueReturn v accepted] { s with producer := .idle }
  | look {s : State α} (op : Look) (h : s.consumer = .idle) :
      Step room s [.lookCall op] { s with consumer := .pending op false }
  | seeEmpty {s : State α} {op : Look} {sawEmpty : Bool}
      (h : s.consumer = .pending op sawEmpty) (hempty : s.items = []) :
      Step room s [] { s with consumer := .pending op true }
  | serve {s : State α} {op : Look} {sawEmpty : Bool} {v : α}
      (h : s.consumer = .pending op sawEmpty) (hfront : s.items.head? = some v) :
      Step room s []
        { s with items := op.rest s.items, consumer := .answered op (some v) }
  | miss {s : State α} {op : Look} (h : s.consumer = .pending op true) :
      Step room s [] { s with consumer := .answered op none }
  | lookReturn {s : State α} {op : Look} {result : Option α}
      (h : s.consumer = .answered op result) :
      Step room s [.lookReturn op result] { s with consumer := .idle }

/-- The queue that refuses nothing as long as there are less than `room` values in it. -/
def queue (α : Type*) (room : ℕ) : Process (State α) (Event α) where
  init s := s = {}
  step := Step room

/-! ## What is seen -/

def Event.accepted : Event α → List α
  | .enqueueReturn v true => [v]
  | _ => []

def Event.offered : Event α → List α
  | .enqueueCall v _ => [v]
  | _ => []

def Event.returned : Event α → List α
  | .enqueueReturn v _ => [v]
  | _ => []

def Event.taken : Event α → List α
  | .lookReturn .take result => result.toList
  | _ => []

/-- The values that were accepted, in the order of the returns. -/
def accepted (es : List (Event α)) : List α := es.flatMap Event.accepted

/-- The values that were offered, in the order of the calls. -/
def offered (es : List (Event α)) : List α := es.flatMap Event.offered

/-- The values whose calls have returned. -/
def returned (es : List (Event α)) : List α := es.flatMap Event.returned

/-- The values that were taken, in the order of the returns. -/
def taken (es : List (Event α)) : List α := es.flatMap Event.taken

/-- The value of the call that has not returned, if there is one. -/
def underway (es : List (Event α)) : List α := (offered es).drop (returned es).length

theorem accepted_append (es es' : List (Event α)) :
    accepted (es ++ es') = accepted es ++ accepted es' := List.flatMap_append

theorem offered_append (es es' : List (Event α)) :
    offered (es ++ es') = offered es ++ offered es' := List.flatMap_append

theorem returned_append (es es' : List (Event α)) :
    returned (es ++ es') = returned es ++ returned es' := List.flatMap_append

theorem taken_append (es es' : List (Event α)) :
    taken (es ++ es') = taken es ++ taken es' := List.flatMap_append

/-! ## The log -/

/-- What the producer has put in and not yet returned from. -/
def Producer.landed : Producer α → List α
  | .answered v true => [v]
  | _ => []

/-- The value of the producer's call. -/
def Producer.value : Producer α → List α
  | .idle => []
  | .pending v _ _ _ => [v]
  | .answered v _ => [v]

/-- What the consumer has taken out and not yet returned. -/
def Consumer.held : Consumer α → List α
  | .answered .take result => result.toList
  | _ => []

/-- What has been put in is what has been taken out and what is in the queue. -/
structure Logged (es : List (Event α)) (s : State α) : Prop where
  balance : accepted es ++ s.producer.landed = taken es ++ (s.consumer.held ++ s.items)
  offered : offered es = returned es ++ s.producer.value

section Logged

variable {room : ℕ} {es es' : List (Event α)} {s s' : State α}

theorem logged_nil : Logged [] ({} : State α) := ⟨rfl, rfl⟩

/-- A step of the producer that leaves the queue alone. -/
theorem Logged.of_producer (h : Logged es s) {p : Producer α}
    (hlanded : accepted es' ++ p.landed = s.producer.landed)
    (hvalue : s.producer.value ++ AtomicQueue.offered es' = returned es' ++ p.value)
    (htaken : taken es' = []) : Logged (es ++ es') { s with producer := p } := by
  refine ⟨?_, ?_⟩
  · rw [accepted_append, taken_append, htaken, List.append_assoc, hlanded, List.append_nil]
    exact h.balance
  · rw [offered_append, returned_append, h.offered, List.append_assoc, hvalue, List.append_assoc]

/-- A step of the consumer. -/
theorem Logged.of_consumer (h : Logged es s) {c : Consumer α} {items : List α}
    (hheld : taken es' ++ (c.held ++ items) = s.consumer.held ++ s.items)
    (haccepted : accepted es' = []) (hoffered : AtomicQueue.offered es' = [])
    (hreturned : returned es' = []) :
    Logged (es ++ es') { s with items := items, consumer := c } := by
  refine ⟨?_, ?_⟩
  · show accepted (es ++ es') ++ s.producer.landed = taken (es ++ es') ++ (c.held ++ items)
    rw [accepted_append, taken_append, haccepted, List.append_nil, List.append_assoc, hheld]
    exact h.balance
  · rw [offered_append, returned_append, hoffered, hreturned, List.append_nil, List.append_nil]
    exact h.offered

theorem logged_step (h : Logged es s) (hs : Step room s es' s') : Logged (es ++ es') s' := by
  -- the step lemma: what the step shows is what it moves
  cases hs with
  | enqueue v mayGrow hp =>
    exact h.of_producer (by rw [hp]; rfl) (by rw [hp]; rfl) rfl
  | seeFull hp _ => exact h.of_producer (by rw [hp]; rfl) (by rw [hp]; rfl) rfl
  | failMemory hp => exact h.of_producer (by rw [hp]; rfl) (by rw [hp]; rfl) rfl
  | @append v mayGrow sawFull outOfMemory hp =>
    rw [List.append_nil]
    refine ⟨?_, ?_⟩
    · have hbalance : accepted es ++ [] = taken es ++ (s.consumer.held ++ s.items) := by
        rw [← h.balance, hp]
        rfl
      rw [List.append_nil] at hbalance
      show accepted es ++ [v] = taken es ++ (s.consumer.held ++ (s.items ++ [v]))
      rw [hbalance, List.append_assoc, List.append_assoc]
    · rw [h.offered, hp]
      rfl
  | refuse hp _ => exact h.of_producer (by rw [hp]; rfl) (by rw [hp]; rfl) rfl
  | @enqueueReturn v accepted hp =>
    -- a value that was accepted has been put in before
    cases accepted <;> exact h.of_producer (by rw [hp]; rfl) (by rw [hp]; rfl) rfl
  | look op hc => exact h.of_consumer (by rw [hc]; rfl) rfl rfl rfl
  | seeEmpty hc _ => exact h.of_consumer (by rw [hc]; rfl) rfl rfl rfl
  | @serve op sawEmpty v hc hfront =>
    obtain ⟨rest, hitems⟩ : ∃ rest, s.items = v :: rest := List.head?_eq_some_iff.mp hfront
    -- a look leaves the value where it is
    cases op with
    | take => exact h.of_consumer (by rw [hc, hitems]; rfl) rfl rfl rfl
    | peek => exact h.of_consumer (by rw [hc]; rfl) rfl rfl rfl
  | @miss op hc => cases op <;> exact h.of_consumer (by rw [hc]; rfl) rfl rfl rfl
  | @lookReturn op result hc =>
    cases op with
    | take =>
      refine h.of_consumer ?_ rfl rfl rfl
      rw [hc]
      simp [taken, Event.taken, Consumer.held]
    | peek => exact h.of_consumer (by rw [hc]; rfl) rfl rfl rfl

/-- The log of any run. -/
theorem logged_of_runs (h : Runs (queue α room) {} es s) : Logged es s :=
  h.invariant logged_nil fun _ _ _ _ hl hs => logged_step hl hs

theorem Logged.underway_eq (h : Logged es s) : underway es = s.producer.value := by
  rw [underway, h.offered, List.drop_left]

end Logged

/-! ## The laws -/

/-- **First in, first out**: what was taken is a beginning of what was accepted, in the same
    order; only a value whose call has not returned yet may have been taken before. -/
theorem fifo {room : ℕ} {es : List (Event α)} (h : Traces (queue α room) es) :
    taken es <+: accepted es ++ underway es := by
  obtain ⟨_, s, rfl, hruns⟩ := h
  have hlog := logged_of_runs hruns
  -- what has landed is the value of the call that is under way
  have hlanded : s.producer.landed <+: s.producer.value := by
    -- only a call that was answered has landed its value
    cases s.producer with
    | idle => exact List.prefix_refl _
    | pending v _ _ _ => exact List.nil_prefix
    | answered v accepted =>
      cases accepted with
      | true => exact List.prefix_refl _
      | false => exact List.nil_prefix
  have htaken : taken es <+: accepted es ++ s.producer.landed :=
    ⟨s.consumer.held ++ s.items, hlog.balance.symm⟩
  rw [hlog.underway_eq]
  exact htaken.trans ((List.prefix_append_right_inj _).mpr hlanded)

/-- The last event of a trace is the last event of a step. -/
theorem exists_of_traces_concat {room : ℕ} {es : List (Event α)} {e : Event α}
    (h : Traces (queue α room) (es ++ [e])) :
    ∃ s s', Runs (queue α room) {} es s ∧ Step room s [e] s' := by
  obtain ⟨_, s', rfl, hruns⟩ := h
  generalize hall : es ++ [e] = all at hruns
  induction hruns with
  | refl => exact absurd hall (List.append_ne_nil_of_right_ne_nil _ (List.cons_ne_nil _ _))
  | @concat s₁ s₂ before last hbefore hs ih =>
    -- a step shows at most one event
    have hlast : last = [] ∨ ∃ e', last = [e'] := by
      cases hs <;> simp
    rcases hlast with rfl | ⟨e', rfl⟩
    · exact ih (by rw [hall, List.append_nil])
    · obtain ⟨rfl, he⟩ := List.append_inj' hall rfl
      cases he
      exact ⟨s₁, s₂, hbefore, hs⟩

/-! ## Looking before taking -/

def Event.isTaking : Event α → Bool
  | .lookReturn .take _ => true
  | _ => false

/-- The consumer has answered a call of `take`. -/
def Consumer.taking : Consumer α → Bool
  | .answered .take _ => true
  | _ => false

/-- The consumer has seen the queue empty, or has found nothing. -/
def Consumer.sawEmpty : Consumer α → Bool
  | .pending _ sawEmpty => sawEmpty
  | .answered _ result => result.isNone
  | .idle => false

/-- The value `v` is in front, or it has been taken out and not yet returned. -/
def Promised (v : α) (s : State α) : Prop :=
  (s.items.head? = some v ∧ s.consumer.taking = false ∧ s.consumer.sawEmpty = false) ∨
    s.consumer = .answered .take (some v)

section Promises

variable {room : ℕ} {es es' : List (Event α)} {s s' : State α} {v : α}

theorem promised_step (h : Promised v s) (hs : Step room s es' s')
    (htaking : ∀ e ∈ es', e.isTaking = false) : Promised v s' := by
  -- the value is in front, and only the consumer can take it from there
  rcases h with ⟨hfront, hconsumer, hsaw⟩ | hheld
  · cases hs with
    | @append w _ _ _ hp =>
      obtain ⟨rest, hitems⟩ : ∃ rest, s.items = v :: rest := List.head?_eq_some_iff.mp hfront
      refine Or.inl ⟨?_, hconsumer, hsaw⟩
      show (s.items ++ [w]).head? = some v
      rw [hitems]
      rfl
    | @serve op _ w hc hfront' =>
      obtain rfl : v = w := Option.some.inj (hfront.symm.trans hfront')
      cases op with
      | take => exact Or.inr rfl
      | peek => exact Or.inl ⟨hfront, rfl, rfl⟩
    | look op hc => exact Or.inl ⟨hfront, rfl, rfl⟩
    | seeEmpty hc hempty =>
      rw [hempty] at hfront
      cases hfront
    | miss hc =>
      rw [hc] at hsaw
      cases hsaw
    | lookReturn hc => exact Or.inl ⟨hfront, rfl, rfl⟩
    | enqueue w mayGrow hp => exact Or.inl ⟨hfront, hconsumer, hsaw⟩
    | seeFull hp _ => exact Or.inl ⟨hfront, hconsumer, hsaw⟩
    | failMemory hp => exact Or.inl ⟨hfront, hconsumer, hsaw⟩
    | refuse hp _ => exact Or.inl ⟨hfront, hconsumer, hsaw⟩
    | enqueueReturn hp => exact Or.inl ⟨hfront, hconsumer, hsaw⟩
  · -- the value is on its way, and nothing else happens to the consumer before it arrives
    cases hs with
    | look op hc => rw [hheld] at hc; cases hc
    | seeEmpty hc _ => rw [hheld] at hc; cases hc
    | serve hc _ => rw [hheld] at hc; cases hc
    | miss hc => rw [hheld] at hc; cases hc
    | lookReturn hc =>
      rw [hheld] at hc
      cases hc
      exact absurd (htaking _ (List.mem_singleton.mpr rfl)) (by simp [Event.isTaking])
    | enqueue w mayGrow hp => exact Or.inr hheld
    | seeFull hp _ => exact Or.inr hheld
    | failMemory hp => exact Or.inr hheld
    | append hp => exact Or.inr hheld
    | refuse hp _ => exact Or.inr hheld
    | enqueueReturn hp => exact Or.inr hheld

/-- What a call of `peek` is about to return is in front. -/
def Peeked (s : State α) : Prop :=
  ∀ v, s.consumer = .answered .peek (some v) → s.items.head? = some v

theorem peeked_step (h : Peeked s) (hs : Step room s es' s') : Peeked s' := by
  -- an append leaves the front as it is, and a call of `peek` is answered with the front
  intro v hv
  cases hs with
  | @append w _ _ _ hp =>
    obtain ⟨rest, hitems⟩ : ∃ rest, s.items = v :: rest := List.head?_eq_some_iff.mp (h v hv)
    show (s.items ++ [w]).head? = some v
    rw [hitems]
    rfl
  | serve hc hfront =>
    cases hv
    exact hfront
  | look op hc => cases hv
  | seeEmpty hc _ => cases hv
  | miss hc => cases hv
  | lookReturn hc => cases hv
  | enqueue w mayGrow hp => exact h v hv
  | seeFull hp _ => exact h v hv
  | failMemory hp => exact h v hv
  | refuse hp _ => exact h v hv
  | enqueueReturn hp => exact h v hv

/-- What has been looked at, and not been taken since, is promised. -/
structure Promises (es : List (Event α)) (s : State α) : Prop where
  peeked : Peeked s
  promised : ∀ before during v, es = before ++ .lookReturn .peek (some v) :: during →
    (∀ e ∈ during, e.isTaking = false) → Promised v s

theorem promises_step (h : Promises es s) (hs : Step room s es' s') :
    Promises (es ++ es') s' := by
  refine ⟨peeked_step h.peeked hs, fun before during v heq hduring => ?_⟩
  -- by the event that the step shows, if it shows one
  have hlast : es' = [] ∨ ∃ e, es' = [e] := by
    cases hs <;> simp
  rcases hlast with rfl | ⟨e, rfl⟩
  · rw [List.append_nil] at heq
    exact promised_step (h.promised before during v heq hduring) hs nofun
  · rcases List.eq_nil_or_concat during with rfl | ⟨during, e', rfl⟩
    · -- this is the step in which the look returns
      obtain ⟨-, he⟩ := List.append_inj' heq rfl
      cases he
      cases hs with
      | lookReturn hc => exact Or.inl ⟨h.peeked v hc, rfl, rfl⟩
    · have hsplit : es ++ [e] = (before ++ .lookReturn .peek (some v) :: during) ++ [e'] := by
        rw [heq, List.concat_eq_append, List.append_assoc, List.cons_append]
      obtain ⟨hes, he⟩ := List.append_inj' hsplit rfl
      cases he
      rw [List.concat_eq_append] at hduring
      refine promised_step (h.promised before during v hes fun x hx => ?_) hs fun x hx => ?_
      · exact hduring x (List.mem_append_left _ hx)
      · exact hduring x (List.mem_append_right _ hx)

theorem promises_of_runs (h : Runs (queue α room) {} es s) : Promises es s := by
  have hinit : Promises [] ({} : State α) :=
    ⟨nofun, fun before during v heq => absurd heq.symm (by simp)⟩
  exact h.invariant hinit fun _ _ _ _ hI hs => promises_step hI hs

end Promises

/-- **A look is a promise**: what has been looked at is what is taken next. -/
theorem peek_promise {room : ℕ} {es es' : List (Event α)} {v : α} {result : Option α}
    (h : Traces (queue α room)
      (es ++ .lookReturn .peek (some v) :: es' ++ [.lookReturn .take result]))
    (htaking : ∀ e ∈ es', e.isTaking = false) : result = some v := by
  obtain ⟨s, s', hruns, hs⟩ := exists_of_traces_concat h
  have hpromised := (promises_of_runs hruns).promised es es' v rfl htaking
  cases hs with
  | lookReturn hc =>
    -- the value was in front of the answer, or is the answer itself
    rcases hpromised with ⟨_, hconsumer, _⟩ | hheld
    · rw [hc] at hconsumer
      cases hconsumer
    · rw [hheld] at hc
      cases hc
      rfl

end AtomicQueue
