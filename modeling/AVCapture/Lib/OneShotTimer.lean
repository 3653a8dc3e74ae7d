import Mathlib.Order.Basic

/-!
# A Timer that is Armed Again

A one-shot timer of an event loop. Arming it while a wait is in progress ends that wait: its
handler runs as well, and is told that the wait has been aborted. A wait that has expired is
out of reach of a later arming, though its handler may not have run yet.

So several handlers may be on their way when the timer is armed once more, and only one of
the waits is the last one. A timer is *fresh* for a deadline if nothing but the wait for that
deadline is under way.

## Contents

- `OneShot.arm`, `OneShot.expire`, `OneShot.pop`: the timer and its handlers
- `OneShot.Due`, `OneShot.Sound`: what has expired is over
- `OneShot.Fresh`, `fresh_arm`: one wait only
-/

namespace OneShotTimer

/-- A wait that is over, with the time it was meant to last to. -/
structure Completion (T : Type*) where
  deadline : T
  expired : Bool

/-- The wait in progress, and the handlers that are to run, in their order. -/
structure OneShot (T : Type*) where
  pending : Option T := none
  ready : List (Completion T) := []

namespace OneShot

variable {T : Type*}

/-- A wait is in progress, or a handler has not run yet. -/
def Outstanding (t : OneShot T) : Prop := t.pending ≠ none ∨ t.ready ≠ []

instance (t : OneShot T) : Decidable t.Outstanding :=
  match t with
  | ⟨some _, _⟩ => isTrue (Or.inl (Option.some_ne_none _))
  | ⟨none, _ :: _⟩ => isTrue (Or.inr (List.cons_ne_nil _ _))
  | ⟨none, []⟩ => isFalse fun h => h.elim (fun h => h rfl) (fun h => h rfl)

/-- The wait in progress has come to its end. -/
def Due [LE T] (now : T) (t : OneShot T) : Prop := ∃ d, t.pending = some d ∧ d ≤ now

instance [LE T] [DecidableLE T] (now : T) (t : OneShot T) : Decidable (t.Due now) :=
  match t with
  | ⟨some d, _⟩ =>
    if h : d ≤ now then isTrue ⟨d, rfl, h⟩
    else isFalse fun ⟨_, heq, hle⟩ => h (Option.some.inj heq ▸ hle)
  | ⟨none, _⟩ => isFalse fun ⟨_, heq, _⟩ => Option.some_ne_none _ heq.symm

/-- The wait in progress, if there is one, is aborted, and a new one begins. -/
def arm (t : OneShot T) (deadline : T) : OneShot T where
  pending := some deadline
  ready := t.ready ++ t.pending.toList.map fun old => ⟨old, false⟩

/-- The wait in progress runs to its end. -/
def expire (t : OneShot T) : OneShot T where
  ready := t.ready ++ t.pending.toList.map fun old => ⟨old, true⟩

/-- The next handler runs. -/
def pop (t : OneShot T) : OneShot T := { t with ready := t.ready.tail }

/-- What has expired is over. -/
def Sound [LE T] (now : T) (t : OneShot T) : Prop :=
  ∀ c ∈ t.ready, c.expired = true → c.deadline ≤ now

/-- Nothing but the wait for this deadline is under way, and nothing has been aborted. -/
structure Fresh (deadline : T) (t : OneShot T) : Prop where
  pending : ∀ d, t.pending = some d → d = deadline
  ready : ∀ c ∈ t.ready, c.deadline = deadline ∧ c.expired = true

/-! ## What has expired -/

section Order

variable [Preorder T] {now later : T} {t : OneShot T}

theorem sound_empty : Sound now ({} : OneShot T) :=
  fun _ hmem => absurd hmem List.not_mem_nil

theorem Sound.mono (h : t.Sound now) (hle : now ≤ later) : t.Sound later :=
  fun c hc hexpired => (h c hc hexpired).trans hle

theorem Sound.arm (h : t.Sound now) (deadline : T) : (t.arm deadline).Sound now := by
  intro c hc hexpired
  rcases List.mem_append.mp hc with hold | haborted
  · exact h c hold hexpired
  · obtain ⟨old, _, rfl⟩ := List.mem_map.mp haborted
    exact absurd hexpired Bool.false_ne_true

theorem Sound.expire (h : t.Sound now) (hdue : t.Due now) : t.expire.Sound now := by
  intro c hc hexpired
  rcases List.mem_append.mp hc with hold | hnew
  · exact h c hold hexpired
  · obtain ⟨old, hpending, rfl⟩ := List.mem_map.mp hnew
    obtain ⟨d, hd, hle⟩ := hdue
    have hold : some old = some d := (Option.mem_toList.mp hpending).symm.trans hd
    exact Option.some.inj hold ▸ hle

theorem Sound.pop (h : t.Sound now) : t.pop.Sound now :=
  fun c hc hexpired => h c (List.mem_of_mem_tail hc) hexpired

end Order

/-! ## One wait only -/

section Fresh

variable {t : OneShot T} {deadline : T}

/-- **Arming an idle timer** leaves one wait. -/
theorem fresh_arm (h : ¬ t.Outstanding) : (t.arm deadline).Fresh deadline := by
  obtain ⟨hpending, hready⟩ := not_or.mp h
  refine ⟨fun d hd => (Option.some.inj hd).symm, fun c hc => ?_⟩
  rw [arm, not_not.mp hpending, not_not.mp hready] at hc
  exact absurd hc List.not_mem_nil

theorem Fresh.expire (h : t.Fresh deadline) : t.expire.Fresh deadline := by
  refine ⟨fun d hd => absurd hd (Option.some_ne_none d).symm, fun c hc => ?_⟩
  rcases List.mem_append.mp hc with hold | hnew
  · exact h.ready c hold
  · obtain ⟨old, hpending, rfl⟩ := List.mem_map.mp hnew
    exact ⟨h.pending old (Option.mem_toList.mp hpending), rfl⟩

theorem Fresh.pop (h : t.Fresh deadline) : t.pop.Fresh deadline :=
  ⟨h.pending, fun c hc => h.ready c (List.mem_of_mem_tail hc)⟩

/-- **Arming a timer that is not idle** leaves a handler of another wait. -/
theorem ready_arm_ne_nil (h : t.Outstanding) (deadline : T) : (t.arm deadline).ready ≠ [] := by
  rcases h with hpending | hready
  · obtain ⟨old, hold⟩ := Option.ne_none_iff_exists'.mp hpending
    simp [arm, hold]
  · simp [arm, hready]

end Fresh

end OneShot

end OneShotTimer
