import AVCapture.Lib.Transition

/-!
# Simulations between Processes

A process takes steps that are seen from outside as events, none, one or several for each
step. One process refines another if every sequence of events that it shows is one that the
other shows as well.

A relation between the states is a *simulation* if every step of the first process can be
answered by a run of the second one with the same events, which may be empty.

## Contents

- `Process`, `Runs`, `Traces`: runs and what is seen of them
- `Process.ofCommands`, `replay`: the process of guarded commands, and what a schedule shows
- `Runs.invariant`: the induction rule, for properties of a state and of its past
- `Simulates.runs`, `Simulates.traces`: a simulation is a refinement
-/

namespace Transition

variable {σ τ α ε : Type*}

/-- Initial states, and the steps with the events that they show. -/
structure Process (σ ε : Type*) where
  init : σ → Prop
  step : σ → List ε → σ → Prop

/-- Guarded commands, each with its events. -/
def Process.ofCommands (init : σ → Prop) (enabled : σ → α → Prop) (next : σ → α → σ)
    (events : σ → α → List ε) : Process σ ε where
  init := init
  step s es s' := ∃ a, enabled s a ∧ es = events s a ∧ s' = next s a

/-- A run from one state to another, and the events that it shows. -/
inductive Runs (P : Process σ ε) : σ → List ε → σ → Prop where
  | refl (s : σ) : Runs P s [] s
  | concat {s s' s'' : σ} {es es' : List ε} (h : Runs P s es s') (hs : P.step s' es' s'') :
      Runs P s (es ++ es') s''

/-- The sequences of events that a process shows. -/
def Traces (P : Process σ ε) (es : List ε) : Prop :=
  ∃ s s', P.init s ∧ Runs P s es s'

section Runs

variable {P : Process σ ε} {s s' s'' : σ} {es es' : List ε}

theorem Runs.single (hs : P.step s es s') : Runs P s es s' :=
  (Runs.refl s).concat hs

theorem Runs.trans (h : Runs P s es s') (h' : Runs P s' es' s'') :
    Runs P s (es ++ es') s'' := by
  -- the induction is on the second run, whose steps come behind those of the first
  induction h' with
  | refl => rw [List.append_nil]; exact h
  | concat _ hs ih =>
    rw [← List.append_assoc]
    exact ih.concat hs

/-- **Invariant rule**: what holds of a state and of the events before it. -/
theorem Runs.invariant {Inv : List ε → σ → Prop} (hinit : Inv [] s)
    (hstep : ∀ es s es' s', Inv es s → P.step s es' s' → Inv (es ++ es') s')
    (h : Runs P s es s') : Inv es s' := by
  induction h with
  | refl => exact hinit
  | concat _ hs ih => exact hstep _ _ _ _ ih hs

end Runs

section Replay

variable {init : σ → Prop} {enabled : σ → α → Prop} [∀ s a, Decidable (enabled s a)]
  {next : σ → α → σ} {events : σ → α → List ε}

/-- The events of a schedule, as long as its commands are enabled. -/
def replay (enabled : σ → α → Prop) [∀ s a, Decidable (enabled s a)] (next : σ → α → σ)
    (events : σ → α → List ε) : σ → List α → Option (List ε)
  | _, [] => some []
  | s, a :: as =>
    if enabled s a then (replay enabled next events (next s a) as).map (events s a ++ ·) else none

theorem runs_of_replay (init : σ → Prop) {s : σ} {as : List α} {es : List ε}
    (h : replay enabled next events s as = some es) :
    Runs (.ofCommands init enabled next events) s es (as.foldl next s) := by
  -- the schedule stops where a command is not enabled
  induction as generalizing s es with
  | nil =>
    cases h
    exact .refl s
  | cons a as ih =>
    unfold replay at h
    split at h
    case isTrue ha =>
      obtain ⟨es', hes', rfl⟩ := Option.map_eq_some_iff.mp h
      have hstep : (Process.ofCommands init enabled next events).step s (events s a) (next s a) :=
        ⟨a, ha, rfl, rfl⟩
      exact (Runs.single hstep).trans (ih hes')
    case isFalse => cases h

theorem traces_of_replay {s : σ} {as : List α} {es : List ε} (hinit : init s)
    (h : replay enabled next events s as = some es) :
    Traces (.ofCommands init enabled next events) es :=
  ⟨s, as.foldl next s, hinit, runs_of_replay init h⟩

end Replay

/-- A simulation: every step of `P` is answered by a run of `Q` with the same events. -/
def Simulates (P : Process σ ε) (Q : Process τ ε) (R : σ → τ → Prop) : Prop :=
  ∀ s t es s', R s t → P.step s es s' → ∃ t', Runs Q t es t' ∧ R s' t'

section Simulates

variable {P : Process σ ε} {Q : Process τ ε} {R : σ → τ → Prop} {s s' : σ} {t : τ}
  {es : List ε}

theorem Simulates.runs (hsim : Simulates P Q R) (hR : R s t) (h : Runs P s es s') :
    ∃ t', Runs Q t es t' ∧ R s' t' := by
  -- each step is answered, and the answers are put together
  induction h with
  | refl => exact ⟨t, .refl t, hR⟩
  | concat _ hs ih =>
    obtain ⟨u, hu, hRu⟩ := ih
    obtain ⟨t', ht', hR'⟩ := hsim _ _ _ _ hRu hs
    exact ⟨t', hu.trans ht', hR'⟩

/-- **Refinement**: what `P` shows, `Q` shows. -/
theorem Simulates.traces (hsim : Simulates P Q R) (hinit : ∀ s, P.init s → ∃ t, Q.init t ∧ R s t)
    (h : Traces P es) : Traces Q es := by
  obtain ⟨s, s', hs, hruns⟩ := h
  obtain ⟨t, ht, hR⟩ := hinit s hs
  obtain ⟨t', ht', _⟩ := hsim.runs hR hruns
  exact ⟨t, t', ht, ht'⟩

end Simulates

end Transition
