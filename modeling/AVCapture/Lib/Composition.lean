import AVCapture.Lib.Simulation
import Mathlib.Data.List.Induction

/-!
# Processes that Work Together

A client and a service: they take the steps that show an event together, and the steps that
show nothing alone. What has been proved of a service by a simulation holds behind every client:
a simulation of the service is one of the two together, and the client does not notice.

## Contents

- `Runs.split_concat`: a run, taken apart at its last event
- `Process.serving`: a service behind a client
- `Simulates.serving`: simulation is a congruence
- `Runs.meet`: a run of the client and one of the service that show the same
-/

namespace Transition

variable {γ σ τ ε : Type*}

/-! ## Runs taken apart -/

section Split

variable {P : Process σ ε} {s s' : σ} {es : List ε} {e : ε}

/-- A run that shows nothing takes steps that show nothing. -/
theorem Runs.invariant_silent {I : σ → Prop} (hinit : I s)
    (hstep : ∀ s s', I s → P.step s [] s' → I s') (h : Runs P s [] s') : I s' := by
  generalize hes : ([] : List ε) = es at h
  induction h with
  | refl => exact hinit
  | concat _ hs ih =>
    obtain ⟨rfl, rfl⟩ := List.append_eq_nil_iff.mp hes.symm
    exact hstep _ _ (ih rfl) hs

/-- Every step shows at most one event. -/
def Process.Single (P : Process σ ε) : Prop := ∀ s es s', P.step s es s' → es.length ≤ 1

/-- The step that shows the last event. -/
theorem Runs.split_concat (hP : P.Single) (h : Runs P s (es ++ [e]) s') :
    ∃ u u', Runs P s es u ∧ P.step u [e] u' ∧ Runs P u' [] s' := by
  generalize hes : es ++ [e] = es' at h
  induction h generalizing es with
  | refl => exact absurd hes (by simp)
  | @concat t u es₁ es₂ hruns hs ih =>
    match es₂, hP _ _ _ hs with
    | [], _ =>
      rw [List.append_nil] at hes
      obtain ⟨v, v', hbefore, hev, hafter⟩ := ih hes
      exact ⟨v, v', hbefore, hev, hafter.concat hs⟩
    | [e'], _ =>
      obtain ⟨rfl, hlast⟩ := List.append_inj' hes rfl
      obtain rfl := List.singleton_inj.mp hlast
      exact ⟨t, u, hruns, hs, .refl u⟩

theorem Runs.split_single (hP : P.Single) (h : Runs P s [e] s') :
    ∃ u u', Runs P s [] u ∧ P.step u [e] u' ∧ Runs P u' [] s' :=
  Runs.split_concat hP h

end Split

/-! ## A service behind a client -/

/-- The steps of the client alone, of the service alone, and of both. -/
inductive Together (C : Process γ ε) (P : Process σ ε) : γ × σ → List ε → γ × σ → Prop where
  | client {c c' : γ} {s : σ} (h : C.step c [] c') : Together C P (c, s) [] (c', s)
  | service {c : γ} {s s' : σ} (h : P.step s [] s') : Together C P (c, s) [] (c, s')
  | both {c c' : γ} {s s' : σ} {e : ε} (hc : C.step c [e] c') (hs : P.step s [e] s') :
      Together C P (c, s) [e] (c', s')

def Process.serving (P : Process σ ε) (C : Process γ ε) : Process (γ × σ) ε where
  init p := C.init p.1 ∧ P.init p.2
  step := Together C P

section Serving

variable {C : Process γ ε} {P : Process σ ε} {Q : Process τ ε} {R : σ → τ → Prop}
  {c c' : γ} {s s' : σ} {t t' : τ} {es : List ε} {p p' : γ × σ}

/-- The service goes on while the client waits. -/
theorem Runs.serving (h : Runs Q t [] t') (c : γ) : Runs (Q.serving C) (c, t) [] (c, t') := by
  refine h.invariant_silent (I := fun u => Runs (Q.serving C) (c, t) [] (c, u)) (.refl _) ?_
  exact fun u u' hu hs => hu.concat (.service hs)

/-- The client goes on without the service. -/
theorem Runs.client (h : Runs C c [] c') (s : σ) : Runs (P.serving C) (c, s) [] (c', s) := by
  refine h.invariant_silent (I := fun d => Runs (P.serving C) (c, s) [] (d, s)) (.refl _) ?_
  exact fun d d' hd hs => hd.concat (.client hs)

/-- **Congruence**: a simulation of the service is one of the service behind any client, who is
    in the same state all the time. -/
theorem Simulates.serving (hsim : Simulates P Q R) (hQ : Q.Single) (C : Process γ ε) :
    Simulates (P.serving C) (Q.serving C) fun p q => p.1 = q.1 ∧ R p.2 q.2 := by
  rintro p ⟨c, t⟩ es p' ⟨hpc, hR⟩ hs
  cases hs with
  | client hc =>
    obtain rfl : _ = c := hpc
    exact ⟨_, .single (.client hc), rfl, hR⟩
  | @service c₁ s s' hs =>
    obtain rfl : c₁ = c := hpc
    obtain ⟨t', ht', hR'⟩ := hsim _ _ _ _ hR hs
    exact ⟨(c₁, t'), ht'.serving c₁, rfl, hR'⟩
  | @both c₁ c' s s' e hc hs =>
    obtain rfl : c₁ = c := hpc
    obtain ⟨t', ht', hR'⟩ := hsim _ _ _ _ hR hs
    -- the client takes part in the step that shows the event
    obtain ⟨u, u', hbefore, hstep, hafter⟩ := Runs.split_single hQ ht'
    refine ⟨(c', t'), ?_, rfl, hR'⟩
    exact ((hbefore.serving c₁).concat (.both hc hstep)).trans (hafter.serving c')

/-- A run of a client and a run of a service that show the same. -/
theorem Runs.meet (hC : C.Single) (hP : P.Single) (hc : Runs C c es c') (hs : Runs P s es s') :
    Runs (P.serving C) (c, s) es (c', s') := by
  induction es using List.reverseRecOn generalizing c' s' with
  | nil => exact (hc.client s).trans (hs.serving c')
  | append_singleton es e ih =>
    obtain ⟨d, d', hcbefore, hcstep, hcafter⟩ := Runs.split_concat hC hc
    obtain ⟨u, u', hbefore, hstep, hafter⟩ := Runs.split_concat hP hs
    have hevent := (ih hcbefore hbefore).concat (.both hcstep hstep)
    have hrest : Runs (P.serving C) (d', u') [] (c', s') :=
      (hcafter.client u').trans (hafter.serving c')
    have hall := hevent.trans hrest
    rwa [List.append_nil] at hall

end Serving

end Transition
