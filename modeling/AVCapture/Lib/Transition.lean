import Mathlib.Logic.Basic
import Mathlib.Logic.Function.Iterate
import Mathlib.Tactic.TypeStar

/-!
# Transition Systems and Guarded Runs

A small library for state machines whose steps are chosen by an environment:
several threads that interleave, or calls whose outcomes are not known.

A step is a partial function `step : σ → α → Option σ`; `none` says that the
action is not enabled in the state. Every theorem about runs is stated for a
*guard* `ok : σ → α → Prop`, a condition on the action and on the state before
it. The guard `anyStep` gives plain reachability.

## Contents

- `System`, `Reach`, `Reachable`: states reached by runs whose steps meet a guard
- `Reach.invariant`: the induction rule
- `System.ofCommands`: systems given by an enabling condition and a result
- `exists_iterate_of_measure`: a thread comes to its goal
- `run`, `invariant_of_run`, `Reach.of_run`: executable runs, from any state
- `Along`, `Guarded`, `along_iff_guarded`, `along_iff_guarded_ofCommands`: a property
  holds in every state of a run exactly when every step of the run meets the guard
- `along_probe_iff_guarded`: the same, where the harm of a step shows only later
-/

namespace Transition

variable {σ α : Type*}

/-! ## Reachability under a guard -/

/-- A transition system: initial states, and a step function in which `none`
    marks an action that is not enabled. -/
structure System (σ α : Type*) where
  init : σ → Prop
  step : σ → α → Option σ

/-- The states reached by runs all of whose steps meet the guard `ok`. -/
inductive Reach (T : System σ α) (ok : σ → α → Prop) : σ → Prop where
  | init {s : σ} (h : T.init s) : Reach T ok s
  | step {s s' : σ} {a : α} (h : Reach T ok s) (hok : ok s a)
      (hs : T.step s a = some s') : Reach T ok s'

def anyStep : σ → α → Prop := fun _ _ => True

instance (s : σ) (a : α) : Decidable (anyStep s a) := isTrue trivial

/-- Plain reachability: no condition on the steps. -/
abbrev Reachable (T : System σ α) : σ → Prop := Reach T anyStep

/-- **Invariant rule**: what holds initially and is preserved by every step that
    meets the guard holds in every state reached under the guard. -/
theorem Reach.invariant {T : System σ α} {ok : σ → α → Prop} {Inv : σ → Prop}
    (hinit : ∀ s, T.init s → Inv s)
    (hstep : ∀ s a s', Inv s → ok s a → T.step s a = some s' → Inv s')
    {s : σ} (h : Reach T ok s) : Inv s := by
  -- the induction is on the run that reaches the state
  induction h with
  | init h => exact hinit _ h
  | step _ hok hs ih => exact hstep _ _ _ ih hok hs

/-! ## Guarded commands

A system whose actions are *guarded commands*: an action is enabled or not, and has one
result. -/

/-- The system of a decidable `enabled` and a total `next`. -/
def System.ofCommands (init : σ → Prop) (enabled : σ → α → Prop)
    [∀ s a, Decidable (enabled s a)] (next : σ → α → σ) : System σ α where
  init := init
  step s a := if enabled s a then some (next s a) else none

section Commands

variable {init : σ → Prop} {enabled : σ → α → Prop} [∀ s a, Decidable (enabled s a)]
  {next : σ → α → σ}

theorem ofCommands_step_iff {s s' : σ} {a : α} :
    (System.ofCommands init enabled next).step s a = some s' ↔
      enabled s a ∧ s' = next s a := by
  unfold System.ofCommands
  by_cases h : enabled s a
  · simp [h, eq_comm]
  · simp [h]

/-- The invariant rule for guarded commands. -/
theorem Reach.invariant_ofCommands {ok : σ → α → Prop} {Inv : σ → Prop}
    (hinit : ∀ s, init s → Inv s)
    (hstep : ∀ s a, Inv s → ok s a → enabled s a → Inv (next s a))
    {s : σ} (h : Reach (System.ofCommands init enabled next) ok s) : Inv s := by
  apply h.invariant hinit
  intro s a s' hI hok hs
  obtain ⟨hen, rfl⟩ := ofCommands_step_iff.mp hs
  exact hstep s a hI hok hen

end Commands

/-! ## Progress -/

/-- **Progress rule**: a thread whose steps keep an invariant and make a measure fall comes to
    its goal. -/
theorem exists_iterate_of_measure {f : σ → σ} {Inv : σ → Prop} (Goal : σ → Prop)
    (measure : σ → ℕ) (hstep : ∀ s, Inv s → ¬ Goal s → Inv (f s) ∧ measure (f s) < measure s)
    {s : σ} (hI : Inv s) : ∃ n, Goal (f^[n] s) := by
  -- the induction is on the measure
  induction hm : measure s using Nat.strongRecOn generalizing s with
  | ind m ih =>
    by_cases hgoal : Goal s
    · exact ⟨0, hgoal⟩
    · obtain ⟨hI', hlt⟩ := hstep s hI hgoal
      obtain ⟨n, hn⟩ := ih (measure (f s)) (hm ▸ hlt) hI' rfl
      exact ⟨n + 1, hn⟩

/-! ## Executable runs -/

/-- Take the steps of a list in order; `none` as soon as one is not enabled or
    does not meet the guard. -/
def run (T : System σ α) (ok : σ → α → Prop) [∀ s a, Decidable (ok s a)] :
    σ → List α → Option σ
  | s, [] => some s
  | s, a :: as => if ok s a then (T.step s a).bind fun s' => run T ok s' as else none

section Run

variable {T : System σ α} {ok : σ → α → Prop} [∀ s a, Decidable (ok s a)]

/-- The invariant rule for one run: what holds where it begins, and is kept by every step that
    meets the guard, holds where it ends. -/
theorem invariant_of_run (Inv : σ → Prop)
    (hstep : ∀ s a s', Inv s → ok s a → T.step s a = some s' → Inv s') {s s' : σ} (hI : Inv s)
    (as : List α) (hrun : run T ok s as = some s') : Inv s' := by
  -- step by step, each of which meets the guard
  induction as generalizing s with
  | nil =>
    simp only [run, Option.some.injEq] at hrun
    exact hrun ▸ hI
  | cons a as ih =>
    simp only [run] at hrun
    split at hrun
    · rename_i hok
      obtain ⟨t, ht, hrun⟩ := Option.bind_eq_some_iff.mp hrun
      exact ih (hstep s a t hI hok ht) hrun
    · simp at hrun

theorem Reach.of_run {s s' : σ} (h : Reach T ok s) (as : List α)
    (hrun : run T ok s as = some s') : Reach T ok s' :=
  invariant_of_run (Reach T ok) (fun _ _ _ hreach hok hs => .step hreach hok hs) h as hrun

/-- An enabled command is the next step of a run. -/
theorem run_ofCommands_cons {init : σ → Prop} {enabled : σ → α → Prop}
    [∀ s a, Decidable (enabled s a)] {next : σ → α → σ} {s : σ} {a : α} (as : List α)
    (hen : enabled s a) :
    run (System.ofCommands init enabled next) anyStep s (a :: as) =
      run (System.ofCommands init enabled next) anyStep (next s a) as := by
  simp [run, anyStep, System.ofCommands, hen]

/-- A check that evaluates to `true` at the end of a run holds in a reached
    state: the way a concrete schedule becomes an existence proof. -/
theorem Reach.exists_of_run {s : σ} (h : Reach T ok s) (as : List α) (p : σ → Bool)
    (hrun : (run T ok s as).map p = some true) : ∃ s', Reach T ok s' ∧ p s' = true := by
  obtain ⟨s', hs', hp⟩ := Option.map_eq_some_iff.mp hrun
  exact ⟨s', h.of_run as hs', hp⟩

end Run

/-! ## Properties of whole runs -/

/-- `P` holds in every state that the run of the actions visits. -/
def Along (T : System σ α) (P : σ → Prop) : σ → List α → Prop
  | s, [] => P s
  | s, a :: as => P s ∧ ∀ s', T.step s a = some s' → Along T P s' as

/-- Every step that the run of the actions takes meets the guard. -/
def Guarded (T : System σ α) (ok : σ → α → Prop) : σ → List α → Prop
  | _, [] => True
  | s, a :: as => ∀ s', T.step s a = some s' → ok s a ∧ Guarded T ok s' as

theorem Along.head {T : System σ α} {P : σ → Prop} {s : σ} {as : List α}
    (h : Along T P s as) : P s := by
  cases as with
  | nil => exact h
  | cons a as => exact h.1

/-- **Exact guard rule**: if, under an invariant, a step keeps `P` exactly when it
    meets the guard, then a run visits only `P`-states exactly when all its steps
    meet the guard. -/
theorem along_iff_guarded {T : System σ α} {ok : σ → α → Prop} {Inv P : σ → Prop}
    (hinv : ∀ s a s', Inv s → ok s a → T.step s a = some s' → Inv s')
    (hstep : ∀ s a s', Inv s → T.step s a = some s' → (P s' ↔ ok s a))
    {s : σ} (hI : Inv s) (hP : P s) (as : List α) :
    Along T P s as ↔ Guarded T ok s as := by
  induction as generalizing s with
  | nil => exact ⟨fun _ => trivial, fun _ => hP⟩
  | cons a as ih =>
    refine ⟨?_, ?_⟩
    · intro h s' hs'
      -- the target has `P`, so this step met the guard
      have hok : ok s a := (hstep s a s' hI hs').mp (h.2 s' hs').head
      have hP' : P s' := (hstep s a s' hI hs').mpr hok
      exact ⟨hok, (ih (hinv s a s' hI hok hs') hP').mp (h.2 s' hs')⟩
    · intro h
      refine ⟨hP, fun s' hs' => ?_⟩
      obtain ⟨hok, hrest⟩ := h s' hs'
      have hP' : P s' := (hstep s a s' hI hs').mpr hok
      exact (ih (hinv s a s' hI hok hs') hP').mpr hrest

/-- The exact guard rule for guarded commands. -/
theorem along_iff_guarded_ofCommands {init : σ → Prop} {enabled : σ → α → Prop}
    [∀ s a, Decidable (enabled s a)] {next : σ → α → σ} {ok : σ → α → Prop} {Inv P : σ → Prop}
    (hinv : ∀ s a, Inv s → enabled s a → ok s a → Inv (next s a))
    (hstep : ∀ s a, Inv s → enabled s a → (P (next s a) ↔ ok s a))
    {s : σ} (hI : Inv s) (hP : P s) (as : List α) :
    Along (System.ofCommands init enabled next) P s as ↔
      Guarded (System.ofCommands init enabled next) ok s as := by
  refine along_iff_guarded (fun s a s' hI hok hs => ?_) (fun s a s' hI hs => ?_) hI hP as
  · obtain ⟨hen, rfl⟩ := ofCommands_step_iff.mp hs
    exact hinv s a hI hen hok
  · obtain ⟨hen, rfl⟩ := ofCommands_step_iff.mp hs
    exact hstep s a hI hen

/-- **Exact guard rule with a probe**: an action can be taken at any time, and does no harm
    under the invariant. If it does harm after every step that does not meet the guard, then
    the steps of a run meet the guard exactly when a run visits only `P`-states, wherever it
    is broken off for the probe. -/
theorem along_probe_iff_guarded {T : System σ α} {ok : σ → α → Prop} {Inv P : σ → Prop}
    {probe : α} (hinv : ∀ s a s', Inv s → ok s a → T.step s a = some s' → Inv s')
    (hP : ∀ s, Inv s → P s) (hprobe : ∀ s, Inv s → ok s probe)
    (hharm : ∀ s a s', Inv s → T.step s a = some s' → ¬ ok s a → ¬ Along T P s' [probe])
    {s : σ} (hI : Inv s) (as : List α) :
    (∀ p, p <+: as → Along T P s (p ++ [probe])) ↔ Guarded T ok s as := by
  -- a probe at any moment does no harm
  have hsafe (s : σ) (hI : Inv s) : Along T P s [probe] :=
    ⟨hP s hI, fun s' hs' => hP s' (hinv s probe s' hI (hprobe s hI) hs')⟩
  induction as generalizing s with
  | nil =>
    refine ⟨fun _ => trivial, fun _ p hp => ?_⟩
    rw [List.prefix_nil.mp hp]
    exact hsafe s hI
  | cons a as ih =>
    refine ⟨fun h s' hs' => ?_, fun h p hp => ?_⟩
    · -- a step that does not meet the guard is shown up by a probe right behind it
      have hok : ok s a := by
        refine Classical.byContradiction fun hnot => ?_
        have hbroken := (h [a] (List.prefix_append [a] as)).2 s' hs'
        exact hharm s a s' hI hs' hnot hbroken
      refine ⟨hok, (ih (hinv s a s' hI hok hs')).mp fun p hp => ?_⟩
      exact (h (a :: p) (List.cons_prefix_cons.mpr ⟨rfl, hp⟩)).2 s' hs'
    · -- the probe comes at once, or after the first step
      cases p with
      | nil => exact hsafe s hI
      | cons b p =>
        obtain ⟨rfl, htail⟩ := List.cons_prefix_cons.mp hp
        refine ⟨hP s hI, fun s' hs' => ?_⟩
        obtain ⟨hok, hrest⟩ := h s' hs'
        exact (ih (hinv s b s' hI hok hs')).mpr hrest p htail

end Transition
