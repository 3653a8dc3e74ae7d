import Mathlib.Algebra.Order.Group.Defs
import Mathlib.Algebra.Order.Monoid.Unbundled.Pow
import Mathlib.Data.Finset.Max
import Mathlib.Order.Interval.Finset.Nat

/-!
# Paced Events

A loop starts event `k` no earlier than a deadline, and moves the deadline on by at least a
fixed period from one event to the next. If it moves the deadline further, so that the next
one is never before the start of the event that has just been, then events that are late
are not made up for: there are no bursts.

## Contents

- `Paced`: the deadlines and the starts of such a loop
- `Paced.le_start`: event `k` is not before `k` periods
- `Paced.card_window_le`: how many events start in a window of time
-/

namespace Pacing

variable {T : Type*} [AddCommGroup T] [LinearOrder T] [IsOrderedAddMonoid T]

/-- Deadlines at least `d` apart; every event starts between its deadline and the next. -/
structure Paced (d : T) (deadline start : ℕ → T) : Prop where
  advance : ∀ k, deadline k + d ≤ deadline (k + 1)
  notBefore : ∀ k, deadline k ≤ start k
  resync : ∀ k, start k ≤ deadline (k + 1)

namespace Paced

variable {d : T} {deadline start : ℕ → T}

theorem deadline_add_le (h : Paced d deadline start) (k n : ℕ) :
    deadline k + n • d ≤ deadline (k + n) := by
  induction n with
  | zero => simp
  | succ n ih =>
    calc deadline k + (n + 1) • d = deadline k + n • d + d := by rw [succ_nsmul, add_assoc]
      _ ≤ deadline (k + n) + d := add_le_add_left ih d
      _ ≤ deadline (k + n + 1) := h.advance (k + n)

/-- Event `k` starts no earlier than `k` periods after the first deadline. -/
theorem le_start (h : Paced d deadline start) (k : ℕ) : deadline 0 + k • d ≤ start k := by
  have hdeadline := h.deadline_add_le 0 k
  rw [Nat.zero_add] at hdeadline
  exact hdeadline.trans (h.notBefore k)

/-- After an event at least `n` periods pass before the event `n + 1` places later. -/
theorem start_add_le (h : Paced d deadline start) (k n : ℕ) :
    start k + n • d ≤ start (k + 1 + n) :=
  calc start k + n • d ≤ deadline (k + 1) + n • d := add_le_add_left (h.resync k) _
    _ ≤ deadline (k + 1 + n) := h.deadline_add_le (k + 1) n
    _ ≤ start (k + 1 + n) := h.notBefore (k + 1 + n)

/-- **Windows**: in a window shorter than `m + 1` periods at most `m + 2` events start. -/
theorem card_window_le (h : Paced d deadline start) (hd : 0 ≤ d) {L : T} {m : ℕ}
    (hL : L < (m + 1) • d) (t : T) (n : ℕ) :
    ((Finset.range n).filter fun k => t ≤ start k ∧ start k ≤ t + L).card ≤ m + 2 := by
  generalize hS : ((Finset.range n).filter fun k => t ≤ start k ∧ start k ≤ t + L) = S
  have hwindow : ∀ k ∈ S, t ≤ start k ∧ start k ≤ t + L := by
    intro k hk
    rw [← hS] at hk
    exact (Finset.mem_filter.mp hk).2
  rcases S.eq_empty_or_nonempty with rfl | hne
  · simp
  · -- the first and the last event of the window are less than `m + 2` places apart
    have hfirst := (hwindow _ (S.min'_mem hne)).1
    have hlast := (hwindow _ (S.max'_mem hne)).2
    have hsubset : S ⊆ Finset.Icc (S.min' hne) (S.max' hne) := fun k hk =>
      Finset.mem_Icc.mpr ⟨S.min'_le k hk, S.le_max' k hk⟩
    have hcard := Finset.card_le_card hsubset
    rw [Nat.card_Icc] at hcard
    generalize S.min' hne = a at *
    generalize S.max' hne = b at *
    by_contra hmany
    obtain ⟨e, rfl⟩ : ∃ e, b = a + 1 + (m + 1 + e) := ⟨b - a - (m + 2), by omega⟩
    have hlate : t + (m + 1) • d ≤ t + L :=
      calc t + (m + 1) • d ≤ start a + (m + 1 + e) • d :=
            add_le_add hfirst (nsmul_le_nsmul_left hd (by omega))
        _ ≤ start (a + 1 + (m + 1 + e)) := h.start_add_le a (m + 1 + e)
        _ ≤ t + L := hlast
    exact absurd (le_of_add_le_add_left hlate) (not_le.mpr hL)

end Paced

end Pacing
