import Mathlib.Order.Lattice
import Mathlib.Data.List.Count
import Mathlib.Data.List.Pairwise

/-!
# A Queue that May Refuse

A producer issues stamps in increasing order and hands each one to a first-in first-out
queue, which takes it or refuses it. A consumer takes stamps from the front. `Accounted`
says that nothing is lost, doubled or put out of order on the way.

## Contents

- `Accounted`, with `accept`, `refuse` and `deliver` for the three steps
- `Accounted.count_eq_one`: each stamp is in exactly one place
-/

namespace LossyQueue

variable {α : Type*} [LinearOrder α]

/-- The stamps issued so far, all below `next`, are those delivered, queued and refused;
    and they were delivered and are queued in the order in which they were issued. -/
structure Accounted (next : α) (issued delivered queued refused : List α) : Prop where
  below : ∀ p ∈ issued, p < next
  issued_increasing : issued.Pairwise (· < ·)
  increasing : (delivered ++ queued).Pairwise (· < ·)
  count_eq : ∀ p, issued.count p = delivered.count p + queued.count p + refused.count p

theorem Accounted.nil (next : α) : Accounted next [] [] [] [] :=
  ⟨nofun, List.Pairwise.nil, List.Pairwise.nil, fun _ => rfl⟩

section Steps

variable {next next' p : α} {issued delivered queued refused : List α}

theorem Accounted.mem_issued (h : Accounted next issued delivered queued refused)
    (hp : p ∈ delivered ++ queued) : p ∈ issued := by
  have hpos : 0 < (delivered ++ queued).count p := List.count_pos_iff.mpr hp
  rw [List.count_append] at hpos
  have hcount := h.count_eq p
  exact List.count_pos_iff.mp (by omega)

/-- One more stamp, above the ones before it. -/
theorem pairwise_concat {l : List α} (h : l.Pairwise (· < ·)) (hb : ∀ q ∈ l, q < p) :
    (l ++ [p]).Pairwise (· < ·) := by
  rw [List.pairwise_append]
  refine ⟨h, List.pairwise_singleton _ _, ?_⟩
  intro q hq x hx
  rw [List.mem_singleton.mp hx]
  exact hb q hq

theorem below_concat (h : ∀ q ∈ issued, q < next) (hlt : next < next') :
    ∀ q ∈ issued ++ [next], q < next' := by
  intro q hq
  rcases List.mem_append.mp hq with hold | hnew
  · exact lt_trans (h q hold) hlt
  · rw [List.mem_singleton.mp hnew]
    exact hlt

/-- The next stamp is queued. -/
theorem Accounted.accept (h : Accounted next issued delivered queued refused)
    (hlt : next < next') :
    Accounted next' (issued ++ [next]) delivered (queued ++ [next]) refused := by
  refine ⟨below_concat h.below hlt, pairwise_concat h.issued_increasing h.below, ?_, ?_⟩
  · rw [← List.append_assoc]
    exact pairwise_concat h.increasing fun q hq => h.below q (h.mem_issued hq)
  · intro q
    simp only [List.count_append, h.count_eq q]
    omega

/-- The next stamp is refused. -/
theorem Accounted.refuse (h : Accounted next issued delivered queued refused)
    (hlt : next < next') :
    Accounted next' (issued ++ [next]) delivered queued (refused ++ [next]) := by
  refine ⟨below_concat h.below hlt, pairwise_concat h.issued_increasing h.below,
    h.increasing, ?_⟩
  intro q
  simp only [List.count_append, h.count_eq q]
  omega

/-- The stamp at the front is delivered. -/
theorem Accounted.deliver (h : Accounted next issued delivered (p :: queued) refused) :
    Accounted next issued (delivered ++ [p]) queued refused := by
  have hmove : delivered ++ [p] ++ queued = delivered ++ p :: queued := by simp
  refine ⟨h.below, h.issued_increasing, ?_, ?_⟩
  · rw [hmove]
    exact h.increasing
  · intro q
    have hcount := h.count_eq q
    simp only [List.count_append, List.count_cons, List.count_nil] at hcount ⊢
    omega

/-- **Nothing is lost or doubled**: a stamp is delivered, queued or refused, in one place
    and once. -/
theorem Accounted.count_eq_one (h : Accounted next issued delivered queued refused)
    (hp : p ∈ issued) : delivered.count p + queued.count p + refused.count p = 1 := by
  rw [← h.count_eq p]
  have hnodup : issued.Nodup := h.issued_increasing.imp ne_of_lt
  exact hnodup.count.trans (if_pos hp)

/-- Stamps are delivered in increasing order. -/
theorem Accounted.delivered_increasing
    (h : Accounted next issued delivered queued refused) : delivered.Pairwise (· < ·) :=
  h.increasing.sublist (List.sublist_append_left _ _)

end Steps

end LossyQueue
