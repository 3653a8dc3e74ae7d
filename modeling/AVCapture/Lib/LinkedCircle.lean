import Mathlib.Data.List.Chain
import Mathlib.Data.List.Nodup
import Mathlib.Data.Nat.Notation

/-!
# Linked Circles

Nodes that are linked in a circle: `next` leads from the first node through the others and
back. Only the links of the nodes in the circle count; the other nodes may point anywhere.

## Contents

- `LinkedCircle`: the circle as a first node and the others
- `next_getLastD`: where a link leads
- `rotate`, `insert`: another first node, one node more
-/

variable {α : Type*} {next next' : α → α} {a b c new : α} {l r : List α}

/-- The links lead from `first` through `others` and back. -/
structure LinkedCircle (next : α → α) (first : α) (others : List α) : Prop where
  nodup : (first :: others).Nodup
  chain : (first :: (others ++ [first])).IsChain fun a b => next a = b

namespace LinkedCircle

/-! ## Paths -/

theorem path_congr (h : (l ++ [c]).IsChain fun a b => next a = b)
    (hagree : ∀ b ∈ l, next' b = next b) : (l ++ [c]).IsChain fun a b => next' a = b := by
  -- the induction is on the nodes of the path
  induction l with
  | nil => exact .singleton c
  | cons b l ih =>
    have hrest := ih h.tail fun d hd => hagree d (List.mem_cons_of_mem b hd)
    have hb : next' b = next b := hagree b List.mem_cons_self
    cases l with
    | nil => exact List.isChain_cons_cons.mpr ⟨hb.trans h.rel, hrest⟩
    | cons d l => exact List.isChain_cons_cons.mpr ⟨hb.trans h.rel, hrest⟩

theorem path_next (h : (a :: (l ++ r ++ [c])).IsChain fun a b => next a = b) :
    next (l.getLastD a) = r.headD c := by
  -- the link is the one behind the last node of `l`
  induction l generalizing a with
  | nil =>
    cases r with
    | nil => exact h.rel
    | cons b r => exact h.rel
  | cons b l ih =>
    rw [List.getLastD_cons]
    exact ih h.tail

/-- A node more on a path, behind the last node of `a :: l`. -/
theorem path_insert (h : (a :: (l ++ r ++ [c])).IsChain fun a b => next a = b)
    (hnodup : (a :: (l ++ r)).Nodup) (hfresh : new ∉ a :: (l ++ r))
    (hnew : next' new = next (l.getLastD a)) (hlast : next' (l.getLastD a) = new)
    (hagree : ∀ b, b ≠ l.getLastD a → b ≠ new → next' b = next b) :
    (a :: (l ++ new :: r ++ [c])).IsChain fun a b => next' a = b := by
  induction l generalizing a with
  | nil =>
    have hnext := path_next (l := []) h
    -- behind the new node the path is the old one
    have hrest : (r ++ [c]).IsChain fun a b => next' a = b := by
      refine path_congr h.tail fun b hb => hagree b ?_ ?_
      · rintro rfl
        exact (List.nodup_cons.mp hnodup).1 hb
      · rintro rfl
        exact hfresh (List.mem_cons_of_mem a hb)
    -- the last node links to the new one, which takes over its link
    refine List.isChain_cons_cons.mpr ⟨hlast, ?_⟩
    cases r with
    | nil => exact List.isChain_cons_cons.mpr ⟨hnew.trans hnext, hrest⟩
    | cons b r => exact List.isChain_cons_cons.mpr ⟨hnew.trans hnext, hrest⟩
  | cons b l ih =>
    rw [List.getLastD_cons] at hnew hlast hagree
    obtain ⟨ha, hnodup'⟩ := List.nodup_cons.mp hnodup
    have hmem : l.getLastD b ∈ b :: l := List.getLastD_mem_cons
    -- a node before the last one keeps its link
    have hlink : next' a = b := by
      rw [hagree a ?_ ?_]
      · exact h.rel
      · rintro rfl
        exact ha (List.mem_append_left r hmem)
      · rintro rfl
        exact hfresh List.mem_cons_self
    have hrest := ih h.tail hnodup' (fun hin => hfresh (List.mem_cons_of_mem a hin)) hnew hlast
      hagree
    exact List.isChain_cons_cons.mpr ⟨hlink, hrest⟩

/-! ## Circles -/

theorem congr (h : LinkedCircle next a l) (hagree : ∀ b ∈ a :: l, next' b = next b) :
    LinkedCircle next' a l :=
  ⟨h.nodup, path_congr (l := a :: l) h.chain hagree⟩

/-- **The link** of the last node of `a :: l` leads to what comes then. -/
theorem next_getLastD (h : LinkedCircle next a (l ++ r)) : next (l.getLastD a) = r.headD a :=
  path_next h.chain

/-- **Another first node.** -/
theorem rotate (h : LinkedCircle next a (b :: l)) : LinkedCircle next b (l ++ [a]) := by
  -- the first node becomes the last one
  have hnodup : ([a] ++ b :: l).Nodup := h.nodup
  refine ⟨List.nodup_append_comm.mp hnodup, ?_⟩
  have hpath : (b :: (l ++ [a])).IsChain fun a b => next a = b := h.chain.tail
  have hlink : next a = b := h.chain.rel
  have hclosed : ((b :: l) ++ a :: [b]).IsChain fun a b => next a = b :=
    List.isChain_append_cons_cons.mpr ⟨hpath, hlink, .singleton b⟩
  rwa [List.append_assoc]

/-- **One node more**, behind the last node of `a :: l`. -/
theorem insert (h : LinkedCircle next a (l ++ r)) (hfresh : new ∉ a :: (l ++ r))
    (hnew : next' new = next (l.getLastD a)) (hlast : next' (l.getLastD a) = new)
    (hagree : ∀ b, b ≠ l.getLastD a → b ≠ new → next' b = next b) :
    LinkedCircle next' a (l ++ new :: r) := by
  refine ⟨?_, path_insert h.chain h.nodup hfresh hnew hlast hagree⟩
  -- the nodes are the old ones and the new one
  have hperm : (a :: (l ++ new :: r)).Perm (new :: a :: (l ++ r)) :=
    (List.perm_middle.cons a).trans (.swap new a _)
  exact hperm.nodup_iff.mpr (List.nodup_cons.mpr ⟨hfresh, h.nodup⟩)

end LinkedCircle
