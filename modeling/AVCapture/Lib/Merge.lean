import Mathlib.Data.List.Basic
import Mathlib.Order.Lattice

/-!
# Merging Until a List Runs Out

A two-way merge that stops as soon as either of its inputs is empty, as a relation: the
choices it makes, what it puts out, and what it leaves of the two lists.

## Main results

- `Merges.perm`: nothing is lost or invented between the output and the rests
- `Merges.lefts_append`, `Merges.rights_append`: each input is its outputs, then its rest
- `Merges.exhausted`, `Merges.leftover`: exactly one of two non-empty inputs is used up
- `Merges.pairwise`: with a choice by keys, everything is in key order
- `Merges.length_out`: how much is put out, from the keys
-/

namespace TwoWayMerge

variable {α β : Type*}

/-! ## The relation -/

/-- `Merges first as bs out as' bs'`: merging `as` and `bs`, with `first a b` deciding for
    the left head, puts out `out` and leaves `as'` and `bs'`. -/
inductive Merges (first : α → β → Prop) :
    List α → List β → List (α ⊕ β) → List α → List β → Prop where
  | leftOut (bs : List β) : Merges first [] bs [] [] bs
  | rightOut (as : List α) : Merges first as [] [] as []
  | takeLeft {a : α} {b : β} {as as' : List α} {bs bs' : List β} {out : List (α ⊕ β)}
      (h : first a b) (rest : Merges first as (b :: bs) out as' bs') :
      Merges first (a :: as) (b :: bs) (.inl a :: out) as' bs'
  | takeRight {a : α} {b : β} {as as' : List α} {bs bs' : List β} {out : List (α ⊕ β)}
      (h : ¬ first a b) (rest : Merges first (a :: as) bs out as' bs') :
      Merges first (a :: as) (b :: bs) (.inr b :: out) as' bs'

/-- The outputs from the left list. -/
def lefts (out : List (α ⊕ β)) : List α := out.filterMap Sum.getLeft?

/-- The outputs from the right list. -/
def rights (out : List (α ⊕ β)) : List β := out.filterMap Sum.getRight?

@[simp] theorem lefts_nil : lefts ([] : List (α ⊕ β)) = [] := rfl

@[simp] theorem lefts_inl (a : α) (out : List (α ⊕ β)) :
    lefts (.inl a :: out) = a :: lefts out := rfl

@[simp] theorem lefts_inr (b : β) (out : List (α ⊕ β)) : lefts (.inr b :: out) = lefts out := rfl

@[simp] theorem rights_nil : rights ([] : List (α ⊕ β)) = [] := rfl

@[simp] theorem rights_inl (a : α) (out : List (α ⊕ β)) :
    rights (.inl a :: out) = rights out := rfl

@[simp] theorem rights_inr (b : β) (out : List (α ⊕ β)) :
    rights (.inr b :: out) = b :: rights out := rfl

section Merges

variable {first : α → β → Prop} {as as' : List α} {bs bs' : List β} {out : List (α ⊕ β)}

/-! ## Nothing lost, nothing invented -/

theorem Merges.lefts_append (h : Merges first as bs out as' bs') : lefts out ++ as' = as := by
  induction h with
  | leftOut bs => rfl
  | rightOut as => rfl
  | takeLeft _ _ ih => rw [lefts_inl, List.cons_append, ih]
  | takeRight _ _ ih => rw [lefts_inr, ih]

theorem Merges.rights_append (h : Merges first as bs out as' bs') : rights out ++ bs' = bs := by
  induction h with
  | leftOut bs => rfl
  | rightOut as => rfl
  | takeLeft _ _ ih => rw [rights_inl, ih]
  | takeRight _ _ ih => rw [rights_inr, List.cons_append, ih]

/-- The output with both rests is a rearrangement of the two inputs. -/
theorem Merges.perm (h : Merges first as bs out as' bs') :
    (out ++ (as'.map Sum.inl ++ bs'.map Sum.inr)).Perm (as.map Sum.inl ++ bs.map Sum.inr) := by
  induction h with
  | leftOut bs => exact List.Perm.refl _
  | rightOut as => exact List.Perm.refl _
  | takeLeft _ _ ih => exact List.Perm.cons _ ih
  | takeRight _ _ ih => exact (List.Perm.cons _ ih).trans List.perm_middle.symm

/-! ## One input is used up -/

theorem Merges.exhausted (h : Merges first as bs out as' bs') : as' = [] ∨ bs' = [] := by
  induction h with
  | leftOut bs => exact Or.inl rfl
  | rightOut as => exact Or.inr rfl
  | takeLeft _ _ ih => exact ih
  | takeRight _ _ ih => exact ih

/-- The last element of the other input is always left over: when one list runs out, the
    other one still holds the head it was compared with. -/
theorem Merges.leftover (h : Merges first as bs out as' bs') (has : as ≠ []) (hbs : bs ≠ []) :
    as' ≠ [] ∨ bs' ≠ [] := by
  induction h with
  | leftOut bs => exact absurd rfl has
  | rightOut as => exact absurd rfl hbs
  | @takeLeft a b as as' bs bs' out _ rest ih =>
    cases as with
    | nil =>
      -- the left list has run out, and `b` is still there
      cases rest
      exact Or.inr (List.cons_ne_nil b bs)
    | cons a as => exact ih (List.cons_ne_nil a as) (List.cons_ne_nil b bs)
  | @takeRight a b as as' bs bs' out _ rest ih =>
    cases bs with
    | nil =>
      -- the right list has run out, and `a` is still there
      cases rest
      exact Or.inl (List.cons_ne_nil a as)
    | cons b bs => exact ih (List.cons_ne_nil a as) (List.cons_ne_nil b bs)

end Merges

/-! ## Merging by keys -/

section Keys

variable {κ : Type*} [LinearOrder κ] (ka : α → κ) (kb : β → κ)

/-- The order of a merge by keys: by the key, and an element of the left list before one of
    the right list with the same key. -/
def Precedes (x y : α ⊕ β) : Prop :=
  Sum.elim ka kb x ≤ Sum.elim ka kb y ∧
    (x.isRight = true → y.isLeft = true → Sum.elim ka kb x < Sum.elim ka kb y)

/-- **Order of a merge**: when the inputs are in key order and the smaller head is taken,
    the left one on ties, the whole output is in order, and so is what was left over,
    after all that was put out. -/
theorem Merges.pairwise {first : α → β → Prop} {as as' : List α} {bs bs' : List β}
    {out : List (α ⊕ β)} (h : Merges first as bs out as' bs')
    (hfirst : ∀ a b, first a b ↔ ka a ≤ kb b)
    (has : as.Pairwise fun a a' => ka a ≤ ka a') (hbs : bs.Pairwise fun b b' => kb b ≤ kb b') :
    (out ++ (as'.map Sum.inl ++ bs'.map Sum.inr)).Pairwise (Precedes ka kb) := by
  -- a head that is taken precedes the rest of its own list and the whole other list
  have hmem : ∀ {l : List (α ⊕ β)} {as : List α} {bs : List β} {x : α ⊕ β},
      l.Perm (as.map Sum.inl ++ bs.map Sum.inr) → (∀ a ∈ as, Precedes ka kb x (.inl a)) →
      (∀ b ∈ bs, Precedes ka kb x (.inr b)) → ∀ y ∈ l, Precedes ka kb x y := by
    intro l as bs x hperm hl hr y hy
    rcases List.mem_append.mp (hperm.mem_iff.mp hy) with hy | hy
    · obtain ⟨a, ha, rfl⟩ := List.mem_map.mp hy
      exact hl a ha
    · obtain ⟨b, hb, rfl⟩ := List.mem_map.mp hy
      exact hr b hb
  induction h with
  | leftOut bs =>
    -- only elements of the right list
    refine List.pairwise_map.mpr (hbs.imp fun h => ⟨h, fun _ hy => ?_⟩)
    simp at hy
  | rightOut as =>
    rw [List.map_nil, List.append_nil, List.nil_append]
    refine List.pairwise_map.mpr (has.imp fun h => ⟨h, fun hx => ?_⟩)
    simp at hx
  | @takeLeft a b as as' bs bs' out hab rest ih =>
    obtain ⟨ha, has⟩ := List.pairwise_cons.mp has
    refine List.Pairwise.cons (hmem rest.perm ?_ ?_) (ih has hbs)
    · exact fun a' ha' => ⟨ha a' ha', fun hx => absurd hx (by simp)⟩
    · intro b' hb'
      -- the left head goes first, also on a tie
      have hle : ka a ≤ kb b := (hfirst a b).mp hab
      rcases List.mem_cons.mp hb' with rfl | hb'
      · exact ⟨hle, fun hx => absurd hx (by simp)⟩
      · exact ⟨hle.trans ((List.pairwise_cons.mp hbs).1 b' hb'), fun hx => absurd hx (by simp)⟩
  | @takeRight a b as as' bs bs' out hab rest ih =>
    obtain ⟨hb, hbs⟩ := List.pairwise_cons.mp hbs
    refine List.Pairwise.cons (hmem rest.perm ?_ ?_) (ih has hbs)
    · intro a' ha'
      -- the right head went first, so it is strictly before the left one
      have hlt : kb b < ka a := lt_of_not_ge fun hle => hab ((hfirst a b).mpr hle)
      have hlt' : kb b < ka a' := by
        rcases List.mem_cons.mp ha' with rfl | ha'
        · exact hlt
        · exact lt_of_lt_of_le hlt ((List.pairwise_cons.mp has).1 a' ha')
      exact ⟨hlt'.le, fun _ _ => hlt'⟩
    · exact fun b' hb' => ⟨hb b' hb', fun _ hy => absurd hy (by simp)⟩

/-- In a list in key order no key is greater than the last one. -/
theorem key_le_last {ι : Type*} {k : ι → κ} {l : List ι} {x last : ι}
    (hl : l.Pairwise fun x y => k x ≤ k y) (hlast : l.getLast? = some last) (hx : x ∈ l) :
    k x ≤ k last := by
  obtain ⟨before, rfl⟩ := List.getLast?_eq_some_iff.mp hlast
  rcases List.mem_append.mp hx with hbefore | hsame
  · exact (List.pairwise_append.mp hl).2.2 x hbefore last (List.mem_singleton_self last)
  · rw [List.mem_singleton.mp hsame]

/-- **Length of a merge**, from the keys alone: the list with the smaller last key is used up,
    the left one on ties, and of the other one is put out what precedes that key. -/
theorem Merges.length_out {first : α → β → Prop} {as as' : List α} {bs bs' : List β}
    {out : List (α ⊕ β)} (h : Merges first as bs out as' bs')
    (hfirst : ∀ a b, first a b ↔ ka a ≤ kb b)
    (has : as.Pairwise fun a a' => ka a ≤ ka a') (hbs : bs.Pairwise fun b b' => kb b ≤ kb b')
    {lastA : α} {lastB : β} (hlastA : as.getLast? = some lastA)
    (hlastB : bs.getLast? = some lastB) :
    out.length =
      if ka lastA ≤ kb lastB then as.length + bs.countP fun b => kb b < ka lastA
      else bs.length + as.countP fun a => ka a ≤ kb lastB := by
  induction h with
  | leftOut bs => cases hlastA
  | rightOut as => cases hlastB
  | @takeLeft a b as as' bs bs' out hab rest ih =>
    have hle : ka a ≤ kb b := (hfirst a b).mp hab
    have hlast : kb b ≤ kb lastB := key_le_last hbs hlastB List.mem_cons_self
    cases as with
    | nil =>
      -- the left list has run out, and nothing of the right one comes before
      cases rest
      obtain rfl : a = lastA := Option.some.inj hlastA
      have hnone : ((b :: bs).countP fun b => kb b < ka a) = 0 := by
        rw [List.countP_eq_zero]
        intro b' hb'
        have hb : kb b ≤ kb b' := by
          rcases List.mem_cons.mp hb' with rfl | hlater
          · exact le_rfl
          · exact (List.pairwise_cons.mp hbs).1 b' hlater
        simpa using hle.trans hb
      rw [if_pos (hle.trans hlast), hnone]
      rfl
    | cons a' as =>
      rw [List.getLast?_cons_cons] at hlastA
      have hlength := ih (List.pairwise_cons.mp has).2 hbs hlastA hlastB
      have hcount : ((a :: a' :: as).countP fun a => ka a ≤ kb lastB) =
          ((a' :: as).countP fun a => ka a ≤ kb lastB) + 1 :=
        List.countP_cons_of_pos (by simpa using hle.trans hlast)
      rw [List.length_cons, hlength, hcount]
      split
      · simp only [List.length_cons]
        omega
      · omega
  | @takeRight a b as as' bs bs' out hab rest ih =>
    have hlt : kb b < ka a := lt_of_not_ge fun hle => hab ((hfirst a b).mpr hle)
    have hlast : ka a ≤ ka lastA := key_le_last has hlastA List.mem_cons_self
    cases bs with
    | nil =>
      -- the right list has run out, and nothing of the left one comes before
      cases rest
      obtain rfl : b = lastB := Option.some.inj hlastB
      have hnone : ((a :: as).countP fun a => ka a ≤ kb b) = 0 := by
        rw [List.countP_eq_zero]
        intro a' ha'
        have ha : ka a ≤ ka a' := by
          rcases List.mem_cons.mp ha' with rfl | hlater
          · exact le_rfl
          · exact (List.pairwise_cons.mp has).1 a' hlater
        simpa using lt_of_lt_of_le hlt ha
      rw [if_neg (not_le.mpr (lt_of_lt_of_le hlt hlast)), hnone]
      rfl
    | cons b' bs =>
      rw [List.getLast?_cons_cons] at hlastB
      have hlength := ih has (List.pairwise_cons.mp hbs).2 hlastA hlastB
      have hcount : ((b :: b' :: bs).countP fun b => kb b < ka lastA) =
          ((b' :: bs).countP fun b => kb b < ka lastA) + 1 :=
        List.countP_cons_of_pos (by simpa using lt_of_lt_of_le hlt hlast)
      rw [List.length_cons, hlength, hcount]
      split
      · omega
      · simp only [List.length_cons]
        omega

end Keys

end TwoWayMerge
