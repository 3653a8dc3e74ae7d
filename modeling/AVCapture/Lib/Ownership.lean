import Mathlib.Data.Finset.Insert
import Mathlib.Data.Finset.Card
import Mathlib.Data.List.Nodup
import Mathlib.Logic.Function.Basic

/-!
# Handles and their Owners

A program takes handles of several kinds from its surroundings, and gives each of them back,
once, as its kind. A ledger records the handles that are out, and whether one has been given
back or used that was not out.

Every handle that is out has one owner. `Turns` says what a piece of code makes of what one
owner has: the others keep theirs, so what is proved of a piece of code holds wherever it is
called.

## Contents

- `Ledger`: `acquire`, `release`, `use`
- `Owned`: every handle that is out has one owner, and none has been misused
- `Turns`: the rules for pieces of code, with the frame rule
- `Owned.transfer`: a handle changes its owner
- `Owned.card`: what is out is what is owned
- `Store`: objects that hold handles, and the handles that no object holds any more
-/

namespace Ownership

variable {κ : Type}

/-! ## Ledgers -/

/-- The handles that are out, with their kinds, and the number of the next one. -/
structure Ledger (κ : Type) where
  next : ℕ := 0
  live : Finset (κ × ℕ) := ∅
  misused : Bool := false

namespace Ledger

variable [DecidableEq κ]

/-- A handle of kind `k`, with the number `next`. -/
def acquire (L : Ledger κ) (k : κ) : Ledger κ :=
  { L with next := L.next + 1, live := insert (k, L.next) L.live }

def release (L : Ledger κ) (h : κ × ℕ) : Ledger κ :=
  if h ∈ L.live then { L with live := L.live.erase h } else { L with misused := true }

def use (L : Ledger κ) (h : κ × ℕ) : Ledger κ :=
  if h ∈ L.live then L else { L with misused := true }

end Ledger

/-- The handle that a pointer holds, if it is not null. -/
def ptr (k : κ) (p : Option ℕ) : List (κ × ℕ) := (p.map fun n => (k, n)).toList

/-- A pointer that may be null is given back. -/
def Ledger.releasePtr [DecidableEq κ] (L : Ledger κ) (k : κ) : Option ℕ → Ledger κ
  | none => L
  | some n => L.release (k, n)

@[simp] theorem ptr_none (k : κ) : ptr k none = [] := rfl

@[simp] theorem ptr_some (k : κ) (n : ℕ) : ptr k (some n) = [(k, n)] := rfl

/-! ## Owners -/

section Owned

variable {ι : Type}

/-- Every handle that is out has one owner, who has it once. -/
structure Owned (L : Ledger κ) (own : ι → List (κ × ℕ)) : Prop where
  live : ∀ h, h ∈ L.live ↔ ∃ i, h ∈ own i
  nodup : ∀ i, (own i).Nodup
  single : ∀ i j h, h ∈ own i → h ∈ own j → i = j
  below : ∀ h ∈ L.live, h.2 < L.next
  sound : L.misused = false

variable {L L' : Ledger κ} {own : ι → List (κ × ℕ)} {i j : ι} {h : κ × ℕ}
  {xs ys : List (κ × ℕ)}

theorem owned_empty : Owned ({} : Ledger κ) fun _ : ι => [] :=
  ⟨fun _ => by simp, fun _ => List.nodup_nil, nofun, nofun, rfl⟩

theorem Owned.mem_live (hL : Owned L own) (hmem : h ∈ own i) : h ∈ L.live :=
  (hL.live h).mpr ⟨i, hmem⟩

/-- One owner's handles in another order. -/
theorem Owned.perm [DecidableEq ι] (hL : Owned L own) (hperm : (own i).Perm ys) :
    Owned L (Function.update own i ys) := by
  have hmem (j : ι) (h : κ × ℕ) : h ∈ Function.update own i ys j ↔ h ∈ own j := by
    rcases eq_or_ne j i with rfl | hne
    · rw [Function.update_self]
      exact hperm.mem_iff.symm
    · rw [Function.update_of_ne hne]
  refine ⟨fun h => ?_, fun j => ?_, fun j k h hj hk => ?_, hL.below, hL.sound⟩
  · rw [hL.live]
    exact exists_congr fun j => (hmem j h).symm
  · rcases eq_or_ne j i with rfl | hne
    · rw [Function.update_self]
      exact hperm.nodup_iff.mp (hL.nodup j)
    · rw [Function.update_of_ne hne]
      exact hL.nodup j
  · exact hL.single j k h ((hmem j h).mp hj) ((hmem k h).mp hk)

theorem Owned.acquire [DecidableEq κ] [DecidableEq ι] (hL : Owned L own) (i : ι) (k : κ) :
    Owned (L.acquire k) (Function.update own i ((k, L.next) :: own i)) := by
  -- the new handle has a number that nobody has, so that it is nobody's
  have hfresh (j : ι) : (k, L.next) ∉ own j := fun hin =>
    Nat.lt_irrefl _ (hL.below _ (hL.mem_live hin))
  have hmem (j : ι) (h : κ × ℕ) :
      h ∈ Function.update own i ((k, L.next) :: own i) j ↔
        (j = i ∧ h = (k, L.next)) ∨ h ∈ own j := by
    rcases eq_or_ne j i with rfl | hne
    · rw [Function.update_self, List.mem_cons]
      simp
    · rw [Function.update_of_ne hne]
      simp [hne]
  -- what is out is what was out and the new handle, which has one owner
  refine ⟨fun h => ?_, fun j => ?_, fun j j' h hj hj' => ?_, fun h hlive => ?_, hL.sound⟩
  · show h ∈ insert (k, L.next) L.live ↔ _
    rw [Finset.mem_insert, hL.live]
    constructor
    · rintro (hnew | ⟨j, hold⟩)
      · exact ⟨i, (hmem i h).mpr (Or.inl ⟨rfl, hnew⟩)⟩
      · exact ⟨j, (hmem j h).mpr (Or.inr hold)⟩
    · rintro ⟨j, hj⟩
      rcases (hmem j h).mp hj with ⟨-, hnew⟩ | hold
      · exact Or.inl hnew
      · exact Or.inr ⟨j, hold⟩
  · rcases eq_or_ne j i with rfl | hne
    · rw [Function.update_self]
      exact List.nodup_cons.mpr ⟨hfresh j, hL.nodup j⟩
    · rw [Function.update_of_ne hne]
      exact hL.nodup j
  · -- both have the new handle, or one of them, which the other cannot have, or neither
    rcases (hmem j h).mp hj with ⟨rfl, rfl⟩ | hold
    · rcases (hmem j' _).mp hj' with ⟨rfl, -⟩ | hold'
      · rfl
      · exact absurd hold' (hfresh j')
    · rcases (hmem j' h).mp hj' with ⟨rfl, rfl⟩ | hold'
      · exact absurd hold (hfresh j)
      · exact hL.single j j' h hold hold'
  · rcases Finset.mem_insert.mp hlive with rfl | hold
    · exact Nat.lt_succ_self _
    · exact Nat.lt_succ_of_lt (hL.below h hold)

theorem Owned.release [DecidableEq κ] [DecidableEq ι] (hL : Owned L own) (hi : own i = h :: xs) :
    Owned (L.release h) (Function.update own i xs) := by
  have hnodup := hL.nodup i
  rw [hi] at hnodup
  obtain ⟨hnot, hxs⟩ := List.nodup_cons.mp hnodup
  have hin : h ∈ own i := by
    rw [hi]
    exact List.mem_cons_self
  have hlive : h ∈ L.live := hL.mem_live hin
  -- the handle given back leaves its owner, and no other one had it
  have hmem (j : ι) (x : κ × ℕ) :
      x ∈ Function.update own i xs j ↔ x ∈ own j ∧ x ≠ h := by
    rcases eq_or_ne j i with rfl | hne
    · rw [Function.update_self, hi, List.mem_cons]
      constructor
      · exact fun hx => ⟨Or.inr hx, fun heq => hnot (heq ▸ hx)⟩
      · exact fun hx => hx.1.resolve_left hx.2
    · rw [Function.update_of_ne hne]
      refine ⟨fun hx => ⟨hx, ?_⟩, And.left⟩
      rintro rfl
      exact hne (hL.single j i x hx hin)
  unfold Ledger.release
  rw [if_pos hlive]
  refine ⟨fun x => ?_, fun j => ?_, fun j k x hj hk => ?_, fun x hx => ?_, hL.sound⟩
  · rw [Finset.mem_erase, hL.live]
    constructor
    · rintro ⟨hne, j, hj⟩
      exact ⟨j, (hmem j x).mpr ⟨hj, hne⟩⟩
    · rintro ⟨j, hj⟩
      exact ⟨((hmem j x).mp hj).2, j, ((hmem j x).mp hj).1⟩
  · -- the owner has each of the rest once
    rcases eq_or_ne j i with rfl | hne
    · rw [Function.update_self]
      exact hxs
    · rw [Function.update_of_ne hne]
      exact hL.nodup j
  · exact hL.single j k x ((hmem j x).mp hj).1 ((hmem k x).mp hk).1
  · exact hL.below x (Finset.mem_of_mem_erase hx)

theorem Owned.use [DecidableEq κ] (hL : Owned L own) (hin : h ∈ own i) : L.use h = L :=
  if_pos (hL.mem_live hin)

theorem Owned.uses [DecidableEq κ] (hL : Owned L own) (hin : ∀ h ∈ xs, h ∈ own i) :
    xs.foldl Ledger.use L = L := by
  induction xs with
  -- the handles are used one after the other, and the ledger stays the same
  | nil => rfl
  | cons x xs ih =>
    rw [List.foldl_cons, hL.use (hin x List.mem_cons_self)]
    exact ih fun h hmem => hin h (List.mem_cons_of_mem x hmem)

/-- **Handles change their owner.** -/
theorem Owned.transfer [DecidableEq ι] (hL : Owned L own) (hne : i ≠ j) (hi : own i = xs ++ ys) :
    Owned L (Function.update (Function.update own i xs) j (ys ++ own j)) := by
  have hnodup := hL.nodup i
  rw [hi] at hnodup
  -- of the two parts the first stays where it is
  have hsplit (x : κ × ℕ) : x ∈ own i ↔ x ∈ xs ∨ x ∈ ys := by rw [hi, List.mem_append]
  have hat_i : Function.update (Function.update own i xs) j (ys ++ own j) i = xs := by
    rw [Function.update_of_ne hne, Function.update_self]
  have hat_j : Function.update (Function.update own i xs) j (ys ++ own j) j = ys ++ own j :=
    Function.update_self _ _ _
  have hat (k : ι) (hki : k ≠ i) (hkj : k ≠ j) :
      Function.update (Function.update own i xs) j (ys ++ own j) k = own k := by
    rw [Function.update_of_ne hkj, Function.update_of_ne hki]
  -- who had a handle before
  have hbefore (k : ι) (x : κ × ℕ)
      (hx : x ∈ Function.update (Function.update own i xs) j (ys ++ own j) k) :
      (k = i ∧ x ∈ xs) ∨ (k = j ∧ x ∈ ys) ∨ (k ≠ i ∧ x ∈ own k) := by
    rcases eq_or_ne k i with rfl | hki
    · rw [hat_i] at hx
      exact Or.inl ⟨rfl, hx⟩
    · rcases eq_or_ne k j with rfl | hkj
      · rw [hat_j, List.mem_append] at hx
        exact Or.inr (hx.imp (fun hy => ⟨rfl, hy⟩) fun hold => ⟨hki, hold⟩)
      · rw [hat k hki hkj] at hx
        exact Or.inr (Or.inr ⟨hki, hx⟩)
  refine ⟨fun x => ?_, fun k => ?_, fun k k' x hk hk' => ?_, hL.below, hL.sound⟩
  · -- what is out stays out
    rw [hL.live]
    constructor
    · rintro ⟨k, hk⟩
      rcases eq_or_ne k i with rfl | hki
      · rcases (hsplit x).mp hk with hx | hy
        · exact ⟨k, by rw [hat_i]; exact hx⟩
        · exact ⟨j, by rw [hat_j]; exact List.mem_append_left _ hy⟩
      · rcases eq_or_ne k j with rfl | hkj
        · exact ⟨k, by rw [hat_j]; exact List.mem_append_right _ hk⟩
        · exact ⟨k, by rw [hat k hki hkj]; exact hk⟩
    · rintro ⟨k, hk⟩
      rcases hbefore k x hk with ⟨-, hx⟩ | ⟨-, hy⟩ | ⟨-, hold⟩
      · exact ⟨i, (hsplit x).mpr (Or.inl hx)⟩
      · exact ⟨i, (hsplit x).mpr (Or.inr hy)⟩
      · exact ⟨k, hold⟩
  · -- nobody has a handle twice, as the second part was not with its new owner before
    rcases eq_or_ne k i with rfl | hki
    · rw [hat_i]
      exact (List.nodup_append.mp hnodup).1
    · rcases eq_or_ne k j with rfl | hkj
      · rw [hat_j]
        refine List.nodup_append.mpr ⟨(List.nodup_append.mp hnodup).2.1, hL.nodup k, ?_⟩
        rintro x hy _ hold rfl
        exact hne (hL.single i k x ((hsplit x).mpr (Or.inr hy)) hold)
      · rw [hat k hki hkj]
        exact hL.nodup k
  · -- each handle has one owner: the part that moved has left its old one
    have hapart (hx : x ∈ xs) (hy : x ∈ ys) : False :=
      (List.nodup_append.mp hnodup).2.2 x hx x hy rfl
    have hin_x (hx : x ∈ xs) : x ∈ own i := (hsplit x).mpr (Or.inl hx)
    have hin_y (hy : x ∈ ys) : x ∈ own i := (hsplit x).mpr (Or.inr hy)
    rcases hbefore k x hk with ⟨rfl, hx⟩ | ⟨rfl, hy⟩ | ⟨hki, hold⟩ <;>
      rcases hbefore k' x hk' with ⟨rfl, hx'⟩ | ⟨rfl, hy'⟩ | ⟨hki', hold'⟩
    · rfl
    · exact (hapart hx hy').elim
    · exact absurd (hL.single k' k x hold' (hin_x hx)) hki'
    · exact (hapart hx' hy).elim
    · rfl
    · exact absurd (hL.single k' i x hold' (hin_y hy)) hki'
    · exact absurd (hL.single k k' x hold (hin_x hx')) hki
    · exact absurd (hL.single k i x hold (hin_y hy')) hki
    · exact hL.single k k' x hold hold'

/-- An owner more, who has nothing. -/
theorem Owned.elim (hL : Owned L own) : Owned L fun o : Option ι => o.elim [] own := by
  refine ⟨fun h => ?_, fun o => ?_, fun o o' h ho ho' => ?_, hL.below, hL.sound⟩
  · rw [hL.live]
    exact ⟨fun ⟨i, hi⟩ => ⟨some i, hi⟩, fun ⟨o, ho⟩ => by cases o with
      | none => cases ho
      | some i => exact ⟨i, ho⟩⟩
  · cases o with
    | none => exact List.nodup_nil
    | some i => exact hL.nodup i
  · cases o with
    | none => cases ho
    | some i =>
      cases o' with
      | none => cases ho'
      | some i' => rw [hL.single i i' h ho ho']

theorem Owned.of_option {own : Option ι → List (κ × ℕ)} (hL : Owned L own)
    (hnone : own none = []) : Owned L fun i => own (some i) := by
  refine ⟨fun h => ?_, fun i => hL.nodup (some i), fun i j h hi hj => ?_, hL.below, hL.sound⟩
  · rw [hL.live]
    constructor
    · rintro ⟨_ | i, hi⟩
      · rw [hnone] at hi
        cases hi
      · exact ⟨i, hi⟩
    · exact fun ⟨i, hi⟩ => ⟨some i, hi⟩
  · exact Option.some.inj (hL.single (some i) (some j) h hi hj)

/-- What is out when only one owner has anything. -/
theorem Owned.live_eq_toFinset [DecidableEq κ] (hL : Owned L own)
    (hothers : ∀ j ≠ i, own j = []) : L.live = (own i).toFinset := by
  ext h
  rw [hL.live, List.mem_toFinset]
  refine ⟨fun ⟨j, hj⟩ => ?_, fun hi => ⟨i, hi⟩⟩
  -- whoever has it is the only one with anything
  rcases eq_or_ne j i with rfl | hne
  · exact hj
  · rw [hothers j hne] at hj
    cases hj

theorem Owned.card [DecidableEq κ] (hL : Owned L own) (hothers : ∀ j ≠ i, own j = []) :
    L.live.card = (own i).length := by
  rw [hL.live_eq_toFinset hothers, List.toFinset_card_of_nodup (hL.nodup i)]

/-- Of one kind. -/
theorem Owned.card_filter [DecidableEq κ] (hL : Owned L own) (hothers : ∀ j ≠ i, own j = [])
    (k : κ) : (L.live.filter fun h => h.1 = k).card = (own i).countP fun h => decide (h.1 = k) := by
  rw [hL.live_eq_toFinset hothers, List.countP_eq_length_filter,
    ← List.toFinset_card_of_nodup ((hL.nodup i).filter _), List.toFinset_filter]
  simp

end Owned

/-! ## Pieces of code -/

/-- A piece of code that leads from ledger `L` to `L'` turns what its owner has from `xs` into
    `ys`, and touches nothing else. -/
def Turns (L : Ledger κ) (xs : List (κ × ℕ)) (L' : Ledger κ) (ys : List (κ × ℕ)) : Prop :=
  ∀ ⦃ι : Type⦄ [DecidableEq ι] (own : ι → List (κ × ℕ)) (i : ι),
    Owned L own → own i = xs → Owned L' (Function.update own i ys)

section Turns

variable {L L' L'' : Ledger κ} {xs ys zs : List (κ × ℕ)} {h : κ × ℕ}

theorem Turns.refl (L : Ledger κ) (xs : List (κ × ℕ)) : Turns L xs L xs := by
  intro ι _ own i hL hi
  rwa [← hi, Function.update_eq_self]

theorem Turns.trans (h₁ : Turns L xs L' ys) (h₂ : Turns L' ys L'' zs) : Turns L xs L'' zs := by
  intro ι _ own i hL hi
  -- the second piece of code begins where the first one has ended
  have hmid := h₁ own i hL hi
  have hend := h₂ _ i hmid (Function.update_self _ _ _)
  rwa [Function.update_idem] at hend

theorem Turns.perm (h₁ : Turns L xs L' ys) (hperm : ys.Perm zs) : Turns L xs L' zs := by
  intro ι _ own i hL hi
  have hys : (Function.update own i ys i).Perm zs := by rwa [Function.update_self]
  have hmid := (h₁ own i hL hi).perm hys
  rwa [Function.update_idem] at hmid

theorem Turns.perm_left (h₁ : Turns L ys L' zs) (hperm : xs.Perm ys) : Turns L xs L' zs := by
  intro ι _ own i hL hi
  have hown := hL.perm (hi ▸ hperm)
  have hend := h₁ _ i hown (Function.update_self _ _ _)
  rwa [Function.update_idem] at hend

/-- **Frame rule**: a piece of code leaves alone what it does not know of. -/
theorem Turns.frame (h₁ : Turns L xs L' ys) (rest : List (κ × ℕ)) :
    Turns L (xs ++ rest) L' (ys ++ rest) := by
  intro ι _ own i hL hi
  -- someone else takes care of the rest
  have hsplit := hL.elim.transfer (i := some i) (j := none) (by simp) hi
  have hcode := h₁ _ (some i) hsplit
    (by rw [Function.update_of_ne (by simp), Function.update_self])
  have hrest : Function.update (Function.update (Function.update (fun o : Option ι => o.elim [] own)
      (some i) xs) none (rest ++ [])) (some i) ys none = [] ++ rest := by simp
  have hjoin := hcode.transfer (j := some i) (by simp) hrest
  have hback := hjoin.of_option (by simp)
  have hperm : (rest ++ ys).Perm (ys ++ rest) := List.perm_append_comm
  have hend := hback.perm (i := i) (by simpa using hperm)
  -- putting the two parts together again is taking back what was handed over
  convert hend using 1
  funext j
  rcases eq_or_ne j i with rfl | hne
  · simp
  · simp [hne]

theorem turns_acquire [DecidableEq κ] (L : Ledger κ) (k : κ) (xs : List (κ × ℕ)) :
    Turns L xs (L.acquire k) ((k, L.next) :: xs) := by
  intro ι _ own i hL hi
  have hmid := hL.acquire i k
  rwa [hi] at hmid

theorem turns_release [DecidableEq κ] (L : Ledger κ) (h : κ × ℕ) (xs : List (κ × ℕ)) :
    Turns L (h :: xs) (L.release h) xs :=
  fun _ _ _ _ hL hi => hL.release hi

theorem turns_releasePtr [DecidableEq κ] (L : Ledger κ) (k : κ) (p : Option ℕ) (xs : List (κ × ℕ)) :
    Turns L (ptr k p ++ xs) (L.releasePtr k p) xs := by
  cases p with
  | none => exact Turns.refl L xs
  | some n => exact turns_release L (k, n) xs

/-- A pointer anywhere among the handles. -/
theorem turns_releasePtr_of_perm [DecidableEq κ] {k : κ} {p : Option ℕ}
    (hperm : xs.Perm (ptr k p ++ ys)) (L : Ledger κ) : Turns L xs (L.releasePtr k p) ys :=
  (turns_releasePtr L k p ys).perm_left hperm

theorem turns_use [DecidableEq κ] (hin : h ∈ xs) (L : Ledger κ) : Turns L xs (L.use h) xs := by
  intro ι _ own i hL hi
  rw [hL.use (hi ▸ hin), ← hi, Function.update_eq_self]
  exact hL

end Turns

/-! ## Stores of objects -/

/-- Objects that hold handles, in places where they are made, moved and destroyed. A handle is
    lost when the last pointer to it is gone. -/
structure Store (ω κ : Type) where
  object : ℕ → Option ω := fun _ => none
  ledger : Ledger κ := {}
  lost : List (κ × ℕ) := []

section Store

variable {ω : Type} {handles : ω → List (κ × ℕ)}

/-- What is held in a place. -/
def held (handles : ω → List (κ × ℕ)) : Option ω → List (κ × ℕ)
  | none => []
  | some o => handles o

def Store.owners (handles : ω → List (κ × ℕ)) (s : Store ω κ) : Option ℕ → List (κ × ℕ)
  | none => s.lost
  | some i => held handles (s.object i)

/-- Every handle that is out is held in one place, or is lost. -/
def Store.Owns (handles : ω → List (κ × ℕ)) (s : Store ω κ) : Prop :=
  Owned s.ledger (s.owners handles)

variable {s : Store ω κ} {L' : Ledger κ} {i j : ℕ} {o left : ω} {zs : List (κ × ℕ)}

theorem Store.owns_empty : ({} : Store ω κ).Owns handles := by
  have hnone : ({} : Store ω κ).owners handles = fun _ => [] := by
    funext i
    cases i <;> rfl
  unfold Store.Owns
  rw [hnone]
  exact owned_empty

/-- A piece of code that works on one place, and loses what `zs` names. -/
theorem Store.Owns.turn (hs : s.Owns handles) (i : ℕ) (y : Option ω)
    (h : Turns s.ledger (held handles (s.object i)) L' (held handles y ++ zs)) :
    Store.Owns handles
      { object := Function.update s.object i y, ledger := L', lost := zs ++ s.lost } := by
  -- what the code loses is handed over to nobody in particular
  have hmid := h _ (some i) hs rfl
  have hend := hmid.transfer (i := some i) (j := none) (by simp) (Function.update_self _ _ _)
  unfold Store.Owns
  convert hend using 1
  funext k
  cases k with
  | none =>
    rw [Function.update_self, Function.update_of_ne (by simp)]
    rfl
  | some k =>
    rw [Function.update_of_ne (by simp), Function.update_idem]
    rcases eq_or_ne k i with rfl | hne
    · simp [Store.owners]
    · simp [Store.owners, hne]

/-- The same for a piece of code that loses nothing. -/
theorem Store.Owns.turn_nil (hs : s.Owns handles) (i : ℕ) (y : Option ω)
    (h : Turns s.ledger (held handles (s.object i)) L' (held handles y)) :
    Store.Owns handles
      { object := Function.update s.object i y, ledger := L', lost := s.lost } := by
  rw [← List.append_nil (held handles y)] at h
  exact hs.turn i y h

/-- An object is moved to a place where nothing is held. -/
theorem Store.Owns.move (hs : s.Owns handles) (hne : i ≠ j) (hi : s.object i = some o)
    (hj : held handles (s.object j) = []) (hleft : handles left = []) :
    Store.Owns handles
      { s with object := Function.update (Function.update s.object i (some left)) j (some o) } := by
  have hplace : s.owners handles (some i) = [] ++ handles o := by
    simp only [Store.owners, hi, held, List.nil_append]
  have hmoved := hs.transfer (j := some j) (by simpa using hne) hplace
  unfold Store.Owns
  convert hmoved using 1
  funext k
  cases k with
  | none => simp [Store.owners]
  | some k =>
    -- the new place, the old one, and those that are not concerned
    rcases eq_or_ne k j with rfl | hkj
    · have hempty : s.owners handles (some k) = [] := hj
      rw [Function.update_self, hempty, List.append_nil]
      simp [Store.owners, held]
    · rcases eq_or_ne k i with rfl | hki
      · simp [Store.owners, held, hleft, hkj]
      · simp [Store.owners, hkj, hki]

/-- An object has left place `i`, where `left` remains, for place `j`. -/
def Store.moved (s : Store ω κ) (i j : ℕ) (target left : ω) (L : Ledger κ) : Store ω κ where
  object := Function.update (Function.update s.object i (some left)) j (some target)
  ledger := L
  lost := s.lost

/-- What was held in the place is given back, before the object moves there. -/
theorem Store.Owns.moved (hs : s.Owns handles) (hne : i ≠ j) (hi : s.object i = some o)
    (hclean : Turns s.ledger (held handles (s.object j)) L' []) (hleft : handles left = []) :
    (s.moved i j o left L').Owns handles := by
  -- the target is emptied first, and the object goes to an empty place
  have hcleaned := hs.turn_nil j none hclean
  have hmove := hcleaned.move (i := i) (o := o) hne
    ((Function.update_of_ne hne _ _).trans hi) (by simp only [Function.update_self]; rfl) hleft
  have hobject : Function.update (Function.update (Function.update s.object j none) i
      (some left)) j (some o) =
        Function.update (Function.update s.object i (some left)) j (some o) := by
    rw [Function.update_comm hne.symm, Function.update_idem]
  simp only [hobject] at hmove
  exact hmove

/-- What holds of every object, and of the one that is put in a place. -/
theorem all_update {object : ℕ → Option ω} {P : ω → Prop} {y : Option ω}
    (h : ∀ k o, object k = some o → P o) (hy : ∀ o, y = some o → P o) (i : ℕ) :
    ∀ k o, Function.update object i y k = some o → P o := by
  intro k o hk
  -- the place that has been changed, or another one
  rcases eq_or_ne k i with rfl | hne
  · exact hy o (by rwa [Function.update_self] at hk)
  · exact h k o (by rwa [Function.update_of_ne hne] at hk)

theorem all_moved {P : ω → Prop} (h : ∀ k o, s.object k = some o → P o) (hi : s.object i = some o)
    (hleft : P left) (j : ℕ) (L' : Ledger κ) :
    ∀ k o', (s.moved i j o left L').object k = some o' → P o' := by
  refine all_update (all_update h (fun o' ho' => ?_) i) (fun o' ho' => ?_) j
  · exact Option.some.inj ho' ▸ hleft
  · exact h i o' (hi.trans ho')

/-- **Where a handle is** that is out. -/
theorem Store.Owns.mem_live_iff (hs : s.Owns handles) (x : κ × ℕ) :
    x ∈ s.ledger.live ↔ x ∈ s.lost ∨ ∃! i, ∃ o, s.object i = some o ∧ x ∈ handles o := by
  have hheld (i : ℕ) :
      x ∈ s.owners handles (some i) ↔ ∃ o, s.object i = some o ∧ x ∈ handles o := by
    simp only [Store.owners]
    cases s.object i with
    | none => simp [held]
    | some o => simp [held]
  rw [Owned.live hs]
  -- a handle that is not lost is in one place only, since it has one owner
  constructor
  · rintro ⟨_ | i, hi⟩
    · exact Or.inl hi
    · refine Or.inr ⟨i, (hheld i).mp hi, fun j hj => ?_⟩
      simpa using Owned.single hs (some j) (some i) x ((hheld j).mpr hj) hi
  · rintro (hlost | ⟨i, hi, -⟩)
    · exact ⟨none, hlost⟩
    · exact ⟨some i, (hheld i).mpr hi⟩

/-- With no object left, what is out is what was lost. -/
theorem Store.Owns.card_lost [DecidableEq κ] (hs : s.Owns handles)
    (hnone : ∀ i, s.object i = none) : s.ledger.live.card = s.lost.length := by
  -- whoever is left as an owner is none of the places
  refine Owned.card (i := none) hs fun i hi => ?_
  cases i with
  | none => exact absurd rfl hi
  | some i => simp only [Store.owners, hnone i, held]

end Store

end Ownership
