import Mathlib.Data.List.Flatten
import Mathlib.Data.List.Range
import Mathlib.Data.Int.ModEq
import Mathlib.Logic.Function.Basic

/-!
# Positions of a Ring

A writer stores entry `0, 1, 2, …` into the slots of a ring of size `R`, entry `t` into
slot `t % R`, so that each entry overwrites the one a lap before it. What a slot holds is
given by the function `content`, from slots to entries.

## Contents

- `add_le_of_mod_eq`: two entries of one slot are a lap apart
- `window`: the entries that a reader of the last `k` asks for
- `Holds`: the ring holds the last `R` of the first `n` entries
- `Holds.read_window`, `Holds.read_window_behind_iff`: what a reader finds whose count is
  right, and what it finds while its count is one behind
- `NewestFirst`, `newestFirst_window`: what is read of entries that are lists of numbers
-/

namespace Ring

/-- Two different entries that share a slot are at least one lap of the ring apart. -/
theorem add_le_of_mod_eq {R t u : Nat} (hlt : t < u) (h : t % R = u % R) : t + R ≤ u := by
  have hdvd : R ∣ u - t := (Nat.modEq_iff_dvd' hlt.le).mp h
  have hle : R ≤ u - t := Nat.le_of_dvd (Nat.sub_pos_of_lt hlt) hdvd
  calc t + R ≤ t + (u - t) := Nat.add_le_add_left hle t
    _ = u := Nat.add_sub_cancel' hlt.le

/-! ## Windows -/

/-- The last `k` of the first `n` entries, or as many of them as the ring can hold. -/
def window (R n k : Nat) : List Nat := List.range' (n - min k R) (min (min k R) n)

theorem mem_window {R n k t : Nat} : t ∈ window R n k ↔ t < n ∧ n ≤ t + min k R := by
  unfold window
  rw [List.mem_range'_1]
  omega

theorem window_zero (R k : Nat) : window R 0 k = [] := by
  simp [window]

/-- The slot of the entry to be written next is read exactly when the ring has gone round
    once and all of it is asked for. -/
theorem next_mem_window_slots {R n k : Nat} (hR : 0 < R) :
    n % R ∈ (window R n k).map (· % R) ↔ R ≤ k ∧ R ≤ n := by
  rw [List.mem_map]
  refine ⟨?_, ?_⟩
  · intro h
    obtain ⟨t, ht, hmod⟩ := h
    obtain ⟨hlt, hle⟩ := mem_window.mp ht
    have hlap : t + R ≤ n := add_le_of_mod_eq hlt hmod
    omega
  · intro h
    refine ⟨n - R, mem_window.mpr ⟨by omega, by omega⟩, ?_⟩
    exact (Nat.mod_eq_sub_mod h.2).symm

/-! ## What the ring holds -/

/-- The last `R` of the first `n` entries are in their slots. -/
def Holds (R n : Nat) (content : Nat → Option Nat) : Prop :=
  ∀ t, t < n → n ≤ t + R → content (t % R) = some t

theorem Holds.zero (R : Nat) (content : Nat → Option Nat) : Holds R 0 content := by
  intro t ht
  exact absurd ht (Nat.not_lt_zero t)

/-- Writing the next entry into its slot. -/
theorem Holds.write {R n : Nat} {content content' : Nat → Option Nat}
    (h : Holds R n content) (hnext : content' (n % R) = some n)
    (hother : ∀ idx, idx ≠ n % R → content' idx = content idx) : Holds R (n + 1) content' := by
  intro t hlt hle
  rcases Nat.lt_succ_iff_lt_or_eq.mp hlt with ht | ht
  · -- an older entry is in another slot: in the same one it would be a lap behind
    have hne : t % R ≠ n % R := by
      intro hmod
      have hlap : t + R ≤ n := add_le_of_mod_eq ht hmod
      omega
    rw [hother _ hne]
    exact h t ht (by omega)
  · rw [ht]
    exact hnext

/-- A run of consecutive entries, of the given length. -/
def IsRun (len : Nat) (entries : List (Option Nat)) : Prop :=
  ∃ t, entries = (List.range' t len).map some

/-- A reader whose count is right finds the entries it asks for. -/
theorem Holds.read_window {R n : Nat} {content : Nat → Option Nat} (h : Holds R n content)
    (k : Nat) : IsRun (min (min k R) n) ((window R n k).map fun t => content (t % R)) := by
  refine ⟨n - min k R, ?_⟩
  apply List.map_congr_left
  intro t ht
  obtain ⟨hlt, hle⟩ := mem_window.mp ht
  exact h t hlt (by omega)

/-- **A reader whose count is one behind** the ring finds a run of entries exactly if it
    does not read the slot of the newest one, or that is the only slot. -/
theorem Holds.read_window_behind_iff {R n : Nat} (hR : 0 < R) {content : Nat → Option Nat}
    (h : Holds R (n + 1) content) (k : Nat) :
    IsRun (min (min k R) n) ((window R n k).map fun t => content (t % R)) ↔
      ¬ (2 ≤ R ∧ R ≤ k ∧ R ≤ n) := by
  by_cases hnext : R ≤ k ∧ R ≤ n
  · obtain ⟨hk, hn⟩ := hnext
    have hmin : min k R = R := Nat.min_eq_right hk
    have hlen : min R n = R := Nat.min_eq_left hn
    -- the oldest entry of the window has been overwritten by the newest of the ring
    have holdest : content ((n - R) % R) = some n := by
      rw [← Nat.mod_eq_sub_mod hn]
      exact h n (Nat.lt_succ_self n) (by omega)
    simp only [window, hmin, hlen, hk, hn, and_true]
    match R, hR with
    | 1, _ =>
      refine ⟨fun _ => by omega, fun _ => ⟨n, ?_⟩⟩
      simp only [List.range'_one, List.map_cons, List.map_nil, holdest]
    | R + 2, _ =>
      refine ⟨?_, fun hR => absurd (Nat.le_add_left 2 R) hR⟩
      intro hrun
      obtain ⟨t, ht⟩ := hrun
      -- the second entry is the one that the reader asked for, and `n` is not before it
      have hsecond : content ((n - (R + 2) + 1) % (R + 2)) = some (n - (R + 2) + 1) :=
        h _ (by omega) (by omega)
      rw [List.range'_succ, List.range'_succ, List.range'_succ, List.range'_succ] at ht
      simp only [List.map_cons, List.cons.injEq, holdest, hsecond, Option.some.injEq] at ht
      omega
  · refine ⟨fun _ hcond => hnext hcond.2, fun _ => ⟨n - min k R, ?_⟩⟩
    apply List.map_congr_left
    intro t ht
    obtain ⟨hlt, hle⟩ := mem_window.mp ht
    exact h t (by omega) (by omega)

/-! ## Entries that are lists of numbers

The entries are blocks of numbers that ascend from block to block, and a slot may have lost some
of its block. -/

/-- Numbers of the blocks before block `n`, in their order, but that some of block `n` itself, which
    is newer, come first. -/
def NewestFirst (blocks : List (List ℕ)) (n : ℕ) (l : List ℕ) : Prop :=
  ∃ newest older, l = newest ++ older ∧ newest.Sublist (blocks[n]?.getD []) ∧
    older.Sublist (blocks.take n).flatten

section Blocks

variable {blocks : List (List ℕ)} {g : ℕ → List ℕ}

/-- Parts of consecutive blocks are a part of all that comes from the first of them on. -/
theorem flatMap_sublist_flatten {first len : ℕ}
    (h : ∀ t, first ≤ t → t < first + len → (g t).Sublist (blocks[t]?.getD [])) :
    ((List.range' first len).flatMap g).Sublist (blocks.drop first).flatten := by
  induction len generalizing first with
  | zero => exact List.nil_sublist _
  | succ len ih =>
    have hhead := h first (by omega) (by omega)
    have hrest : ((List.range' (first + 1) len).flatMap g).Sublist
        (blocks.drop (first + 1)).flatten :=
      ih fun t hle hlt => h t (by omega) (by omega)
    rw [List.range'_succ, List.flatMap_cons]
    cases hblock : blocks[first]? with
    | none =>
      rw [hblock] at hhead
      have hlen : blocks.length ≤ first := List.getElem?_eq_none_iff.mp hblock
      rw [List.drop_of_length_le (by omega)] at hrest
      rw [List.drop_of_length_le hlen]
      exact hhead.append hrest
    | some block =>
      rw [hblock] at hhead
      obtain ⟨hlt, rfl⟩ := List.getElem?_eq_some_iff.mp hblock
      rw [List.drop_eq_getElem_cons hlt, List.flatten_cons]
      exact hhead.append hrest

theorem NewestFirst.nil (blocks : List (List ℕ)) (n : ℕ) : NewestFirst blocks n [] :=
  ⟨[], [], rfl, List.nil_sublist _, List.nil_sublist _⟩

theorem NewestFirst.sublist {n : ℕ} {l l' : List ℕ} (h : NewestFirst blocks n l)
    (hsub : l'.Sublist l) : NewestFirst blocks n l' := by
  obtain ⟨newest, older, rfl, hnewest, holder⟩ := h
  obtain ⟨newest', older', rfl, hnewest', holder'⟩ := List.sublist_append_iff.mp hsub
  exact ⟨newest', older', rfl, hnewest'.trans hnewest, holder'.trans holder⟩

/-- More blocks behind the others. -/
theorem NewestFirst.append {n : ℕ} {l : List ℕ} (h : NewestFirst blocks n l)
    (more : List (List ℕ)) : NewestFirst (blocks ++ more) n l := by
  obtain ⟨newest, older, rfl, hnewest, holder⟩ := h
  refine ⟨newest, older, rfl, ?_, ?_⟩
  · cases hblock : blocks[n]? with
    | none =>
      rw [hblock] at hnewest
      rw [List.sublist_nil.mp hnewest]
      exact List.nil_sublist _
    | some block =>
      rw [hblock] at hnewest
      rwa [List.getElem?_append_left (List.getElem?_eq_some_iff.mp hblock).1, hblock]
  · rw [List.take_append, List.flatten_append]
    exact holder.trans (List.sublist_append_left _ _)

/-- Put behind the others, the newest are in their place. -/
theorem NewestFirst.behind {n : ℕ} {newest older : List ℕ}
    (hnewest : newest.Sublist (blocks[n]?.getD []))
    (holder : older.Sublist (blocks.take n).flatten) :
    (older ++ newest).Sublist blocks.flatten := by
  have hsplit : blocks.flatten = (blocks.take n).flatten ++ (blocks.drop n).flatten := by
    rw [← List.flatten_append, List.take_append_drop]
  rw [hsplit]
  refine holder.append (hnewest.trans ?_)
  cases hblock : blocks[n]? with
  | none => exact List.nil_sublist _
  | some block =>
    obtain ⟨hlt, rfl⟩ := List.getElem?_eq_some_iff.mp hblock
    rw [List.drop_eq_getElem_cons hlt, List.flatten_cons]
    exact List.sublist_append_left _ _

/-- If the blocks ascend, no number is found twice. -/
theorem NewestFirst.nodup {n : ℕ} {l : List ℕ} (h : NewestFirst blocks n l)
    (hblocks : blocks.flatten.Pairwise (· < ·)) : l.Nodup := by
  obtain ⟨newest, older, rfl, hnewest, holder⟩ := h
  have hbehind := hblocks.sublist (behind hnewest holder)
  exact List.perm_append_comm.nodup_iff.mpr (hbehind.imp Nat.ne_of_lt)

theorem NewestFirst.subset {n : ℕ} {l : List ℕ} (h : NewestFirst blocks n l) :
    l ⊆ blocks.flatten := by
  obtain ⟨newest, older, rfl, hnewest, holder⟩ := h
  intro m hm
  apply (behind hnewest holder).subset
  rcases List.mem_append.mp hm with hnew | hold
  · exact List.mem_append_right _ hnew
  · exact List.mem_append_left _ hold

/-- The slot of an entry of the window has it, or the newest entry instead. -/
theorem entry_of_mem_window {R n k t u : ℕ} (ht : t ∈ window R n k) (hmod : u % R = t % R)
    {N : ℕ} (hlt : u < N) (hlap : N ≤ u + R) (hn : n ≤ N) (hN : N ≤ n + 1) :
    u = t ∨ (u = n ∧ t + R = n) := by
  obtain ⟨htn, hnt⟩ := mem_window.mp ht
  rcases Nat.lt_trichotomy u t with h | h | h
  · have := add_le_of_mod_eq h hmod
    omega
  · exact .inl h
  · have := add_le_of_mod_eq h hmod.symm
    omega

/-- **What is read of a window** of blocks, some of which may be lost, by a reader whose count
    is right or one behind. -/
theorem newestFirst_window {R n k : ℕ} (hn : n ≤ blocks.length) (hN : blocks.length ≤ n + 1)
    (h : ∀ t ∈ window R n k, g t = [] ∨ ∃ u, u % R = t % R ∧ u < blocks.length ∧
      blocks.length ≤ u + R ∧ (g t).Sublist (blocks[u]?.getD [])) :
    NewestFirst blocks n ((window R n k).flatMap g) := by
  have hslot : ∀ t ∈ window R n k, (g t).Sublist ((blocks.take n)[t]?.getD []) ∨
      (t + R = n ∧ (g t).Sublist (blocks[n]?.getD [])) := by
    intro t ht
    have hbefore : (blocks.take n)[t]? = blocks[t]? :=
      List.getElem?_take_of_lt (mem_window.mp ht).1
    rcases h t ht with hlost | ⟨u, hmod, hlt, hlap, hsub⟩
    · rw [hlost]
      exact .inl (List.nil_sublist _)
    · rcases entry_of_mem_window ht hmod hlt hlap hn hN with rfl | ⟨rfl, hback⟩
      · exact .inl (hbefore ▸ hsub)
      · exact .inr ⟨hback, hsub⟩
  by_cases hall : ∀ t ∈ window R n k, (g t).Sublist ((blocks.take n)[t]?.getD [])
  · refine ⟨[], _, rfl, List.nil_sublist _, ?_⟩
    refine (flatMap_sublist_flatten fun t hle hlt => hall t ?_).trans
      (List.drop_sublist _ _).flatten
    exact List.mem_range'_1.mpr ⟨hle, hlt⟩
  · -- the first slot of the window has been overwritten
    push Not at hall
    obtain ⟨t, ht, hnot⟩ := hall
    obtain ⟨rfl, hnewest⟩ := (hslot t ht).resolve_left hnot
    obtain ⟨htn, hnt⟩ := mem_window.mp ht
    obtain ⟨r, rfl⟩ : ∃ r, R = r + 1 := ⟨R - 1, by omega⟩
    have hwindow : window (r + 1) (t + (r + 1)) k = List.range' t (r + 1) := by
      have hmin : min k (r + 1) = r + 1 := by omega
      have hlen : min (r + 1) (t + (r + 1)) = r + 1 := by omega
      rw [window, hmin, hlen, Nat.add_sub_cancel]
    rw [hwindow] at hslot ⊢
    refine ⟨g t, (List.range' (t + 1) r).flatMap g, by rw [List.range'_succ, List.flatMap_cons],
      hnewest, ?_⟩
    refine (flatMap_sublist_flatten fun u hle hlt => ?_).trans (List.drop_sublist _ _).flatten
    refine (hslot u (List.mem_range'_1.mpr (by omega))).resolve_right ?_
    rintro ⟨hback, -⟩
    omega

end Blocks

end Ring
