import AVCapture.Utils.QueueShape
import Mathlib.Data.List.Range
import Mathlib.Data.Nat.Log
import Mathlib.Data.Nat.Size

/-!
# A New Queue

The constructor of the lock-free queue: it rounds the size up to a power of two, and takes
several blocks if that is too much for one. There is room for the size that was asked for,
wherever the front of the queue is.

## Main results

- `ceilToPow2_toNat`: the power of two that is rounded up to
- `shape_make`: a new queue has its shape, with room for `size` values
-/

namespace AVCapture.Utils

/-! ## Rounding up -/

section Smearing

variable {w n : ℕ} {x y : BitVec w}

/-- A bit of `y` is set if one of the `n` bits of `x` from there on is set. -/
def Smeared (n : ℕ) (x y : BitVec w) : Prop :=
  ∀ i, y.getLsbD i = true ↔ ∃ j < n, x.getLsbD (i + j) = true

theorem smeared_self (x : BitVec w) : Smeared 1 x x := by
  intro i
  constructor
  · exact fun hbit => ⟨0, Nat.one_pos, hbit⟩
  · rintro ⟨j, hj, hbit⟩
    obtain rfl : j = 0 := by omega
    exact hbit

/-- A shift by as much as has been smeared doubles it. -/
theorem Smeared.double (h : Smeared n x y) : Smeared (n + n) x (y ||| (y >>> n)) := by
  intro i
  -- a set bit comes from one of the first `n` bits or from one of the next `n`
  rw [BitVec.getLsbD_or, BitVec.getLsbD_ushiftRight, Bool.or_eq_true, h i, h (n + i)]
  constructor
  · rintro (⟨j, hj, hbit⟩ | ⟨j, hj, hbit⟩)
    · exact ⟨j, by omega, hbit⟩
    · refine ⟨n + j, by omega, ?_⟩
      rwa [← Nat.add_assoc, Nat.add_comm i n]
  · rintro ⟨j, hj, hbit⟩
    rcases Nat.lt_or_ge j n with hlt | hge
    · exact Or.inl ⟨j, hlt, hbit⟩
    · refine Or.inr ⟨j - n, by omega, ?_⟩
      have hindex : n + i + (j - n) = i + j := by omega
      rwa [hindex]

/-- Smeared all the way down, the bits below the length of the number are set. -/
theorem Smeared.toNat (h : Smeared w x y) : y.toNat = 2 ^ x.toNat.size - 1 := by
  refine Nat.eq_of_testBit_eq fun i => ?_
  rw [Nat.testBit_two_pow_sub_one, BitVec.testBit_toNat, Bool.eq_iff_iff, h i,
    decide_eq_true_iff, Nat.lt_size]
  -- the bits set are those below some bit of the number, hence below its highest one
  constructor
  · rintro ⟨j, _, hbit⟩
    have hle : 2 ^ (i + j) ≤ x.toNat := Nat.ge_two_pow_of_testBit hbit
    exact (Nat.pow_le_pow_right (by omega) (Nat.le_add_right i j)).trans hle
  · intro hle
    obtain ⟨k, hk, hbit⟩ := Nat.exists_ge_and_testBit_of_ge_two_pow hle
    have hlt : k < w := by
      by_contra hge
      have hzero := BitVec.getLsbD_of_ge x k (Nat.le_of_not_lt hge)
      rw [← BitVec.testBit_toNat, hbit] at hzero
      cases hzero
    refine ⟨k - i, by omega, ?_⟩
    rw [Nat.add_sub_cancel' hk]
    exact hbit

end Smearing

namespace ReaderWriterQueue

/-- **Rounding up**: the result is the least power of two that is not below the number. -/
theorem ceilToPow2_toNat (x : BitVec 64) (hpos : 1 ≤ x.toNat) (hle : x.toNat ≤ 2 ^ 63) :
    (ceilToPow2 x).toNat = 2 ^ Nat.clog 2 x.toNat := by
  -- the number is smeared below its predecessor, so that a power of two stays itself
  have hpred : (x - 1).toNat = x.toNat - 1 := by
    have hone : (1 : BitVec 64) ≤ x := hpos
    rw [BitVec.toNat_sub_of_le hone]
    rfl
  have hsmeared := (smeared_self (x - 1)).double.double.double.double.double.double.toNat
  have hsize : (x - 1).toNat.size = Nat.clog 2 x.toNat := by
    refine eq_of_forall_ge_iff fun k => ?_
    rw [Nat.size_le, Nat.clog_le_iff_le_pow (by omega), hpred]
    omega
  have hclog : 2 ^ Nat.clog 2 x.toNat ≤ 2 ^ 63 :=
    Nat.pow_le_pow_right (by omega) (Nat.clog_le_of_le_pow hle)
  have hone : 0 < 2 ^ Nat.clog 2 x.toNat := Nat.two_pow_pos _
  -- the increment carries through all the bits, and does not overflow
  have hceil : (ceilToPow2 x).toNat = (2 ^ (x - 1).toNat.size - 1 + 1) % 2 ^ 64 := by
    rw [← hsmeared]
    exact BitVec.toNat_add _ _
  rw [hceil, hsize, Nat.sub_add_cancel hone, Nat.mod_eq_of_lt (by omega)]

/-! ## The circle -/

variable {α : Type}

theorem makeBlocks_apply (capacity : ℕ) {n id : ℕ} (hid : id < n) :
    (makeBlocks capacity n id : Block α) =
      { (makeBlock capacity : Block α) with next := if id + 1 = n then 0 else id + 1 } := by
  induction n with
  | zero => exact absurd hid (Nat.not_lt_zero id)
  | succ n ih =>
    rw [makeBlocks]
    -- a block of the loop before, whose link may have been changed, or the new one
    rcases Nat.lt_succ_iff_lt_or_eq.mp hid with hlt | rfl
    · have hne : id ≠ n := Nat.ne_of_lt hlt
      rw [Function.update_of_ne hne, if_neg (by omega : ¬ n = 0), if_neg (by omega)]
      rcases eq_or_ne id (n - 1) with rfl | hne'
      · rw [Function.update_self, ih hlt, Nat.sub_add_cancel (by omega)]
      · rw [Function.update_of_ne hne', ih hlt, if_neg (by omega)]
    · rw [Function.update_self, if_pos rfl]

theorem cons_range' {n : ℕ} (hn : 1 ≤ n) : 0 :: List.range' 1 (n - 1) = List.range n := by
  obtain ⟨n, rfl⟩ := Nat.exists_eq_add_of_le' hn
  rw [List.range_eq_range', List.range'_succ, Nat.add_sub_cancel]

/-- The path through the blocks from one of them on. -/
theorem path_range' {next : ℕ → ℕ} {a n : ℕ} (hnext : ∀ id, a ≤ id → id < a + n → next id = id + 1)
    (hlast : next (a + n) = 0) :
    (a :: (List.range' (a + 1) n ++ [0])).IsChain fun a b => next a = b := by
  induction n generalizing a with
  | zero => exact List.isChain_pair.mpr hlast
  -- a block that is not the last links to the one made after it
  | succ n ih =>
    rw [List.range'_succ]
    refine List.isChain_cons_cons.mpr ⟨hnext a (Nat.le_refl a) (by omega), ?_⟩
    refine ih (fun id hid hlt => hnext id (by omega) (by omega)) ?_
    rwa [Nat.add_right_comm]

/-- The first block, and free ones. -/
theorem circle_makeBlocks (capacity : ℕ) {n : ℕ} (hn : 1 ≤ n) :
    -- every block has been made once, and the last one links to the first
    LinkedCircle (fun id => (makeBlocks capacity n id : Block α).next) 0
      (List.range' 1 (n - 1)) := by
  refine ⟨?_, path_range' (fun id _ hid => ?_) ?_⟩
  · rw [cons_range' hn]
    exact List.nodup_range
  · rw [makeBlocks_apply capacity (by omega), if_neg (by omega)]
  · rw [makeBlocks_apply capacity (by omega), if_pos (by omega)]

/-- What a new queue stands for. -/
def newLayout (α : Type) (n : ℕ) : Layout α :=
  { view := fun _ => {}, free := List.range' 1 (n - 1) }

theorem mem_newLayout {n id : ℕ} (hn : 1 ≤ n) (hid : id < n) :
    id ∈ 0 :: (newLayout α n).others := by
  show id ∈ 0 :: List.range' 1 (n - 1)
  rw [cons_range' hn]
  exact List.mem_range.mpr hid

theorem shape_makeBlocks {room k n largest : ℕ} (hk : 1 ≤ k) (hn : 1 ≤ n)
    (hpower : ∃ k, 1 ≤ k ∧ largest = 2 ^ k)
    (hroomy : Roomy room largest (List.replicate n (2 ^ k - 1))) :
    Shape room
      { blocks := makeBlocks (2 ^ k) n, allocated := n, largestBlockSize := largest }
      (newLayout α n) := by
  have hmem {id : ℕ} (hid : id ∈ 0 :: List.range' 1 (n - 1)) : id < n := by
    rw [cons_range' hn] at hid
    exact List.mem_range.mp hid
  -- nothing lives in any block yet, and no thread is at work
  refine ⟨fun id hid => ?_, circle_makeBlocks _ hn, fun id hid => hmem hid, rfl, fun _ _ => rfl,
    nofun, nofun, fun _ _ => rfl, hpower, ?_⟩
  · -- each block is empty
    show (makeBlocks (2 ^ k) n id).Holds _
    rw [makeBlocks_apply _ hid]
    exact Block.Holds.empty hk _
  · -- all the masks are the same
    have hmasks : (0 :: List.range' 1 (n - 1)).map
        (fun id => (makeBlocks (2 ^ k) n id : Block α).sizeMask) =
          List.replicate n (2 ^ k - 1) := by
      refine List.eq_replicate_iff.mpr ⟨?_, fun m hm => ?_⟩
      · rw [List.length_map, List.length_cons, List.length_range', Nat.sub_add_cancel hn]
      · obtain ⟨id, hid, rfl⟩ := List.mem_map.mp hm
        rw [makeBlocks_apply _ (hmem hid)]
        rfl
    show Roomy room largest ((0 :: List.range' 1 (n - 1)).map _)
    rw [hmasks]
    exact hroomy

/-! ## Room for the size -/

/-- One block, rounded up. -/
theorem roomy_single (size : ℕ) :
    Roomy size (2 ^ Nat.clog 2 (size + 1)) (List.replicate 1 (2 ^ Nat.clog 2 (size + 1) - 1)) := by
  have hle : size + 1 ≤ 2 ^ Nat.clog 2 (size + 1) := Nat.le_pow_clog (by omega) _
  refine ⟨fun _ => ⟨?_, hle⟩, fun hmany => absurd hmany (by simp)⟩
  rw [List.sum_replicate_nat]
  omega

/-- Several blocks: the size fits in all of them but one. -/
theorem roomy_several {size maxBlockSize : ℕ} (hmax : 2 ≤ maxBlockSize)
    (hsize : maxBlockSize ≤ size) :
    1 < (size + maxBlockSize * 2 - 3) / (maxBlockSize - 1) ∧
      Roomy size maxBlockSize
        (List.replicate ((size + maxBlockSize * 2 - 3) / (maxBlockSize - 1))
          (maxBlockSize - 1)) := by
  -- how many blocks are made: the quotient, rounded up, and more than one
  have hmod := Nat.mod_lt (size + maxBlockSize * 2 - 3) (by omega : 0 < maxBlockSize - 1)
  have hdiv := Nat.div_add_mod (size + maxBlockSize * 2 - 3) (maxBlockSize - 1)
  generalize (size + maxBlockSize * 2 - 3) / (maxBlockSize - 1) = n at hdiv ⊢
  have hfits : size + (maxBlockSize - 1) ≤ (maxBlockSize - 1) * n := by omega
  have hmany : 1 < n := by
    by_contra hfew
    have hle : (maxBlockSize - 1) * n ≤ (maxBlockSize - 1) * 1 :=
      Nat.mul_le_mul_left _ (Nat.le_of_not_lt hfew)
    omega
  -- with more than one block, all but any one of them hold the size
  refine ⟨hmany, fun hone => ?_, fun _ m hm => ?_⟩
  · rw [List.length_replicate] at hone
    omega
  · rw [(List.mem_replicate.mp hm).2, List.sum_replicate_nat, Nat.mul_comm n]
    exact hfits

/-- **A new queue** has room for its size, and all its blocks are in the circle. -/
theorem shape_make {size m : ℕ} (hm : 1 ≤ m) (hsize : 1 ≤ size)
    (hfits : size + 2 ^ m * 2 ≤ 2 ^ 63) :
    let q : ReaderWriterQueue α := make (2 ^ m) size
    Shape size q (newLayout α q.allocated) ∧
      ∀ id < q.allocated, id ∈ q.frontBlock :: (newLayout α q.allocated).others := by
  have hmax : 2 ^ 1 ≤ 2 ^ m := Nat.pow_le_pow_right (by omega) hm
  have hofNat : (BitVec.ofNat 64 (size + 1)).toNat = size + 1 := Nat.mod_eq_of_lt (by omega)
  have hceil : (ceilToPow2 (BitVec.ofNat 64 (size + 1))).toNat =
      2 ^ Nat.clog 2 (size + 1) := by
    rw [ceilToPow2_toNat _ (by omega) (by omega), hofNat]
  unfold make
  dsimp only
  simp only [hceil]
  -- too much for one block, or not
  split
  case isTrue hlarge =>
    rw [← Nat.pow_succ] at hlarge
    have hclog : m + 1 < Nat.clog 2 (size + 1) := (Nat.pow_lt_pow_iff_right (by omega)).mp hlarge
    have hlt : 2 ^ (m + 1) < size + 1 := Nat.pow_lt_of_lt_clog hclog
    rw [Nat.pow_succ] at hlt
    have hlarge' : 2 ^ m ≤ size := by omega
    obtain ⟨hmany, hroomy⟩ := roomy_several hmax hlarge'
    exact ⟨shape_makeBlocks hm (Nat.le_of_lt hmany) ⟨m, hm, rfl⟩ hroomy,
      fun id => mem_newLayout (Nat.le_of_lt hmany)⟩
  case isFalse =>
    have hclog : 1 ≤ Nat.clog 2 (size + 1) := Nat.clog_pos (by omega) (by omega)
    exact ⟨shape_makeBlocks hclog (Nat.le_refl 1) ⟨_, hclog, rfl⟩ (roomy_single size),
      fun id => mem_newLayout (Nat.le_refl 1)⟩

end ReaderWriterQueue

end AVCapture.Utils
