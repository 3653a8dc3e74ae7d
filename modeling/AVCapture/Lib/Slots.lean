import Mathlib.Data.List.Nodup
import Mathlib.Data.Nat.ModEq
import Mathlib.Logic.Function.Basic
import Mathlib.Data.Nat.Notation

/-!
# Slots in a Circle

A circle of `n` slots, each of them with an object in it or free. The objects are next to
each other, from some slot on, and are counted on in numbers that never wrap: number `p` has
its place in slot `p % n`.

## Contents

- `Shows`: the objects in the slots from a number on
- `Shows.append`, `Shows.tail`: an object more behind, one less in front
- `mod_eq_iff_of_lt`: numbers that are less than a circle apart
- `entries`, `Shows.mem_entries`: the objects with their slots
-/

namespace Slots

variable {α : Type*} {n p : ℕ} {data : ℕ → Option α} {v : α} {xs : List α}

/-- Two numbers less than a circle apart have different slots. -/
theorem mod_eq_iff_of_lt {i j : ℕ} (hle : i ≤ j) (hlt : j < i + n) : i % n = j % n ↔ i = j := by
  refine ⟨fun h => ?_, fun h => by rw [h]⟩
  have hdvd : n ∣ j - i := (Nat.modEq_iff_dvd' hle).mp h
  have hzero : j - i = 0 := Nat.eq_zero_of_dvd_of_lt hdvd (by omega)
  omega

/-- The objects `xs` are in the slots from number `p` on, and the other slots are free. -/
def Shows (n : ℕ) (data : ℕ → Option α) (p : ℕ) (xs : List α) : Prop :=
  ∀ j < n, data ((p + j) % n) = xs[j]?

theorem shows_nil (n p : ℕ) : Shows n (fun _ => (none : Option α)) p [] :=
  fun _ _ => rfl

theorem Shows.head (h : Shows n data p (v :: xs)) (hn : 0 < n) : data (p % n) = some v := by
  have hzero := h 0 hn
  simpa using hzero

theorem Shows.free (h : Shows n data p xs) (hlen : xs.length < n) :
    data ((p + xs.length) % n) = none := by
  rw [h xs.length hlen, List.getElem?_eq_none (Nat.le_refl _)]

/-- **A new object** behind the others. -/
theorem Shows.append (h : Shows n data p xs) (hlen : xs.length < n) (v : α) :
    Shows n (Function.update data ((p + xs.length) % n) (some v)) p (xs ++ [v]) := by
  intro j hj
  rcases eq_or_ne j xs.length with rfl | hne
  · rw [Function.update_self, List.getElem?_concat_length]
  · have hapart : (p + j) % n ≠ (p + xs.length) % n := by
      rcases Nat.lt_or_gt_of_ne hne with hlt | hgt
      · rw [Ne, mod_eq_iff_of_lt (by omega) (by omega)]
        omega
      · intro heq
        rw [eq_comm, mod_eq_iff_of_lt (by omega) (by omega)] at heq
        omega
    rw [Function.update_of_ne hapart, h j hj]
    rcases Nat.lt_or_gt_of_ne hne with hlt | hgt
    · rw [List.getElem?_append_left hlt]
    · have hlong : (xs ++ [v]).length ≤ j := by
        rw [List.length_append, List.length_singleton]
        omega
      rw [List.getElem?_eq_none hlong, List.getElem?_eq_none (by omega)]

/-- **The object in front** is gone. -/
theorem Shows.tail (h : Shows n data p (v :: xs)) (hlen : xs.length < n) :
    Shows n (Function.update data (p % n) none) (p + 1) xs := by
  intro j hj
  rcases Nat.lt_or_ge (j + 1) n with hlt | hge
  · have hapart : (p + 1 + j) % n ≠ p % n := by
      intro heq
      rw [eq_comm, mod_eq_iff_of_lt (by omega) (by omega)] at heq
      omega
    rw [Function.update_of_ne hapart, Nat.add_right_comm, Nat.add_assoc, h (j + 1) hlt]
    rfl
  · -- once around, back at the slot that has just become free
    have hround : p + 1 + j = p + n := by omega
    rw [hround, Nat.add_mod_right, Function.update_self, List.getElem?_eq_none (by omega)]

/-! ## The objects with their slots -/

def entries (n p : ℕ) (xs : List α) : List (ℕ × α) :=
  (xs.zipIdx p).map fun x => (x.2 % n, x.1)

theorem entries_cons (n p : ℕ) (v : α) (xs : List α) :
    entries n p (v :: xs) = (p % n, v) :: entries n (p + 1) xs := rfl

theorem map_snd_entries (n p : ℕ) (xs : List α) : (entries n p xs).map Prod.snd = xs := by
  rw [entries, List.map_map]
  exact List.zipIdx_map_fst p xs

/-- Every slot is among the next `n`. -/
theorem exists_number {i : ℕ} (hi : i < n) (p : ℕ) : ∃ j < n, (p + j) % n = i := by
  have hp : p % n < n := Nat.mod_lt p (Nat.zero_lt_of_lt hi)
  refine ⟨(i + (n - p % n)) % n, Nat.mod_lt _ (Nat.zero_lt_of_lt hi), ?_⟩
  have hsum : p % n + (i + (n - p % n)) = i + n := by omega
  rw [Nat.add_mod_mod, ← Nat.mod_add_mod, hsum, Nat.add_mod_right, Nat.mod_eq_of_lt hi]

/-- **The slots that are not free** are those of the objects. -/
theorem Shows.mem_entries (h : Shows n data p xs) (hlen : xs.length ≤ n) {i : ℕ} (hi : i < n) :
    (i, v) ∈ entries n p xs ↔ data i = some v := by
  simp only [entries, List.mem_map, Prod.exists, List.mk_mem_zipIdx_iff_le_and_getElem?_sub,
    Prod.mk.injEq]
  constructor
  · rintro ⟨x, k, ⟨hle, hx⟩, rfl, rfl⟩
    have hlt : k - p < n := by
      obtain ⟨hlt, -⟩ := List.getElem?_eq_some_iff.mp hx
      omega
    have hk := h (k - p) hlt
    rwa [Nat.add_sub_cancel' hle, hx] at hk
  · intro hdata
    obtain ⟨j, hj, rfl⟩ := exists_number hi p
    rw [h j hj] at hdata
    exact ⟨v, p + j, ⟨Nat.le_add_right p j, by rwa [Nat.add_sub_cancel_left]⟩, rfl, rfl⟩

/-- Each of them once. -/
theorem nodup_entries (p : ℕ) (hlen : xs.length ≤ n) : ((entries n p xs).map Prod.fst).Nodup := by
  rw [entries, List.map_map]
  have hnumbers : (xs.zipIdx p).map (Prod.fst ∘ fun x => (x.2 % n, x.1)) =
      (List.range' p xs.length).map (· % n) := by
    rw [← List.zipIdx_map_snd p xs, List.map_map]
    rfl
  rw [hnumbers]
  refine List.Nodup.map_on (fun i hi j hj heq => ?_) List.nodup_range'
  rw [List.mem_range'_1] at hi hj
  rcases Nat.le_total i j with hle | hle
  · exact (mod_eq_iff_of_lt hle (by omega)).mp heq
  · exact ((mod_eq_iff_of_lt hle (by omega)).mp heq.symm).symm

end Slots
