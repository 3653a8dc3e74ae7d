import AVCapture.Lib.Quantity
import AVCapture.Settings

/-!
# Byte Sizes

Model of `Settings::parse_byte_size`: a decimal number and a binary unit, multiplied in 64
bits.

The number is checked against 64 bits, the product is not: `"17179869184gb"` is accepted as
0 bytes.

## Main results

- `parseByteSize_eq_ok_iff`: what is accepted, and as what
- `parsesExactly_iff`: the texts of which the value is the denoted one
-/

namespace AVCapture

namespace Settings

open Utils Quantity

/-! ## Parsing -/

/-- The first loop: how many digits the text begins with. -/
def countDigits : List Char → Nat
  | [] => 0
  | c :: rest => if c.isDigit then countDigits rest + 1 else 0

/-- `std::from_chars` on a sequence of digits; `none` is `result_out_of_range`. -/
def fromChars (digits : List Char) : Option UInt64 :=
  if decimal digits < 2 ^ 64 then some (.ofNat (decimal digits)) else none

/-- The chain of units; `none` is its last branch. -/
def multiplier (unit : List Char) : Option UInt64 :=
  if unit = [] ∨ unit = "b".toList then some 1
  else if unit = "kb".toList then some 1024
  else if unit = "mb".toList then some (1024 * 1024)
  else if unit = "gb".toList then some (1024 * 1024 * 1024)
  else none

def parseByteSize (sizeStr : String) : Result UInt64 :=
  let fail (why : String) : Result UInt64 :=
    .error (makeError.withContext ("Invalid byte size '" ++ sizeStr ++ "': " ++ why))
  let digits := countDigits sizeStr.toList
  if digits = 0 then fail "missing numeric value"
  else
    match fromChars (sizeStr.toList.take digits) with
    | none => fail "bad numeric value"
    | some value =>
      let unit := (sizeStr.toList.drop digits).map Char.toLower
      match multiplier unit with
      | none => fail ("unknown unit '" ++ String.ofList unit ++ "'")
      | some factor => .ok (value * factor)

/-! ## The grammar -/

/-- The units, as powers of 1024. -/
def byteUnits : UnitNames ℕ where
  names := [([], 0), ("b".toList, 0), ("kb".toList, 1), ("mb".toList, 2), ("gb".toList, 3)]
  noDigit := by decide
  unique := by decide

/-- The text is a number of bytes, kilobytes, megabytes or gigabytes: `n * 1024 ^ u`. -/
def DenotesBytes (sizeStr : String) (n u : ℕ) : Prop :=
  byteUnits.Denotes sizeStr.toList n u

theorem countDigits_eq (text : List Char) : countDigits text = (leadingDigits text).length := by
  induction text with
  | nil => rfl
  | cons c rest ih =>
    unfold countDigits
    -- a digit counts, and anything else ends the count
    cases hc : c.isDigit with
    | true =>
      have hleading : leadingDigits (c :: rest) = c :: leadingDigits rest :=
        List.takeWhile_cons_of_pos hc
      rw [hleading, List.length_cons, if_pos rfl, ih]
    | false =>
      have hleading : leadingDigits (c :: rest) = [] :=
        List.takeWhile_cons_of_neg (by rw [hc]; exact Bool.false_ne_true)
      rw [hleading, if_neg Bool.false_ne_true, List.length_nil]

theorem countDigits_eq_zero_iff (text : List Char) :
    countDigits text = 0 ↔ leadingDigits text = [] := by
  rw [countDigits_eq, List.length_eq_zero_iff]

theorem take_countDigits (text : List Char) :
    text.take (countDigits text) = leadingDigits text := by
  rw [countDigits_eq]
  exact (List.prefix_iff_eq_take.mp (List.takeWhile_prefix _)).symm

theorem drop_countDigits (text : List Char) :
    text.drop (countDigits text) = afterDigits text := by
  rw [countDigits_eq, afterDigits]

theorem factor_lt {unit : List Char} {u : ℕ} (h : (unit, u) ∈ byteUnits.names) :
    1024 ^ u < 2 ^ 64 := by
  have hexponents : ∀ entry ∈ byteUnits.names, entry.2 ≤ 3 := by decide
  calc 1024 ^ u ≤ 1024 ^ 3 := Nat.pow_le_pow_right (by decide) (hexponents _ h)
    _ < 2 ^ 64 := by decide

/-- Each unit has its power of 1024 as the factor. -/
theorem multiplier_of_mem {unit : List Char} {u : ℕ} (h : (unit, u) ∈ byteUnits.names) :
    multiplier unit = some (.ofNat (1024 ^ u)) := by
  have hall : ∀ entry ∈ byteUnits.names,
      multiplier entry.1 = some (.ofNat (1024 ^ entry.2)) := by decide
  exact hall _ h

/-- There are no other units. -/
theorem mem_of_multiplier {unit : List Char} {factor : UInt64}
    (h : multiplier unit = some factor) : ∃ u, (unit, u) ∈ byteUnits.names := by
  unfold multiplier at h
  -- the chain of units from its first branch to its last
  split_ifs at h with hb hkb hmb hgb
  · rcases hb with rfl | rfl
    · exact ⟨0, by decide⟩
    · exact ⟨0, by decide⟩
  · exact ⟨1, by rw [hkb]; decide⟩
  · exact ⟨2, by rw [hmb]; decide⟩
  · exact ⟨3, by rw [hgb]; decide⟩

theorem multiplier_eq_some_iff {unit : List Char} {factor : UInt64} :
    multiplier unit = some factor ↔
      ∃ u, (unit, u) ∈ byteUnits.names ∧ factor.toNat = 1024 ^ u := by
  refine ⟨fun h => ?_, fun h => ?_⟩
  · obtain ⟨u, hmem⟩ := mem_of_multiplier h
    rw [multiplier_of_mem hmem, Option.some.injEq] at h
    rw [← h]
    exact ⟨u, hmem, UInt64.toNat_ofNat_of_lt' (factor_lt hmem)⟩
  · obtain ⟨u, hmem, hfactor⟩ := h
    rw [multiplier_of_mem hmem, ← hfactor, UInt64.ofNat_toNat]

theorem fromChars_eq_some_iff {digits : List Char} {value : UInt64} :
    fromChars digits = some value ↔ value.toNat = decimal digits := by
  unfold fromChars
  refine ⟨fun h => ?_, fun h => ?_⟩
  · -- a number of more than 64 bits is out of range
    by_cases hlt : decimal digits < 2 ^ 64
    · rw [if_pos hlt, Option.some.injEq] at h
      rw [← h, UInt64.toNat_ofNat_of_lt' hlt]
    · rw [if_neg hlt] at h
      cases h
  · have hlt : decimal digits < 2 ^ 64 := h ▸ value.toNat_lt
    rw [if_pos hlt, ← h, UInt64.ofNat_toNat]

/-- The branches of `parse_byte_size`, read off the text. -/
theorem parseByteSize_branches {sizeStr : String} {size : UInt64} :
    parseByteSize sizeStr = .ok size ↔
      leadingDigits sizeStr.toList ≠ [] ∧
        ∃ value, fromChars (leadingDigits sizeStr.toList) = some value ∧
          ∃ factor, multiplier ((afterDigits sizeStr.toList).map Char.toLower) = some factor ∧
            value * factor = size := by
  unfold parseByteSize
  simp only [take_countDigits, drop_countDigits, countDigits_eq_zero_iff]
  -- digits, their value and a unit: the three things that can be missing
  by_cases hdigits : leadingDigits sizeStr.toList = []
  · simp [hdigits]
  · rw [if_neg hdigits]
    cases hvalue : fromChars (leadingDigits sizeStr.toList) with
    | none => simp
    | some value =>
      cases hfactor : multiplier ((afterDigits sizeStr.toList).map Char.toLower) with
      | none => simp
      | some factor => simp [hdigits]

/-- **What is accepted**: every number below `2 ^ 64` with a unit, as its product modulo
    `2 ^ 64`. -/
theorem parseByteSize_eq_ok_iff {sizeStr : String} {size : UInt64} :
    parseByteSize sizeStr = .ok size ↔
      ∃ n u, DenotesBytes sizeStr n u ∧ n < 2 ^ 64 ∧ size.toNat = n * 1024 ^ u % 2 ^ 64 := by
  rw [parseByteSize_branches]
  -- value and factor have 64 bits each, and their product is taken modulo `2 ^ 64`
  refine ⟨fun h => ?_, fun h => ?_⟩
  · obtain ⟨hdigits, value, hvalue, factor, hfactor, rfl⟩ := h
    obtain ⟨u, hunit, hpow⟩ := multiplier_eq_some_iff.mp hfactor
    have hn := fromChars_eq_some_iff.mp hvalue
    refine ⟨_, u, byteUnits.denotes_iff.mpr ⟨hdigits, rfl, hunit⟩, hn ▸ value.toNat_lt, ?_⟩
    rw [UInt64.toNat_mul, hn, hpow]
  · obtain ⟨n, u, hdenotes, hlt, hsize⟩ := h
    obtain ⟨hdigits, rfl, hunit⟩ := byteUnits.denotes_iff.mp hdenotes
    have hpow : (UInt64.ofNat (1024 ^ u)).toNat = 1024 ^ u :=
      UInt64.toNat_ofNat_of_lt' (factor_lt hunit)
    refine ⟨hdigits, .ofNat (decimal (leadingDigits sizeStr.toList)),
      fromChars_eq_some_iff.mpr (UInt64.toNat_ofNat_of_lt' hlt), .ofNat (1024 ^ u),
      multiplier_eq_some_iff.mpr ⟨u, hunit, hpow⟩, ?_⟩
    rw [← UInt64.toNat_inj, UInt64.toNat_mul, UInt64.toNat_ofNat_of_lt' hlt, hpow, hsize]

/-! ## Exactness -/

/-- Accepted exactly if the denoted number has 64 bits, and then as that number. -/
structure ParsesExactly (sizeStr : String) : Prop where
  accepts : (∃ size, parseByteSize sizeStr = .ok size) ↔
    ∃ n u, DenotesBytes sizeStr n u ∧ n * 1024 ^ u < 2 ^ 64
  value : ∀ size, parseByteSize sizeStr = .ok size →
    ∃ n u, DenotesBytes sizeStr n u ∧ size.toNat = n * 1024 ^ u

/-- **A byte size is parsed exactly** unless its number has 64 bits and its product with the
    unit has more. -/
theorem parsesExactly_iff (sizeStr : String) :
    ParsesExactly sizeStr ↔
      ¬ ∃ n u, DenotesBytes sizeStr n u ∧ n < 2 ^ 64 ∧ 2 ^ 64 ≤ n * 1024 ^ u := by
  have hpos (u : ℕ) : 0 < 1024 ^ u := Nat.pow_pos (by decide)
  refine ⟨fun h => ?_, fun h => ⟨⟨fun haccept => ?_, fun hfits => ?_⟩, fun size haccept => ?_⟩⟩
  · intro hwraps
    obtain ⟨n, u, hdenotes, hlt, hle⟩ := hwraps
    -- the product is accepted, but it does not fit
    obtain ⟨n', u', hdenotes', hfits⟩ := h.accepts.mp
      ⟨.ofNat (n * 1024 ^ u % 2 ^ 64), parseByteSize_eq_ok_iff.mpr ⟨n, u, hdenotes, hlt,
        UInt64.toNat_ofNat_of_lt' (Nat.mod_lt _ (by decide))⟩⟩
    obtain ⟨rfl, rfl⟩ := hdenotes.unique hdenotes'
    omega
  · -- what is accepted fits, or it would have wrapped
    obtain ⟨size, hsize⟩ := haccept
    obtain ⟨n, u, hdenotes, hlt, _⟩ := parseByteSize_eq_ok_iff.mp hsize
    exact ⟨n, u, hdenotes, not_le.mp fun hle => h ⟨n, u, hdenotes, hlt, hle⟩⟩
  · -- what fits has a number that fits
    obtain ⟨n, u, hdenotes, hlt⟩ := hfits
    have hn : n < 2 ^ 64 := lt_of_le_of_lt (Nat.le_mul_of_pos_right n (hpos u)) hlt
    exact ⟨.ofNat (n * 1024 ^ u), parseByteSize_eq_ok_iff.mpr ⟨n, u, hdenotes, hn, by
      rw [UInt64.toNat_ofNat_of_lt' hlt, Nat.mod_eq_of_lt hlt]⟩⟩
  · -- what is accepted has kept its value, since nothing has wrapped
    obtain ⟨n, u, hdenotes, hlt, hsize⟩ := parseByteSize_eq_ok_iff.mp haccept
    have hfits : n * 1024 ^ u < 2 ^ 64 := not_le.mp fun hle => h ⟨n, u, hdenotes, hlt, hle⟩
    exact ⟨n, u, hdenotes, by rw [hsize, Nat.mod_eq_of_lt hfits]⟩

/-- `2 ^ 34` gigabytes are accepted as no bytes at all. -/
theorem hugeSize_wraps : ¬ ParsesExactly "17179869184gb" := by
  intro h
  have hzero : parseByteSize "17179869184gb" = .ok 0 := by decide
  obtain ⟨n, u, hdenotes, hsize⟩ := h.value 0 hzero
  have hdenotes' : DenotesBytes "17179869184gb" 17179869184 3 :=
    byteUnits.denotes_iff.mpr ⟨by decide, by decide, by decide⟩
  obtain ⟨rfl, rfl⟩ := hdenotes.unique hdenotes'
  revert hsize
  decide

end Settings

end AVCapture
