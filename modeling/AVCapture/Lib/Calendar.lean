import Mathlib.Data.List.Basic

/-!
# Calendar Dates as Text

The proleptic Gregorian calendar: the date and the time of day of a number of seconds since
1970-01-01, and their text in the form `%Y-%m-%d_%H-%M-%S`, with the year in at least four
digits and everything else in two.

## Main results

- `daysOfDate_dateOfDays`: a date belongs to one day only
- `text_inj`: two times with the same text are the same second
-/

namespace Calendar

/-! ## Dates -/

/-- A date, with the month and the day of the month counted from 1. -/
structure Date where
  year : Int
  month : ℕ
  day : ℕ
  deriving DecidableEq, Repr

/-- The months from March on, 0 to 11, in which the day `doy` of such a year falls. -/
def monthOfYearDay (doy : ℕ) : ℕ := (5 * doy + 2) / 153

/-- The days of a year from March on before the month `mp`. -/
def daysBeforeMonth (mp : ℕ) : ℕ := (153 * mp + 2) / 5

/-- The position of a day in the cycle of 400 years that begins with 1 March: the year of
    the cycle and the day of that year. A century has 36524 days and the last one another
    day; four years have 1461 days, and the last one of them the leap day at its end. -/
def yearOfCycle (doe : ℕ) : ℕ × ℕ :=
  let century := min (doe / 36524) 3
  let doc := doe - century * 36524
  let quad := doc / 1461
  let doq := doc - quad * 1461
  let year := min (doq / 365) 3
  (century * 100 + quad * 4 + year, doq - year * 365)

/-- The date of a day counted from 1970-01-01, which is 719468 days after 0000-03-01. -/
def dateOfDays (days : Int) : Date :=
  -- 400 years have 146097 days
  let era := (days + 719468) / 146097
  let doe := ((days + 719468) % 146097).toNat
  let (yoe, doy) := yearOfCycle doe
  -- January and February belong to the year that began the March before
  let mp := monthOfYearDay doy
  { year := era * 400 + yoe + (if mp < 10 then 0 else 1)
    month := if mp < 10 then mp + 3 else mp - 9
    day := doy - daysBeforeMonth mp + 1 }

/-- The day of a date, counted from 1970-01-01. -/
def daysOfDate (date : Date) : Int :=
  let year := if 2 < date.month then date.year else date.year - 1
  let mp := if 2 < date.month then date.month - 3 else date.month + 9
  let yoe := year % 400
  year / 400 * 146097 + (yoe * 365 + yoe / 4 - yoe / 100 + (daysBeforeMonth mp + date.day - 1)) -
    719468

/-- The first step of the division: no century has more than 36525 days. -/
theorem century_spec {doe q century : ℕ} (h : doe < 146097) (hq : q = doe / 36524)
    (hcentury : century = min q 3) : century ≤ 3 ∧ century * 36524 ≤ doe ∧
      doe - century * 36524 < 36525 := by
  have hq4 : q ≤ 4 := by omega
  omega

theorem quad_spec {doc quad : ℕ} (h : doc < 36525) (hquad : quad = doc / 1461) :
    quad < 25 ∧ quad * 1461 ≤ doc ∧ doc - quad * 1461 < 1461 := by
  omega

/-- The last step: no year of four has more than 366 days. -/
theorem year_spec {doq q year : ℕ} (h : doq < 1461) (hq : q = doq / 365) (hyear : year = min q 3) :
    year ≤ 3 ∧ year * 365 ≤ doq ∧ doq - year * 365 < 366 := by
  have hq4 : q ≤ 4 := by omega
  omega

/-- What the position in the cycle is made of. -/
theorem yearOfCycle_spec {doe : ℕ} (h : doe < 146097) :
    (yearOfCycle doe).1 < 400 ∧ (yearOfCycle doe).2 < 366 ∧
      doe + (yearOfCycle doe).1 / 100 =
        (yearOfCycle doe).1 * 365 + (yearOfCycle doe).1 / 4 + (yearOfCycle doe).2 := by
  unfold yearOfCycle
  simp only
  -- each step of the division for itself, so that the numbers stay small
  generalize hcentury : min (doe / 36524) 3 = century
  obtain ⟨hcentury3, hcenturyLe, hdocLt⟩ := century_spec h rfl hcentury.symm
  clear hcentury
  generalize hdoc : doe - century * 36524 = doc at *
  generalize hquad : doc / 1461 = quad
  obtain ⟨hquadLt, hquadLe, hdoqLt⟩ := quad_spec hdocLt hquad.symm
  clear hquad
  generalize hdoq : doc - quad * 1461 = doq at *
  generalize hyear : min (doq / 365) 3 = year
  obtain ⟨hyear3, hyearLe, hdoyLt⟩ := year_spec hdoqLt rfl hyear.symm
  clear hyear
  -- the year of the cycle gives back the centuries and the fours
  have hhundred : (century * 100 + quad * 4 + year) / 100 = century := by omega
  have hfour : (century * 100 + quad * 4 + year) / 4 = century * 25 + quad := by omega
  rw [hhundred, hfour]
  exact ⟨by omega, hdoyLt, by omega⟩

theorem monthOfYearDay_spec {doy : ℕ} (h : doy < 366) :
    monthOfYearDay doy < 12 ∧ daysBeforeMonth (monthOfYearDay doy) ≤ doy ∧
      doy < daysBeforeMonth (monthOfYearDay doy) + 31 := by
  unfold monthOfYearDay daysBeforeMonth
  omega

/-- The month and the day of a date are in range. -/
theorem dateOfDays_range (days : Int) :
    (dateOfDays days).month < 13 ∧ (dateOfDays days).day < 32 := by
  have hdoe : ((days + 719468) % 146097).toNat < 146097 := by omega
  obtain ⟨_, hdoy, _⟩ := yearOfCycle_spec hdoe
  obtain ⟨hmp, hle, hlt⟩ := monthOfYearDay_spec hdoy
  unfold dateOfDays
  refine ⟨?_, ?_⟩
  · simp only
    split <;> omega
  · simp only
    omega

/-- The year and the month since March come back from the year and the month. -/
theorem march_year (mp : ℕ) (year : Int) (h : mp < 12) :
    let month := if mp < 10 then mp + 3 else mp - 9
    let year' := year + (if mp < 10 then 0 else 1)
    (if 2 < month then month - 3 else month + 9) = mp ∧
      (if 2 < month then year' else year' - 1) = year := by
  by_cases hmp : mp < 10
  · simp only [hmp, if_true, show 2 < mp + 3 by omega]
    omega
  · simp only [hmp, if_false, show ¬ 2 < mp - 9 by omega]
    omega

/-- **One day for each date**. -/
theorem daysOfDate_dateOfDays (days : Int) : daysOfDate (dateOfDays days) = days := by
  have hdoe : ((days + 719468) % 146097).toNat < 146097 := by omega
  have hsplit : (days + 719468) / 146097 * 146097 + ((days + 719468) % 146097).toNat =
      days + 719468 := by omega
  obtain ⟨hyoe, hdoy, hsum⟩ := yearOfCycle_spec hdoe
  obtain ⟨hmp, hle, _⟩ := monthOfYearDay_spec hdoy
  generalize hera : (days + 719468) / 146097 = era at *
  generalize hn : ((days + 719468) % 146097).toNat = doe at *
  unfold daysOfDate dateOfDays
  simp only [hera, hn]
  obtain ⟨hmonth, hyear⟩ := march_year _ (era * 400 + (yearOfCycle doe).1) hmp
  rw [hmonth, hyear]
  generalize (yearOfCycle doe).1 = yoe at *
  generalize (yearOfCycle doe).2 = doy at *
  generalize daysBeforeMonth (monthOfYearDay doy) = before at *
  -- the cycle and the year in it come back from the year
  have hmod : (era * 400 + (yoe : Int)) % 400 = yoe := by omega
  have hdiv : (era * 400 + (yoe : Int)) / 400 = era := by omega
  rw [hmod, hdiv]
  omega

/-- A leap day. -/
example : dateOfDays 11016 = ⟨2000, 2, 29⟩ := by decide

/-! ## Times -/

/-- A date with a time of day. -/
structure DateTime where
  date : Date
  hour : ℕ
  minute : ℕ
  second : ℕ
  deriving DecidableEq, Repr

/-- The time at a number of seconds since 1970-01-01. -/
def dateTime (seconds : Int) : DateTime :=
  let ofDay := (seconds % 86400).toNat
  { date := dateOfDays (seconds / 86400)
    hour := ofDay / 3600
    minute := ofDay / 60 % 60
    second := ofDay % 60 }

theorem dateTime_range (seconds : Int) : (dateTime seconds).hour < 24 ∧
    (dateTime seconds).minute < 60 ∧ (dateTime seconds).second < 60 := by
  simp only [dateTime]
  omega

theorem dateTime_inj {s t : Int} (h : dateTime s = dateTime t) : s = t := by
  have hdays : s / 86400 = t / 86400 := by
    have hdate : dateOfDays (s / 86400) = dateOfDays (t / 86400) := congrArg DateTime.date h
    rw [← daysOfDate_dateOfDays (s / 86400), hdate, daysOfDate_dateOfDays]
  have hhour : (s % 86400).toNat / 3600 = (t % 86400).toNat / 3600 := congrArg DateTime.hour h
  have hminute : (s % 86400).toNat / 60 % 60 = (t % 86400).toNat / 60 % 60 :=
    congrArg DateTime.minute h
  have hsecond : (s % 86400).toNat % 60 = (t % 86400).toNat % 60 := congrArg DateTime.second h
  omega

/-! ## Text -/

/-- A number in decimal, with zeros in front up to a width. -/
def padded (width n : ℕ) : List Char := (Nat.toDigits 10 n).leftpad width '0'

theorem padded_inj {width m n : ℕ} (h : padded width m = padded width n) : m = n := by
  have hval : ∀ k, Nat.ofDigitChars 10 (padded width k) 0 = k := by
    intro k
    unfold padded List.leftpad
    -- the zeros in front do not count
    rw [Nat.ofDigitChars_append, Nat.ofDigitChars_replicate_zero, Nat.mul_zero,
      Nat.ofDigitChars_ten_toDigits]
  rw [← hval m, ← hval n, h]

theorem length_padded_two {n : ℕ} (h : n < 100) : (padded 2 n).length = 2 := by
  have hlen : (Nat.toDigits 10 n).length ≤ 2 :=
    (Nat.length_toDigits_le_iff (by omega) (by omega)).mpr h
  unfold padded
  rw [List.length_leftpad]
  omega

theorem minus_notMem_padded (width n : ℕ) : '-' ∉ padded width n := by
  intro h
  rcases List.mem_append.mp h with h | h
  · exact absurd (List.eq_of_mem_replicate h) (by decide)
  · exact absurd (Nat.isDigit_of_mem_toDigits (by omega) (by omega) h) (by decide)

/-- `%Y` -/
def yearText (year : Int) : List Char :=
  (if year < 0 then ['-'] else []) ++ padded 4 year.natAbs

theorem yearText_inj {y z : Int} (h : yearText y = yearText z) : y = z := by
  have hminus : ∀ year : Int, '-' ∈ yearText year ↔ year < 0 := by
    intro year
    unfold yearText
    split
    · rename_i hneg
      simp [hneg]
    · rename_i hpos
      simp [hpos, minus_notMem_padded]
  -- the minus sign tells the negative years
  have hsign : y < 0 ↔ z < 0 := by rw [← hminus, ← hminus, h]
  unfold yearText at h
  by_cases hneg : y < 0
  · rw [if_pos hneg, if_pos (hsign.mp hneg)] at h
    have habs := padded_inj (List.append_cancel_left h)
    omega
  · rw [if_neg hneg, if_neg (fun hz => hneg (hsign.mpr hz))] at h
    have habs := padded_inj (List.append_cancel_left h)
    omega

/-- `%Y-%m-%d_%H-%M-%S` -/
def text (t : DateTime) : List Char :=
  yearText t.date.year ++ ('-' :: padded 2 t.date.month ++ ('-' :: padded 2 t.date.day ++
    ('_' :: padded 2 t.hour ++ ('-' :: padded 2 t.minute ++ ('-' :: padded 2 t.second)))))

/-- Two fields of the same width, each before the same separator's rest. -/
theorem field_inj {c : Char} {m n : ℕ} {rest rest' : List Char} (hm : m < 100) (hn : n < 100)
    (h : c :: padded 2 m ++ rest = c :: padded 2 n ++ rest') : m = n ∧ rest = rest' := by
  have hlen : (c :: padded 2 m).length = (c :: padded 2 n).length := by
    simp [length_padded_two hm, length_padded_two hn]
  obtain ⟨hfield, hrest⟩ := List.append_inj h hlen
  exact ⟨padded_inj (List.cons.inj hfield).2, hrest⟩

/-- **One second for each text**: times with the same text are the same. -/
theorem text_inj {s t : Int} (h : text (dateTime s) = text (dateTime t)) : s = t := by
  apply dateTime_inj
  obtain ⟨hhourS, hminuteS, hsecondS⟩ := dateTime_range s
  obtain ⟨hhourT, hminuteT, hsecondT⟩ := dateTime_range t
  obtain ⟨hmonthS, hdayS⟩ := dateOfDays_range (s / 86400)
  obtain ⟨hmonthT, hdayT⟩ := dateOfDays_range (t / 86400)
  have hmonthS' : (dateTime s).date.month < 13 := hmonthS
  have hmonthT' : (dateTime t).date.month < 13 := hmonthT
  have hdayS' : (dateTime s).date.day < 32 := hdayS
  have hdayT' : (dateTime t).date.day < 32 := hdayT
  generalize dateTime s = a at *
  generalize dateTime t = b at *
  unfold text at h
  -- the fields after the year have a fixed width, so the year's text is what is before them
  have hlen : ∀ d : DateTime, d.date.month < 100 → d.date.day < 100 → d.hour < 100 →
      d.minute < 100 → d.second < 100 →
      ('-' :: padded 2 d.date.month ++ ('-' :: padded 2 d.date.day ++ ('_' :: padded 2 d.hour ++
        ('-' :: padded 2 d.minute ++ ('-' :: padded 2 d.second))))).length = 15 := by
    intro d hmonth hday hhour hminute hsecond
    simp [length_padded_two hmonth, length_padded_two hday, length_padded_two hhour,
      length_padded_two hminute, length_padded_two hsecond]
  obtain ⟨hyear, hrest⟩ := List.append_inj' h
    ((hlen a (by omega) (by omega) (by omega) (by omega) (by omega)).trans
      (hlen b (by omega) (by omega) (by omega) (by omega) (by omega)).symm)
  obtain ⟨hmonth, hrest⟩ := field_inj (by omega) (by omega) hrest
  obtain ⟨hday, hrest⟩ := field_inj (by omega) (by omega) hrest
  obtain ⟨hhour, hrest⟩ := field_inj (by omega) (by omega) hrest
  obtain ⟨hminute, hrest⟩ := field_inj (by omega) (by omega) hrest
  have hsecond := padded_inj (List.cons.inj hrest).2
  obtain ⟨⟨_, _, _⟩, _, _, _⟩ := a
  obtain ⟨⟨_, _, _⟩, _, _, _⟩ := b
  have hyear' := yearText_inj hyear
  simp_all

theorem isDigit_of_mem_padded {c : Char} {width n : ℕ} (h : c ∈ padded width n) :
    c.isDigit = true := by
  rcases List.mem_append.mp h with h | h
  · rw [List.eq_of_mem_replicate h]
    rfl
  · exact Nat.isDigit_of_mem_toDigits (by omega) (by omega) h

/-- The characters of a text. -/
theorem mem_text {c : Char} {t : DateTime} (h : c ∈ text t) :
    c.isDigit = true ∨ c = '-' ∨ c = '_' := by
  have hyear : c ∈ yearText t.date.year → c.isDigit = true ∨ c = '-' := by
    intro hc
    rcases List.mem_append.mp hc with hminus | hdigit
    · split_ifs at hminus
      · exact .inr (List.mem_singleton.mp hminus)
      · exact absurd hminus List.not_mem_nil
    · exact .inl (isDigit_of_mem_padded hdigit)
  have hfield {n : ℕ} : c ∈ padded 2 n → c.isDigit = true := isDigit_of_mem_padded
  simp only [text, List.mem_append, List.mem_cons] at h
  tauto

example : text (dateTime 951782399) = "2000-02-28_23-59-59".toList := rfl

end Calendar
