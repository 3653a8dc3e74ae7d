import Mathlib.Data.List.Basic
import Mathlib.Data.List.Flatten
import Mathlib.Data.Nat.Basic

/-!
# Command Lines

A process of Windows is given its arguments as one text. The C runtime of the caller writes
them one after the other with a blank in between, and that of the process takes the text apart
again: blanks and tabs end an argument, but not between quotation marks; behind `2 * n`
backslashes a mark opens or closes a quotation, and `n` backslashes are left; behind one more
the mark itself is left too. A mark behind a closing one is left, and the quotation goes on.

The name of the program comes first, and in it a backslash is a backslash.

## Contents

- `join`: the writer, which puts no marks
- `read`, `split`: the reader
- `split_join_eq_iff`: the arguments that come back
-/

namespace CommandLine

/-! ## Reading -/

inductive Mode where
  | between
  | inside (quoted : Bool) (slashes : ℕ)
  /-- right behind the mark that closes a quotation -/
  | closed

def isBlank (c : Char) : Bool := c = ' ' || c = '\t'

/-- A character that opens no quotation and ends no argument. -/
def enter (c : Char) : List Char × Mode :=
  if c = '\\' then ([], .inside false 1) else ([c], .inside false 0)

/-- What a character adds to the argument, and the mode behind it. -/
def step : Mode → Char → List Char × Mode
  | .between, c =>
    if c = '"' then ([], .inside true 0) else if isBlank c then ([], .between) else enter c
  | .inside quoted n, c =>
    if c = '"' then
      if n % 2 = 1 then (List.replicate (n / 2) '\\' ++ ['"'], .inside quoted 0)
      else (List.replicate (n / 2) '\\', if quoted then .closed else .inside true 0)
    else if c = '\\' then ([], .inside quoted (n + 1))
    else if isBlank c && !quoted then (List.replicate n '\\', .between)
    else (List.replicate n '\\' ++ [c], .inside quoted 0)
  | .closed, c =>
    if c = '"' then (['"'], .inside true 0) else if isBlank c then ([], .between) else enter c

/-- Characters in front of the first argument. -/
def extend (w : List Char) : List (List Char) → List (List Char)
  | [] => [w]
  | a :: as => (w ++ a) :: as

/-- The arguments of a text; in an argument, the first one is what is left of it. -/
def read : Mode → List Char → List (List Char)
  | .between, [] => []
  | .inside _ n, [] => [List.replicate n '\\']
  | .closed, [] => [[]]
  | m, c :: cs =>
    match m, step m c with
    | .between, (_, .between) => read .between cs
    | _, (w, .between) => w :: read .between cs
    | _, (w, m) => extend w (read m cs)

/-- The name of the program, and the text behind it. -/
def program : Bool → List Char → List Char × List Char
  | _, [] => ([], [])
  | quoted, c :: cs =>
    if c = '"' then program (!quoted) cs
    else if isBlank c && !quoted then ([], cs)
    else (c :: (program quoted cs).1, (program quoted cs).2)

/-- The arguments of a process, the name of the program first. -/
def split (line : List Char) : List (List Char) :=
  (program false line).1 :: read .between (program false line).2

/-! ## Writing -/

def join (args : List (List Char)) : List Char := [' '].intercalate args

/-- A text without blanks and marks. -/
def Solid (w : List Char) : Prop := ∀ c ∈ w, c ≠ '"' ∧ isBlank c = false

def Plain (w : List Char) : Prop := w ≠ [] ∧ Solid w

instance (w : List Char) : Decidable (Solid w) := inferInstanceAs (Decidable (∀ c ∈ w, _))

instance (w : List Char) : Decidable (Plain w) := inferInstanceAs (Decidable (_ ∧ _))

theorem Solid.cons {c : Char} {w : List Char} (hc : c ≠ '"') (hblank : isBlank c = false)
    (h : Solid w) : Solid (c :: w) :=
  List.forall_mem_cons.mpr ⟨⟨hc, hblank⟩, h⟩

theorem Solid.append {v w : List Char} (hv : Solid v) (hw : Solid w) : Solid (v ++ w) :=
  List.forall_mem_append.mpr ⟨hv, hw⟩

/-! ## Reading what has been written -/

section Read

variable {m m' : Mode} {w : List Char} {c : Char}

/-- A character in an argument. -/
theorem read_of_step (h : step m c = (w, m')) (hm' : m' ≠ .between) (cs : List Char) :
    read m (c :: cs) = extend w (read m' cs) := by
  cases m' with
  | between => exact absurd rfl hm'
  | inside _ _ | closed => cases m <;> simp [read, h]

/-- A blank behind an argument. -/
theorem read_of_end (hm : m ≠ .between) (h : step m c = (w, .between)) (cs : List Char) :
    read m (c :: cs) = w :: read .between cs := by
  cases m with
  | between => exact absurd rfl hm
  | inside _ _ | closed => simp [read, h]

/-- A blank between two arguments. -/
theorem read_between_of_blank (h : step .between c = (w, .between)) (cs : List Char) :
    read .between (c :: cs) = read .between cs := by
  simp [read, h]

/-- What comes after an argument in a text that `join` has written. -/
def Ends (rest : List Char) : Prop := rest = [] ∨ ∃ cs, rest = ' ' :: cs

/-- **An argument** without blanks and marks is read as it is. -/
theorem read_inside_append (hw : Solid w) (n : ℕ) {rest : List Char} (hrest : Ends rest) :
    -- the induction is on the argument, with the backslashes that are pending
    read (.inside false n) (w ++ rest) = (List.replicate n '\\' ++ w) :: read .between rest := by
  induction w generalizing n with
  | nil =>
    rw [List.append_nil, List.nil_append]
    rcases hrest with rfl | ⟨cs, rfl⟩
    · rfl
    · have hend : step (.inside false n) ' ' = (List.replicate n '\\', .between) := rfl
      have hblank : step .between ' ' = ([], .between) := rfl
      rw [read_of_end (by simp) hend, read_between_of_blank hblank]
  | cons c w ih =>
    obtain ⟨⟨hmark, hblank⟩, hw'⟩ := List.forall_mem_cons.mp hw
    rw [List.cons_append]
    -- a backslash waits for what comes next, and any other character ends the wait
    by_cases hslash : c = '\\'
    · subst hslash
      have hstep : step (.inside false n) '\\' = ([], .inside false (n + 1)) := rfl
      rw [read_of_step hstep nofun, ih hw', List.replicate_succ']
      simp [extend]
    · have hstep : step (.inside false n) c = (List.replicate n '\\' ++ [c], .inside false 0) := by
        simp [step, hmark, hslash, hblank]
      rw [read_of_step hstep nofun, ih hw']
      simp [extend]

/-- An argument begins with its first character. -/
theorem read_between (hmark : c ≠ '"') (hblank : isBlank c = false) (cs : List Char) :
    read .between (c :: cs) = read (.inside false 0) (c :: cs) := by
  by_cases hslash : c = '\\'
  · subst hslash
    rfl
  · simp [read, step, enter, hmark, hslash, hblank]

theorem read_append (hw : Plain w) {rest : List Char} (hrest : Ends rest) :
    read .between (w ++ rest) = w :: read .between rest := by
  obtain ⟨hne, hsolid⟩ := hw
  have hread := read_inside_append hsolid 0 hrest
  obtain ⟨c, w, rfl⟩ := List.exists_cons_of_ne_nil hne
  obtain ⟨hmark, hblank⟩ := hsolid c List.mem_cons_self
  rwa [List.cons_append, read_between hmark hblank]

end Read

theorem join_cons_cons (a b : List Char) (as : List (List Char)) :
    join (a :: b :: as) = a ++ ' ' :: join (b :: as) := by
  rw [join, List.intercalate_cons_cons, List.append_assoc, List.singleton_append]
  rfl

theorem read_join {args : List (List Char)} (h : ∀ a ∈ args, Plain a) :
    read .between (join args) = args := by
  -- the arguments are taken off one by one, each with the blank behind it
  induction args with
  | nil => rfl
  | cons a as ih =>
    obtain ⟨ha, has⟩ := List.forall_mem_cons.mp h
    cases as with
    | nil =>
      have hread := read_append ha (.inl rfl)
      rw [List.append_nil] at hread
      rw [join, List.intercalate_singleton, hread]
      rfl
    | cons b as =>
      rw [join_cons_cons, read_append ha (.inr ⟨_, rfl⟩)]
      have hblank : step .between ' ' = ([], .between) := rfl
      rw [read_between_of_blank hblank, ih has]

/-! ## What reading loses -/

def weight (w : List Char) : ℕ := w.count '"' + w.count '\\'

theorem weight_append (v w : List Char) : weight (v ++ w) = weight v + weight w := by
  simp only [weight, List.count_append]
  omega

theorem weight_slashes (n : ℕ) : weight (List.replicate n '\\') = n := by
  simp [weight, List.count_replicate]

theorem weight_cons (c : Char) (cs : List Char) : weight (c :: cs) = weight [c] + weight cs :=
  weight_append [c] cs

theorem flatten_extend (w : List Char) (as : List (List Char)) :
    (extend w as).flatten = w ++ as.flatten := by
  cases as <;> simp [extend]

/-- The backslashes that have been read and are not in an argument yet. -/
def Mode.pending : Mode → ℕ
  | .inside _ n => n
  | .between | .closed => 0

theorem flatten_read_cons (m : Mode) (c : Char) (cs : List Char) :
    (read m (c :: cs)).flatten = (step m c).1 ++ (read (step m c).2 cs).flatten := by
  obtain ⟨w, m', hstep⟩ : ∃ w m', step m c = (w, m') := ⟨_, _, rfl⟩
  rw [hstep]
  -- whether the reader goes on between the arguments, or inside one
  by_cases hbetween : m' = .between
  · subst hbetween
    by_cases hm : m = .between
    · subst hm
      -- only a blank leaves the reader between the arguments
      have hw : w = [] := by
        simp only [step, enter] at hstep
        split_ifs at hstep <;> simp_all
      rw [read_between_of_blank hstep, hw, List.nil_append]
    · rw [read_of_end hm hstep, List.flatten_cons]
  · rw [read_of_step hstep hbetween, flatten_extend]

/-- **Step**: a mark is lost, or a backslash in front of it. A mark behind a closing one is left,
    but the closing one has been lost. -/
theorem weight_step_lt {m : Mode} (hm : m ≠ .closed) :
    weight (step m '"').1 + (step m '"').2.pending < weight ['"'] + m.pending := by
  have hmark : weight ['"'] = 1 := rfl
  cases m with
  | closed => exact absurd rfl hm
  | between => exact Nat.zero_lt_one
  | inside quoted n =>
    -- an even number of backslashes leaves the mark to quote, an odd one makes it a character
    rcases Nat.mod_two_eq_zero_or_one n with hn | hn
    · cases quoted <;> simp [step, hn, Mode.pending, weight_slashes, hmark] <;> omega
    · simp [step, hn, Mode.pending, weight_append, weight_slashes, hmark]
      omega

theorem weight_enter (c : Char) : weight (enter c).1 + (enter c).2.pending = weight [c] := by
  unfold enter
  split_ifs with hslash
  · rw [hslash]
    rfl
  · rfl

/-- **Step**: no mark and no backslash comes from anywhere. -/
theorem weight_step_le (m : Mode) (c : Char) :
    weight (step m c).1 + (step m c).2.pending ≤ weight [c] + m.pending := by
  -- a mark is lost; otherwise only a blank or a pending backslash can be
  by_cases hmark : c = '"'
  · subst hmark
    cases m with
    | closed => exact Nat.le_refl 1
    | between | inside _ _ => exact Nat.le_of_lt (weight_step_lt (by simp))
  · have henter := weight_enter c
    cases m with
    | between | closed =>
      simp only [step, hmark, if_false]
      split_ifs
      · exact Nat.zero_le _
      · exact Nat.le_of_eq henter
    | inside quoted n =>
      simp only [step, hmark, if_false]
      split_ifs with hslash hblank
      · rw [hslash]
        show 0 + (n + 1) ≤ 1 + n
        omega
      · rw [weight_slashes]
        exact Nat.le_add_left n (weight [c])
      · rw [weight_append, weight_slashes, Nat.add_comm n]
        exact Nat.le_refl _

theorem step_ne_closed {c : Char} (h : c ≠ '"') (m : Mode) : (step m c).2 ≠ .closed := by
  cases m <;> simp only [step, enter, h, if_false] <;> split_ifs <;> simp

theorem weight_read_le (m : Mode) (cs : List Char) :
    weight (read m cs).flatten ≤ weight cs + m.pending := by
  induction cs generalizing m with
  | nil =>
    cases m with
    | between | closed => exact Nat.zero_le _
    | inside quoted n => simp [read, weight_slashes, Mode.pending]
  | cons c cs ih =>
    -- step by step, and what is pending at the end is written out
    have hstep := weight_step_le m c
    have hrest := ih (step m c).2
    rw [flatten_read_cons, weight_append, weight_cons]
    omega

/-- **A text with marks** is not read as it is. -/
theorem weight_read_lt {m : Mode} (hm : m ≠ .closed) {cs : List Char} (h : '"' ∈ cs) :
    weight (read m cs).flatten < weight cs + m.pending := by
  induction cs generalizing m with
  | nil => exact absurd h List.not_mem_nil
  | cons c cs ih =>
    rw [flatten_read_cons, weight_append, weight_cons]
    -- the first mark is what makes the difference
    by_cases hmark : c = '"'
    · subst hmark
      have hstep := weight_step_lt hm
      have hrest := weight_read_le (step m '"').2 cs
      omega
    · have hstep := weight_step_le m c
      have hrest := ih (step_ne_closed hmark m) (List.mem_of_ne_of_mem (Ne.symm hmark) h)
      omega

/-- What is read is in the text, but for backslashes and marks. -/
theorem mem_of_mem_read {d : Char} (hslash : d ≠ '\\') (hmark : d ≠ '"') {m : Mode}
    {cs : List Char} (h : d ∈ (read m cs).flatten) : d ∈ cs := by
  induction cs generalizing m with
  | nil =>
    cases m with
    | between | closed => simp [read] at h
    | inside quoted n => simp [read, hslash] at h
  | cons c cs ih =>
    rw [flatten_read_cons, List.mem_append] at h
    -- what a step writes is the character itself, or backslashes that were pending
    rcases h with hstep | hrest
    · have hc : d = c := by
        cases m <;> simp only [step, enter] at hstep <;> split_ifs at hstep <;>
          simp_all [List.mem_replicate]
      rw [hc]
      exact List.mem_cons_self
    · exact List.mem_cons_of_mem c (ih hrest)

theorem weight_join (args : List (List Char)) : weight (join args) = weight args.flatten := by
  induction args with
  | nil => rfl
  | cons a as ih =>
    cases as with
    | nil => simp [join]
    | cons b as =>
      have hblank : weight [' '] = 0 := rfl
      rw [join_cons_cons, List.flatten_cons, weight_append, weight_append, weight_cons, ih, hblank,
        Nat.zero_add]

/-- Without marks, what is read has no blanks in it. -/
theorem plain_read {cs : List Char} (h : '"' ∉ cs) :
    (∀ a ∈ read .between cs, Plain a) ∧
      ∀ n, ∃ a as, read (.inside false n) cs = (List.replicate n '\\' ++ a) :: as ∧ Solid a ∧
        ∀ b ∈ as, Plain b := by
  induction cs with
  | nil => exact ⟨nofun, fun n => ⟨[], [], by simp [read], nofun, nofun⟩⟩
  | cons c cs ih =>
    rw [List.mem_cons, not_or] at h
    obtain ⟨hmark, hrest⟩ := h
    obtain ⟨hbetween, hinside⟩ := ih hrest
    -- inside an argument, the next character stays in it unless it is a blank
    have hall (n : ℕ) : ∃ a as, read (.inside false n) (c :: cs) =
        (List.replicate n '\\' ++ a) :: as ∧ (isBlank c = false → a ≠ []) ∧ Solid a ∧
          ∀ b ∈ as, Plain b := by
      by_cases hslash : c = '\\'
      · subst hslash
        obtain ⟨a, as, hread, ha, has⟩ := hinside (n + 1)
        have hstep : step (.inside false n) '\\' = ([], .inside false (n + 1)) := rfl
        refine ⟨'\\' :: a, as, ?_, fun _ => nofun, ha.cons (by decide) rfl, has⟩
        rw [read_of_step hstep (by simp), hread, List.replicate_succ']
        simp [extend]
      · cases hblank : isBlank c with
        | true =>
          have hstep : step (.inside false n) c = (List.replicate n '\\', .between) := by
            simp [step, Ne.symm hmark, hslash, hblank]
          refine ⟨[], read .between cs, ?_, nofun, nofun, hbetween⟩
          rw [read_of_end (by simp) hstep, List.append_nil]
        | false =>
          have hstep :
              step (.inside false n) c = (List.replicate n '\\' ++ [c], .inside false 0) := by
            simp [step, Ne.symm hmark, hslash, hblank]
          obtain ⟨a, as, hread, ha, has⟩ := hinside 0
          refine ⟨c :: a, as, ?_, fun _ => nofun, ha.cons (Ne.symm hmark) hblank, has⟩
          rw [read_of_step hstep (by simp), hread]
          simp [extend]
    refine ⟨?_, fun n => ?_⟩
    · -- between the arguments a blank is passed over
      cases hblank : isBlank c with
      | true =>
        have hstep : step .between c = ([], .between) := by
          simp [step, Ne.symm hmark, hblank]
        rw [read_between_of_blank hstep]
        exact hbetween
      | false =>
        rw [read_between (Ne.symm hmark) hblank]
        obtain ⟨a, as, hread, hne, ha, has⟩ := hall 0
        rw [hread]
        exact List.forall_mem_cons.mpr ⟨⟨hne hblank, ha⟩, has⟩
    · obtain ⟨a, as, hread, -, ha, has⟩ := hall n
      exact ⟨a, as, hread, ha, has⟩

/-- **The arguments that come back**: those that are not empty, and have no blanks and no marks
    in them. -/
theorem read_join_eq_iff (args : List (List Char)) :
    read .between (join args) = args ↔ ∀ a ∈ args, Plain a := by
  refine ⟨fun h => ?_, read_join⟩
  -- a mark in the text would be missing from what is read
  have hmark : '"' ∉ join args := by
    intro hmem
    have hlt : weight (read .between (join args)).flatten < weight (join args) :=
      weight_read_lt (m := .between) (by simp) hmem
    rw [h, weight_join] at hlt
    exact Nat.lt_irrefl _ hlt
  have hplain := (plain_read hmark).1
  rwa [h] at hplain

/-! ## With the name of the program -/

theorem program_append {w : List Char} (hw : Solid w) {rest : List Char} (hrest : Ends rest) :
    program false (w ++ rest) = (w, rest.tail) := by
  induction w with
  | nil =>
    rcases hrest with rfl | ⟨cs, rfl⟩
    · -- the name ends with the text, or at its first blank
      rfl
    · simp [program, isBlank]
  | cons c w ih =>
    obtain ⟨⟨hmark, hblank⟩, hw'⟩ := List.forall_mem_cons.mp hw
    simp [program, hmark, hblank, ih hw']

/-- **What a process finds as its arguments**. -/
theorem split_join_eq_iff {name : List Char} (hname : Solid name) (args : List (List Char)) :
    split (join (name :: args)) = name :: args ↔ ∀ a ∈ args, Plain a := by
  -- the name is read by a rule of its own, which gives it back
  have hsplit : split (join (name :: args)) = name :: read .between (join args) := by
    unfold split
    cases args with
    | nil =>
      have hprogram := program_append hname (.inl rfl)
      rw [List.append_nil] at hprogram
      rw [join, List.intercalate_singleton, hprogram]
      rfl
    | cons b as =>
      rw [join_cons_cons, program_append hname (.inr ⟨_, rfl⟩)]
      rfl
  rw [hsplit, List.cons.injEq, read_join_eq_iff]
  exact and_iff_right rfl

theorem mem_of_mem_program {d : Char} {quoted : Bool} {cs : List Char}
    (h : d ∈ (program quoted cs).1 ∨ d ∈ (program quoted cs).2) : d ∈ cs := by
  induction cs generalizing quoted with
  | nil => simp [program] at h
  | cons c cs ih =>
    unfold program at h
    -- a mark toggles, a blank outside quotes ends the name, and every other character is kept
    split_ifs at h
    · exact List.mem_cons_of_mem c (ih h)
    · exact List.mem_cons_of_mem c (by simpa using h)
    · rw [List.mem_cons, or_assoc] at h
      exact List.mem_cons.mpr (h.imp_right ih)

theorem mem_join {d : Char} {args : List (List Char)} (h : d ∈ join args) :
    d = ' ' ∨ ∃ a ∈ args, d ∈ a := by
  induction args with
  | nil => simp [join] at h
  | cons a as ih =>
    cases as with
    | nil => exact .inr ⟨a, List.mem_cons_self, by simpa [join] using h⟩
    | cons b as =>
      rw [join_cons_cons, List.mem_append, List.mem_cons] at h
      -- it is in the first argument, is the blank, or is in the others
      rcases h with ha | rfl | hrest
      · exact .inr ⟨a, List.mem_cons_self, ha⟩
      · exact .inl rfl
      · obtain hblank | ⟨x, hx, hd⟩ := ih hrest
        · exact .inl hblank
        · exact .inr ⟨x, List.mem_cons_of_mem a hx, hd⟩

/-- A character comes back only if it was in an argument. -/
theorem mem_of_mem_split_join {d : Char} (hblank : d ≠ ' ') (hslash : d ≠ '\\') (hmark : d ≠ '"')
    {args : List (List Char)} {a : List Char} (ha : a ∈ split (join args)) (h : d ∈ a) :
    ∃ b ∈ args, d ∈ b := by
  have hjoin : d ∈ join args := by
    rcases List.mem_cons.mp ha with rfl | hrest
    · exact mem_of_mem_program (.inl h)
    · have hflat : d ∈ (read .between (program false (join args)).2).flatten :=
        List.mem_flatten.mpr ⟨a, hrest, h⟩
      exact mem_of_mem_program (.inr (mem_of_mem_read hslash hmark hflat))
  exact (mem_join hjoin).resolve_left hblank

end CommandLine
