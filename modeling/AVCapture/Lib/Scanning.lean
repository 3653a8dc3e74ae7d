import Mathlib.Data.List.DropRight
import Mathlib.Data.List.Infix
import Mathlib.Data.Nat.Notation

/-!
# Scanning Texts

The first and the last occurrence of a pattern in a text, and a text without the blanks at
its ends. A text is often put together from parts with a separator between them; a pattern
that does not contain the separator occurs in one of the parts, or nowhere.

## Contents

- `find`, `rfind`: the first and the last occurrence
- `infix_append_cons_iff`, `find_append_cons_of_present`, `find_append_cons_of_absent`:
  patterns and separators
- `strip`, `strip_append_cons`: blanks at the ends
-/

namespace Scanning

variable {α : Type*}

/-! ## Separators -/

/-- A text up to the last place of a character, and the rest. -/
theorem exists_last_of_mem {s : List α} {c : α} (h : c ∈ s) :
    ∃ front back, s = front ++ c :: back ∧ c ∉ back := by
  obtain ⟨back, front, heq, hback⟩ := List.eq_append_cons_of_mem (List.mem_reverse.mpr h)
  refine ⟨front.reverse, back.reverse, ?_, mt List.mem_reverse.mp hback⟩
  rw [← List.reverse_reverse s, heq, List.reverse_append, List.reverse_cons, List.append_assoc,
    List.singleton_append]

section Separators

variable {pat : List α} {sep : α}

/-- A pattern at the beginning ends before the separator. -/
theorem prefix_append_cons_iff (hsep : sep ∉ pat) (s t : List α) :
    pat <+: s ++ sep :: t ↔ pat <+: s := by
  induction pat generalizing s with
  | nil => exact ⟨fun _ => List.nil_prefix, fun _ => List.nil_prefix⟩
  | cons a pat ih =>
    rw [List.mem_cons, not_or] at hsep
    obtain ⟨ha, hpat⟩ := hsep
    cases s with
    | nil =>
      refine ⟨fun h => ?_, fun h => ?_⟩
      · exact absurd (List.cons_prefix_cons.mp h).1.symm ha
      · cases List.prefix_nil.mp h
    | cons b s => rw [List.cons_append, List.cons_prefix_cons, List.cons_prefix_cons, ih hpat]

/-- **Patterns between separators**: a pattern occurs on the one side or on the other. -/
theorem infix_append_cons_iff (hsep : sep ∉ pat) (hne : pat ≠ []) (s t : List α) :
    pat <:+: s ++ sep :: t ↔ pat <:+: s ∨ pat <:+: t := by
  induction s with
  | nil =>
    have hnil : ¬ pat <+: sep :: t := fun h =>
      hne (List.prefix_nil.mp ((prefix_append_cons_iff hsep [] t).mp h))
    rw [List.nil_append, List.infix_cons_iff, List.infix_nil]
    exact ⟨fun h => Or.inr (h.resolve_left hnil), fun h => Or.inr (h.resolve_left hne)⟩
  | cons b s ih =>
    rw [List.cons_append, List.infix_cons_iff, List.infix_cons_iff, ih, ← List.cons_append,
      prefix_append_cons_iff hsep, or_assoc]

end Separators

/-! ## Occurrences -/

section Occurrences

variable [DecidableEq α]

/-- Where the pattern first occurs. -/
def find (pat : List α) : List α → Option ℕ
  | [] => if pat = [] then some 0 else none
  | c :: s => if pat <+: c :: s then some 0 else (find pat s).map (· + 1)

/-- Where the pattern last occurs. -/
def rfind (pat : List α) : List α → Option ℕ
  | [] => if pat = [] then some 0 else none
  | c :: s =>
    match rfind pat s with
    | some i => some (i + 1)
    | none => if pat <+: c :: s then some 0 else none

variable {pat s t : List α} {c : α}

theorem find_cons_hit (h : pat <+: c :: s) : find pat (c :: s) = some 0 := if_pos h

theorem find_cons_miss (h : ¬ pat <+: c :: s) :
    find pat (c :: s) = (find pat s).map (· + 1) := if_neg h

theorem find_eq_none_iff : find pat s = none ↔ ¬ pat <:+: s := by
  induction s with
  -- the pattern is at the first position, or is looked for behind it
  | nil =>
    rw [find, List.infix_nil]
    by_cases h : pat = [] <;> simp [h]
  | cons c s ih =>
    rw [List.infix_cons_iff, not_or]
    by_cases h : pat <+: c :: s
    · simp [find_cons_hit h, h]
    · simp [find_cons_miss h, h, ih]

theorem exists_find (h : pat <:+: s) : ∃ i, find pat s = some i := by
  cases hfind : find pat s with
  | none => exact absurd h (find_eq_none_iff.mp hfind)
  | some i => exact ⟨i, rfl⟩

/-- The pattern occurs where it is found. -/
theorem prefix_of_find {i : ℕ} (h : find pat s = some i) : pat <+: s.drop i := by
  induction s generalizing i with
  | nil =>
    -- in an empty text only the empty pattern is found
    rw [find] at h
    by_cases hpat : pat = []
    · exact hpat ▸ List.nil_prefix
    · rw [if_neg hpat] at h
      cases h
  | cons c s ih =>
    -- found here, or one further on
    by_cases hpre : pat <+: c :: s
    · rw [find_cons_hit hpre] at h
      rw [← Option.some.inj h]
      exact hpre
    · rw [find_cons_miss hpre, Option.map_eq_some_iff] at h
      obtain ⟨k, hk, rfl⟩ := h
      exact ih hk

theorem rfind_eq_none_iff : rfind pat s = none ↔ ¬ pat <:+: s := by
  induction s with
  | nil =>
    rw [rfind, List.infix_nil]
    by_cases h : pat = [] <;> simp [h]
  | cons c s ih =>
    rw [List.infix_cons_iff, not_or, rfind]
    -- an occurrence further on is later, so that it is the one that counts
    cases hs : rfind pat s with
    | none =>
      rw [hs] at ih
      by_cases h : pat <+: c :: s <;> simp [h, ih.mp rfl]
    | some i =>
      rw [hs] at ih
      have hocc : pat <:+: s := by
        by_contra hnot
        cases ih.mpr hnot
      simp [hocc]

/-- What stands before and after the first occurrence. -/
theorem exists_of_find {i : ℕ} (hne : pat ≠ []) (h : find pat s = some i) :
    ∃ front back, s = front ++ (pat ++ back) ∧ front.length = i := by
  obtain ⟨back, hback⟩ := prefix_of_find h
  refine ⟨s.take i, back, ?_, ?_⟩
  · rw [hback, List.take_append_drop]
  · have hlen := congrArg List.length hback
    have hpos : 0 < pat.length := List.length_pos_of_ne_nil hne
    rw [List.length_append, List.length_drop] at hlen
    rw [List.length_take]
    omega

theorem find_singleton_append (h : c ∉ s) (t : List α) :
    find [c] (s ++ c :: t) = some s.length := by
  induction s with
  | nil => exact find_cons_hit ⟨t, rfl⟩
  | cons b s ih =>
    rw [List.mem_cons, not_or] at h
    -- the character in front is another one
    obtain ⟨hb, hs⟩ := h
    have hpre : ¬ [c] <+: b :: (s ++ c :: t) := fun hp => hb (List.cons_prefix_cons.mp hp).1
    rw [List.cons_append, find_cons_miss hpre, ih hs]
    rfl

theorem rfind_singleton_eq_none (h : c ∉ s) : rfind [c] s = none := by
  rw [rfind_eq_none_iff]
  intro hocc
  exact h (hocc.subset List.mem_cons_self)

theorem rfind_singleton_append (h : c ∉ t) (s : List α) :
    rfind [c] (s ++ c :: t) = some s.length := by
  induction s with
  | nil =>
    have hpre : [c] <+: c :: t := ⟨t, rfl⟩
    rw [List.nil_append, rfind, rfind_singleton_eq_none h]
    exact if_pos hpre
  | cons b s ih =>
    rw [List.cons_append, rfind, ih]
    rfl

/-! ### Finding around separators -/

variable {sep : α}

/-- A pattern that occurs before the separator is found there. -/
theorem find_append_cons_of_present (hsep : sep ∉ pat) (h : pat <:+: s) (t : List α) :
    find pat (s ++ sep :: t) = find pat s := by
  induction s with
  | nil =>
    rw [List.infix_nil.mp h]
    rfl
  | cons b s ih =>
    -- found here, and the separator behind does not matter
    by_cases hpre : pat <+: b :: s
    · rw [find_cons_hit hpre]
      exact find_cons_hit ((prefix_append_cons_iff hsep (b :: s) t).mpr hpre)
    · have hnot : ¬ pat <+: b :: (s ++ sep :: t) :=
        mt (prefix_append_cons_iff hsep (b :: s) t).mp hpre
      have hs : pat <:+: s := (List.infix_cons_iff.mp h).resolve_left hpre
      rw [List.cons_append, find_cons_miss hpre, find_cons_miss hnot, ih hs]

/-- A pattern that does not occur before the separator is found behind it. -/
theorem find_append_cons_of_absent (hsep : sep ∉ pat) (h : ¬ pat <:+: s) (t : List α) :
    find pat (s ++ sep :: t) = (find pat t).map (· + (s.length + 1)) := by
  induction s with
  | nil =>
    -- at the separator there is no occurrence, since it is not in the pattern
    have hnil : ¬ pat <+: sep :: t := fun hp =>
      h (List.infix_nil.mpr (List.prefix_nil.mp ((prefix_append_cons_iff hsep [] t).mp hp)))
    exact find_cons_miss hnil
  | cons b s ih =>
    -- nor at a position before it
    obtain ⟨hpre, hs⟩ := not_or.mp (mt List.infix_cons_iff.mpr h)
    have hnot : ¬ pat <+: b :: (s ++ sep :: t) :=
      mt (prefix_append_cons_iff hsep (b :: s) t).mp hpre
    rw [List.cons_append, find_cons_miss hnot, ih hs, Option.map_map]
    rfl

end Occurrences

/-! ## Blanks at the ends -/

section Blanks

variable {p : α → Bool} {s t : List α} {c : α}

/-- What is left without the blanks at both ends. -/
def strip (p : α → Bool) (s : List α) : List α := (s.dropWhile p).rdropWhile p

theorem strip_isInfix (p : α → Bool) (s : List α) : strip p s <:+: s :=
  List.IsInfix.trans ( List.rdropWhile_prefix p (s.dropWhile p)).isInfix
    (List.dropWhile_suffix p).isInfix

theorem strip_append_of_all (h : ∀ a ∈ s, p a = true) (t : List α) :
    strip p (s ++ t) = strip p t := by
  rw [strip, strip, List.dropWhile_append_of_pos h]

theorem dropWhile_append_of_exists (h : ∃ a ∈ s, p a = false) (t : List α) :
    (s ++ t).dropWhile p = s.dropWhile p ++ t := by
  obtain ⟨a, ha, hp⟩ := h
  -- something is left of the first part
  have hne : (s.dropWhile p).isEmpty = false := by
    rw [List.isEmpty_eq_false_iff, Ne, List.dropWhile_eq_nil_iff]
    intro hall
    rw [hall a ha] at hp
    cases hp
  rw [List.dropWhile_append, hne]
  rfl

theorem rdropWhile_append_of_exists (h : ∃ a ∈ t, p a = false) (s : List α) :
    (s ++ t).rdropWhile p = s ++ t.rdropWhile p := by
  obtain ⟨a, ha, hp⟩ := h
  have hrev : ∃ a ∈ t.reverse, p a = false := ⟨a, List.mem_reverse.mpr ha, hp⟩
  rw [List.rdropWhile, List.reverse_append, dropWhile_append_of_exists hrev, List.reverse_append,
    List.reverse_reverse]
  rfl

/-- **Blanks inside** stay. -/
theorem strip_append_cons (hs : ∃ a ∈ s, p a = false) (ht : ∃ a ∈ t, p a = false) (c : α) :
    strip p (s ++ c :: t) = s.dropWhile p ++ c :: t.rdropWhile p := by
  rw [strip, dropWhile_append_of_exists hs, List.append_cons,
    rdropWhile_append_of_exists ht, ← List.append_cons]

theorem exists_or_all (p : α → Bool) (s : List α) :
    (∃ a ∈ s, p a = false) ∨ ∀ a ∈ s, p a = true := by
  by_cases h : ∃ a ∈ s, p a = false
  · exact Or.inl h
  · refine Or.inr fun a ha => ?_
    by_contra hnot
    exact h ⟨a, ha, Bool.eq_false_iff.mpr hnot⟩

theorem dropWhile_append_cons_of_neg (hc : p c = false) (s t : List α) :
    (s ++ c :: t).dropWhile p = s.dropWhile p ++ c :: t := by
  -- the blanks in front end before the character or at it
  rcases exists_or_all p s with hs | hs
  · exact dropWhile_append_of_exists hs (c :: t)
  · have hne : ¬ p c = true := by rw [hc]; exact Bool.false_ne_true
    rw [List.dropWhile_append_of_pos hs, List.dropWhile_cons_of_neg hne,
      List.dropWhile_eq_nil_iff.mpr hs, List.nil_append]

theorem rdropWhile_append_cons_of_neg (hc : p c = false) (s t : List α) :
    (s ++ c :: t).rdropWhile p = s ++ c :: t.rdropWhile p := by
  rw [List.rdropWhile, List.reverse_append, List.reverse_cons, List.append_assoc,
    List.singleton_append, dropWhile_append_cons_of_neg hc, List.reverse_append,
    List.reverse_cons, List.reverse_reverse, List.append_assoc, List.singleton_append]
  rfl

/-- What is no blank keeps the blanks around it inside. -/
theorem strip_append_cons_of_neg (hc : p c = false) (s t : List α) :
    strip p (s ++ c :: t) = s.dropWhile p ++ c :: t.rdropWhile p := by
  rw [strip, dropWhile_append_cons_of_neg hc, rdropWhile_append_cons_of_neg hc]

/-- The two ends do not get in each other's way. -/
theorem dropWhile_rdropWhile (p : α → Bool) (s : List α) :
    (s.rdropWhile p).dropWhile p = (s.dropWhile p).rdropWhile p := by
  induction s with
  | nil => rfl
  | cons c s ih =>
    -- a character that is no blank keeps its place, and the blanks behind it go
    cases hc : p c with
    | false =>
      have hne : ¬ p c = true := by rw [hc]; exact Bool.false_ne_true
      have hback := rdropWhile_append_cons_of_neg hc [] s
      rw [List.nil_append, List.nil_append] at hback
      rw [hback, List.dropWhile_cons_of_neg hne, List.dropWhile_cons_of_neg hne, hback]
    | true =>
      -- a blank goes, unless nothing but blanks is behind it as well
      rw [List.dropWhile_cons_of_pos hc, ← ih]
      rcases exists_or_all p s with hs | hs
      · have hback := rdropWhile_append_of_exists hs [c]
        rw [List.singleton_append] at hback
        rw [hback, List.singleton_append, List.dropWhile_cons_of_pos hc]
      · have hall : ∀ a ∈ c :: s, p a = true := List.forall_mem_cons.mpr ⟨hc, hs⟩
        rw [List.rdropWhile_eq_nil_iff.mpr hall, List.rdropWhile_eq_nil_iff.mpr hs]

theorem strip_rdropWhile (p : α → Bool) (s : List α) : strip p (s.rdropWhile p) = strip p s := by
  rw [strip, dropWhile_rdropWhile, List.rdropWhile_idempotent]
  rfl

theorem strip_dropWhile (p : α → Bool) (s : List α) : strip p (s.dropWhile p) = strip p s := by
  rw [strip, List.dropWhile_idempotent]
  rfl

/-- A text has no blanks at its ends exactly if nothing is stripped. -/
theorem strip_eq_self_iff (p : α → Bool) (s : List α) :
    strip p s = s ↔ (∀ a ∈ s.head?, p a = false) ∧ ∀ a ∈ s.getLast?, p a = false := by
  -- nothing goes in front exactly if the first character is no blank
  have hfront : s.dropWhile p = s ↔ ∀ a ∈ s.head?, p a = false := by
    cases s with
    | nil => simp
    | cons c s =>
      cases hc : p c with
      | false => simp [hc]
      | true =>
        have hlt := (List.dropWhile_suffix p (l := s)).length_le
        refine ⟨fun h => ?_, fun h => ?_⟩
        · rw [List.dropWhile_cons_of_pos hc] at h
          rw [h, List.length_cons] at hlt
          omega
        · simp [hc] at h
  -- and the same at the end
  have hback : s.rdropWhile p = s ↔ ∀ a ∈ s.getLast?, p a = false := by
    rcases List.eq_nil_or_concat s with rfl | ⟨front, b, rfl⟩
    · simp
    · rw [List.concat_eq_append, List.rdropWhile_eq_self_iff, List.getLast?_concat]
      simp
  rw [← hfront, ← hback]
  refine ⟨fun h => ?_, fun h => ?_⟩
  · -- each end can only become shorter
    have hdrop : s.dropWhile p = s := by
      refine (List.dropWhile_suffix p).eq_of_length_le ?_
      calc s.length = (strip p s).length := by rw [h]
        _ ≤ (s.dropWhile p).length :=
          List.IsPrefix.length_le ( List.rdropWhile_prefix p (s.dropWhile p))
    refine ⟨hdrop, ?_⟩
    rwa [strip, hdrop] at h
  · rw [strip, h.1, h.2]

/-- A pattern without blanks is not stripped. -/
theorem infix_dropWhile {pat : List α} (hne : pat ≠ []) (hpat : ∀ a ∈ pat, p a = false)
    (h : pat <:+: s) : pat <:+: s.dropWhile p := by
  induction s with
  | nil => exact h
  | cons c s ih =>
    -- the first blank cannot be where the pattern begins
    cases hc : p c with
    | false =>
      have hne : ¬ p c = true := by rw [hc]; exact Bool.false_ne_true
      rwa [List.dropWhile_cons_of_neg hne]
    | true =>
      rw [List.dropWhile_cons_of_pos hc]
      refine ih ((List.infix_cons_iff.mp h).resolve_left fun hpre => ?_)
      cases pat with
      | nil => exact hne rfl
      | cons a pat =>
        have ha := hpat a List.mem_cons_self
        rw [(List.cons_prefix_cons.mp hpre).1, hc] at ha
        cases ha

theorem infix_rdropWhile {pat : List α} (hne : pat ≠ []) (hpat : ∀ a ∈ pat, p a = false)
    (h : pat <:+: s) : pat <:+: s.rdropWhile p := by
  -- from the other end, by reversal
  rw [← List.reverse_infix, List.rdropWhile, List.reverse_reverse]
  refine infix_dropWhile (mt List.reverse_eq_nil_iff.mp hne) (fun a ha => ?_)
    (List.reverse_infix.mpr h)
  exact hpat a (List.mem_reverse.mp ha)

theorem infix_strip {pat : List α} (hne : pat ≠ []) (hpat : ∀ a ∈ pat, p a = false)
    (h : pat <:+: s) : pat <:+: strip p s :=
  infix_rdropWhile hne hpat (infix_dropWhile hne hpat h)

end Blanks

end Scanning
