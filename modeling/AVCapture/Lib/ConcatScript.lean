import Mathlib.Data.List.Basic

/-!
# Concat Scripts

The list that `ffmpeg -f concat` reads: lines of the word `file` and a token. Inside single
quotes every character of a token is literal up to the next single quote; outside of them a
backslash escapes the next character, and white space ends the token.

## Contents

- `token`, `fileArg`, `read`: reading a script
- `line`, `script`: a writer that puts every token into single quotes and escapes nothing
- `read_script_eq_iff`: such a script can be read back exactly if there is no quote in it
-/

namespace ConcatScript

inductive Mode where
  | plain
  | quoted
  | escaped

def isSpace (c : Char) : Bool := c = ' ' || c = '\t' || c = '\r' || c = '\n'

/-- The token at the beginning of a text. -/
def token : Mode → List Char → List Char
  | _, [] => []
  | .plain, c :: cs =>
    if c = '\'' then token .quoted cs
    else if c = '\\' then token .escaped cs
    else if isSpace c then []
    else c :: token .plain cs
  | .quoted, c :: cs => if c = '\'' then token .plain cs else c :: token .quoted cs
  | .escaped, c :: cs => c :: token .plain cs

/-- What a line says: the word `file`, white space, and a token. -/
def fileArg : List Char → Option (List Char)
  | 'f' :: 'i' :: 'l' :: 'e' :: c :: cs =>
    if isSpace c then some (token .plain (cs.dropWhile isSpace)) else none
  | _ => none

/-- The tokens of a script, in order. -/
def read (text : List Char) : List (List Char) := (text.splitOn '\n').filterMap fileArg

/-! ## Writing -/

def line (p : List Char) : List Char := "file '".toList ++ p ++ "'\n".toList

def script (ps : List (List Char)) : List Char := ps.flatMap line

/-- Inside quotes everything is literal up to the next one. -/
theorem token_quoted_append {p : List Char} (h : '\'' ∉ p) (rest : List Char) :
    token .quoted (p ++ '\'' :: rest) = p ++ token .plain rest := by
  induction p with
  | nil => simp [token]
  | cons c p ih =>
    rw [List.mem_cons, not_or] at h
    obtain ⟨hne, hrest⟩ := h
    simp [token, Ne.symm hne, ih hrest]

/-- A text that ends in a quote is longer than its token: the quote has a meaning of its own,
    or one before it has. -/
theorem length_token_concat_quote (mode : Mode) (p : List Char) :
    (token mode (p ++ ['\''])).length ≤
      p.length + (match mode with | .escaped => 1 | _ => 0) := by
  induction p generalizing mode with
  | nil => cases mode <;> simp [token]
  | cons c p ih =>
    have hplain := ih .plain
    have hquoted := ih .quoted
    have hescaped := ih .escaped
    cases mode with
    | plain =>
      simp only [List.cons_append, token]
      split
      · simpa using Nat.le_succ_of_le hquoted
      · split
        · simpa using hescaped
        · split
          · simp
          · simpa using hplain
    | quoted =>
      simp only [List.cons_append, token]
      split
      · simpa using Nat.le_succ_of_le hplain
      · simpa using hquoted
    | escaped => simpa [token] using Nat.le_succ_of_le hplain

/-- **One token** comes back from between the quotes exactly if there is no quote in it. -/
theorem token_quotes_eq_iff (p : List Char) :
    token .plain ('\'' :: (p ++ ['\''])) = p ↔ '\'' ∉ p := by
  have hopen : token .plain ('\'' :: (p ++ ['\''])) = token .quoted (p ++ ['\'']) := rfl
  rw [hopen]
  refine ⟨fun heq hmem => ?_, fun h => ?_⟩
  · -- the first quote ends the quoted part, and the rest of the text yields too little
    obtain ⟨a, b, rfl, ha⟩ := List.eq_append_cons_of_mem hmem
    rw [List.append_assoc, List.cons_append, token_quoted_append ha] at heq
    have hlen := congrArg List.length heq
    have hrest := length_token_concat_quote .plain b
    simp only [List.length_append, List.length_cons] at hlen hrest
    omega
  · rw [token_quoted_append h]
    simp [token]

theorem fileArg_line (p : List Char) :
    fileArg ("file '".toList ++ p ++ ['\'']) = some (token .plain ('\'' :: (p ++ ['\'']))) := by
  have htext : "file '".toList ++ p ++ ['\''] =
      'f' :: 'i' :: 'l' :: 'e' :: ' ' :: '\'' :: (p ++ ['\'']) := rfl
  rw [htext]
  rfl

theorem read_line_append {p : List Char} (h : '\n' ∉ p) (text : List Char) :
    read (line p ++ text) = token .plain ('\'' :: (p ++ ['\''])) :: read text := by
  have hline : line p ++ text = ("file '".toList ++ p ++ ['\'']) ++ '\n' :: text := by
    show "file '".toList ++ p ++ "'\n".toList ++ text = _
    simp
  have hnone : '\n' ∉ "file '".toList ++ p ++ ['\''] := by
    simp [h]
  unfold read
  rw [hline, List.splitOn_append_cons_self_of_not_mem hnone,
    List.filterMap_cons_some (fileArg_line p)]

/-- **A script** is read back exactly if there is no quote in its tokens. -/
theorem read_script_eq_iff {ps : List (List Char)} (h : ∀ p ∈ ps, '\n' ∉ p) :
    read (script ps) = ps ↔ ∀ p ∈ ps, '\'' ∉ p := by
  induction ps with
  | nil =>
    have hempty : fileArg [] = none := rfl
    simp [read, script, hempty]
  | cons p ps ih =>
    obtain ⟨hp, hps⟩ := List.forall_mem_cons.mp h
    have hscript : script (p :: ps) = line p ++ script ps := rfl
    rw [hscript, read_line_append hp, List.cons.injEq, token_quotes_eq_iff, ih hps,
      List.forall_mem_cons]

end ConcatScript
