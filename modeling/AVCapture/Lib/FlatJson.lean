import Mathlib.Data.List.Basic
import Mathlib.Data.Option.Basic

/-!
# Flat JSON Objects

Text for objects whose members are booleans and strings: a serializer without white space,
and a parser that undoes it.

## Contents

- `escapeChar`, `parseChars`: what is between the quotes of a string
- `text`, `parse`: objects
- `parse_text`: **parsing undoes serialization**
-/

namespace FlatJson

/-- What a member can be set to. -/
inductive Value where
  | bool (b : Bool)
  | string (s : String)
  deriving DecidableEq, Repr

/-- An object: its members in order. -/
abbrev Object := List (String × Value)

def quote : Char := '"'
def backslash : Char := '\\'

/-! ## Characters -/

/-- Characters with an escape of two characters, and the second one. -/
def shortEscapes : List (Char × Char) :=
  [(quote, quote), (backslash, backslash), (Char.ofNat 8, 'b'), (Char.ofNat 12, 'f'),
    (Char.ofNat 10, 'n'), (Char.ofNat 13, 'r'), (Char.ofNat 9, 't')]

/-- The character that a short escape stands for. -/
def unescape (e : Char) : Option Char :=
  (shortEscapes.find? fun p => p.2 == e).map Prod.fst

def hexDigits : List Char :=
  ['0', '1', '2', '3', '4', '5', '6', '7', '8', '9', 'a', 'b', 'c', 'd', 'e', 'f']

def hexDigit (d : ℕ) : Char := hexDigits.getD d '0'

/-- Digits of either case. -/
def hexValue (c : Char) : Option ℕ := hexDigits.idxOf? c.toLower

/-- A character between the quotes: by a short escape, in hexadecimal if it is another control
    character, and as itself otherwise. -/
def escapeChar (c : Char) : List Char :=
  match shortEscapes.lookup c with
  | some e => [backslash, e]
  | none =>
    if c.toNat < 32 then
      [backslash, 'u', '0', '0', hexDigit (c.toNat / 16), hexDigit (c.toNat % 16)]
    else [c]

/-- Where the parser is in a string: `hex n v` expects `n + 1` more hexadecimal digits after
    those that make `v`. -/
inductive StringState where
  | plain
  | escaped
  | hex (n v : ℕ)

/-- The characters up to the closing quote, and what follows it. Surrogates are refused. -/
def parseChars : StringState → List Char → Option (List Char × List Char)
  | _, [] => none
  | .plain, c :: rest =>
    if c = quote then some ([], rest)
    else if c = backslash then parseChars .escaped rest
    else (parseChars .plain rest).map fun p => (c :: p.1, p.2)
  | .escaped, c :: rest =>
    if c = 'u' then parseChars (.hex 3 0) rest
    else
      match unescape c with
      | none => none
      | some d => (parseChars .plain rest).map fun p => (d :: p.1, p.2)
  | .hex n v, c :: rest =>
    match hexValue c with
    | none => none
    | some d =>
      match n with
      | n + 1 => parseChars (.hex n (16 * v + d)) rest
      | 0 =>
        if (16 * v + d).isValidChar then
          (parseChars .plain rest).map fun p => (Char.ofNat (16 * v + d) :: p.1, p.2)
        else none

theorem hexValue_hexDigit : ∀ d < 16, hexValue (hexDigit d) = some d := by decide

/-- No short escape begins like another one, or like a hexadecimal one. -/
theorem shortEscapes_spec : ∀ p ∈ shortEscapes, unescape p.2 = some p.1 ∧ p.2 ≠ 'u' := by decide

theorem lookup_ne_none :
    shortEscapes.lookup quote ≠ none ∧ shortEscapes.lookup backslash ≠ none := by decide

/-- **One character** is read back, whatever follows it. -/
theorem parseChars_escapeChar (c : Char) (rest : List Char) :
    parseChars .plain (escapeChar c ++ rest) =
      (parseChars .plain rest).map fun p => (c :: p.1, p.2) := by
  have hbackslash : backslash ≠ quote := by decide
  unfold escapeChar
  cases hlookup : shortEscapes.lookup c with
  | some e =>
    -- the escape is read back from the same table
    have hmem : (c, e) ∈ shortEscapes := by
      obtain ⟨l, l', heq, -⟩ := List.lookup_eq_some_iff.mp hlookup
      rw [heq]
      exact List.mem_append_right _ List.mem_cons_self
    obtain ⟨hunescape, hne⟩ := shortEscapes_spec (c, e) hmem
    simp [parseChars, hbackslash, hunescape, hne]
  | none =>
    by_cases hcontrol : c.toNat < 32
    · -- a control character, in hexadecimal
      have hhigh := hexValue_hexDigit (c.toNat / 16) (by omega)
      have hlow := hexValue_hexDigit (c.toNat % 16) (by omega)
      have hzero : hexValue '0' = some 0 := by decide
      have hcode : 16 * (c.toNat / 16) + c.toNat % 16 = c.toNat := Nat.div_add_mod _ _
      have hvalid : c.toNat.isValidChar := c.valid
      simp [hcontrol, parseChars, hbackslash, hhigh, hlow, hzero, hcode, hvalid]
    · have hquote : c ≠ quote := fun heq => lookup_ne_none.1 (heq ▸ hlookup)
      have hplain : c ≠ backslash := fun heq => lookup_ne_none.2 (heq ▸ hlookup)
      -- every other character stands for itself
      simp [hcontrol, parseChars, hquote, hplain]

theorem parseChars_flatMap (cs rest : List Char) :
    parseChars .plain (cs.flatMap escapeChar ++ quote :: rest) = some (cs, rest) := by
  induction cs with
  | nil => simp [parseChars]
  | cons c cs ih =>
    -- the first character, and then the rest up to the quote
    rw [List.flatMap_cons, List.append_assoc, parseChars_escapeChar, ih]
    rfl

/-! ## Objects -/

/-- A string in its quotes. -/
def stringText (s : String) : List Char := quote :: s.toList.flatMap escapeChar ++ [quote]

def valueText : Value → List Char
  | .bool true => ['t', 'r', 'u', 'e']
  | .bool false => ['f', 'a', 'l', 's', 'e']
  | .string s => stringText s

/-- A member, without a blank behind the colon. -/
def memberText (m : String × Value) : List Char := stringText m.1 ++ ':' :: valueText m.2

/-- What follows the first member. -/
def tailText : Object → List Char
  | [] => ['}']
  | m :: ms => ',' :: memberText m ++ tailText ms

def text : Object → List Char
  | [] => ['{', '}']
  | m :: ms => '{' :: memberText m ++ tailText ms

/-- One character that has to come next. -/
def expect (c : Char) : List Char → Option (List Char)
  | [] => none
  | d :: rest => if d = c then some rest else none

/-- A string, from its first quote on. -/
def parseString (cs : List Char) : Option (String × List Char) := do
  let rest ← expect quote cs
  let (chars, rest) ← parseChars .plain rest
  return (String.ofList chars, rest)

/-- A value; what is no boolean has to be a string. -/
def parseValue : List Char → Option (Value × List Char)
  | 't' :: 'r' :: 'u' :: 'e' :: rest => some (.bool true, rest)
  | 'f' :: 'a' :: 'l' :: 's' :: 'e' :: rest => some (.bool false, rest)
  | cs => (parseString cs).map fun p => (.string p.1, p.2)

/-- A key, a colon and a value. -/
def parseMember (cs : List Char) : Option ((String × Value) × List Char) := do
  let (key, rest) ← parseString cs
  let rest ← expect ':' rest
  let (value, rest) ← parseValue rest
  return ((key, value), rest)

/-- The members after the first one, at most `fuel` of them. -/
def parseTail : ℕ → List Char → Option (Object × List Char)
  | _, '}' :: rest => some ([], rest)
  | fuel + 1, ',' :: rest => do
    let (m, rest) ← parseMember rest
    let (ms, rest) ← parseTail fuel rest
    return (m :: ms, rest)
  | _, _ => none

/-- The object that a whole text is. -/
def parse : List Char → Option Object
  | ['{', '}'] => some []
  | '{' :: rest => do
    let (m, rest') ← parseMember rest
    let (ms, rest'') ← parseTail rest.length rest'
    if rest''.isEmpty then some (m :: ms) else none
  | _ => none

theorem parseString_stringText (s : String) (rest : List Char) :
    parseString (stringText s ++ rest) = some (s, rest) := by
  have hchars : parseChars .plain (s.toList.flatMap escapeChar ++ quote :: rest) =
      some (s.toList, rest) := parseChars_flatMap s.toList rest
  simp [parseString, stringText, expect, hchars]

theorem parseValue_valueText (v : Value) (rest : List Char) :
    parseValue (valueText v ++ rest) = some (v, rest) := by
  cases v with
  | bool b => cases b <;> rfl
  | string s =>
    -- the text begins with a quote, which neither boolean does
    have hstring := parseString_stringText s rest
    have hvalue : parseValue (stringText s ++ rest) =
        (parseString (stringText s ++ rest)).map fun p => (.string p.1, p.2) := rfl
    rw [valueText, hvalue, hstring]
    rfl

theorem parseMember_memberText (m : String × Value) (rest : List Char) :
    parseMember (memberText m ++ rest) = some (m, rest) := by
  unfold parseMember memberText
  rw [List.append_assoc, parseString_stringText]
  simp [expect, parseValue_valueText]

theorem parseTail_tailText (ms : Object) {fuel : ℕ} (hfuel : ms.length ≤ fuel)
    (rest : List Char) : parseTail fuel (tailText ms ++ rest) = some (ms, rest) := by
  induction ms generalizing fuel with
  | nil => simp [tailText, parseTail] -- the closing brace
  | cons m ms ih =>
    cases fuel with
    | zero => exact absurd hfuel (Nat.not_succ_le_zero _)
    | succ fuel =>
      -- a comma, the member, and the rest with one unit of fuel less
      have hmember := parseMember_memberText m (tailText ms ++ rest)
      have htail := ih (Nat.le_of_succ_le_succ hfuel)
      simp [tailText, parseTail, hmember, htail]

/-- There is fuel enough in a text for its members. -/
theorem length_le_length_tailText (ms : Object) : ms.length ≤ (tailText ms).length := by
  induction ms with
  | nil => simp
  | cons m ms ih =>
    simp only [tailText, List.cons_append, List.length_append, List.length_cons]
    omega

/-- **Parsing undoes serialization.** -/
theorem parse_text (obj : Object) : parse (text obj) = some obj := by
  cases obj with
  | nil => rfl
  | cons m ms =>
    have hmember := parseMember_memberText m (tailText ms)
    -- each member takes at least one character
    have hfuel : ms.length ≤ (memberText m ++ tailText ms).length := by
      rw [List.length_append]
      exact Nat.le_add_left_of_le (length_le_length_tailText ms)
    have htail := parseTail_tailText ms hfuel []
    rw [List.append_nil] at htail
    have hparse : parse (text (m :: ms)) = (do
        let (first, rest) ← parseMember (memberText m ++ tailText ms)
        let (others, rest) ← parseTail (memberText m ++ tailText ms).length rest
        if rest.isEmpty then some (first :: others) else none) := rfl
    rw [hparse, hmember]
    simp only [Option.bind_eq_bind, Option.bind_some, htail]
    rfl

end FlatJson
