import AVCapture.Lib.Scanning
import Mathlib.Data.String.Basic

/-!
# Function Names in Error Texts

Model of `Error::trim` and `Error::pretty_function` (`utils/error.hpp`), which make the name
of a function out of what the compiler gives as its signature. Every context text of an
error begins with such a name.

Without a calling convention in it, the signature is cut in front of its first `::`, at the
last space before it. This is the name if there is no `::` in the return type.

## Main results

- `prettyName_of_plain`: return types without `::`
- `prettyName_of_scoped`: return types with `::`
- `prettyFunction_eq_iff`: when the result is the name
-/

namespace AVCapture.Utils

open Scanning

/-! ## The function -/

def isSpace (c : Char) : Bool := c == ' ' || c == '\t' || c == '\n' || c == '\r'

/-- `trim`: the two loops. -/
def trim (str : List Char) : List Char := strip isSpace str

def kCvs : List (List Char) :=
  ["__cdecl".toList, "__thiscall".toList, "__stdcall".toList, "__vectorcall".toList,
    "__fastcall".toList]

/-- What follows a calling convention, if it occurs. -/
def afterConvention (str ccs : List Char) : Option (List Char) :=
  (rfind ccs str).map fun pres =>
    let after := pres + ccs.length
    trim (str.drop (if str[after]? = some ' ' then after + 1 else after))

/-- The signature up to its parameters. -/
def beforeParen (fnFull : List Char) : List Char :=
  let str := trim fnFull
  match find ['('] str with
  | some paren => trim (str.take paren)
  | none => str

/-- What follows a space, if there is one. -/
def afterSpace (str : List Char) : Option Nat → List Char
  | some space => trim (str.drop (space + 1))
  | none => str

def kScope : List Char := [':', ':']

/-- The rest of the function, where there is no calling convention: the last space is looked
    for up to the first scope, or else in the whole text. -/
def afterReturnType (str : List Char) : List Char :=
  match find kScope str with
  | some firstScope => afterSpace str (rfind [' '] (str.take (firstScope + 1)))
  | none => afterSpace str (rfind [' '] str)

def prettyName (fnFull : List Char) : List Char :=
  match kCvs.findSome? (afterConvention (beforeParen fnFull)) with
  | some rest => rest
  | none => afterReturnType (beforeParen fnFull)

/-- `pretty_function` -/
def prettyFunction (fnFull : String) : String := .ofList (prettyName fnFull.toList)

/-- A part of a signature with neither a parenthesis nor a calling convention. -/
structure Plain (str : List Char) : Prop where
  noParen : '(' ∉ str
  noConvention : ∀ ccs ∈ kCvs, ¬ ccs <:+: str

/-! ## Up to the parameters -/

theorem kCvs_clean : ∀ ccs ∈ kCvs, ' ' ∉ ccs ∧ ccs ≠ [] := by decide

theorem beforeParen_append {x : List Char} (h : '(' ∉ x) (y : List Char) :
    beforeParen (x ++ '(' :: y) = trim x := by
  have hparen : isSpace '(' = false := by decide
  have hx : '(' ∉ x.dropWhile isSpace := fun hmem =>
    h ((List.dropWhile_suffix isSpace).subset hmem)
  rw [beforeParen, trim, strip_append_cons_of_neg hparen, find_singleton_append hx]
  show trim (List.take _ _) = _
  rw [List.take_left, trim, strip_dropWhile, trim]

/-- No calling convention is found in a plain return type with a plain name behind it. -/
theorem findSome_of_plain {t q : List Char} (ht : Plain t) (hq : Plain q) :
    kCvs.findSome? (afterConvention (trim (t ++ ' ' :: q))) = none := by
  rw [List.findSome?_eq_none_iff]
  intro ccs hccs
  obtain ⟨hspace, hne⟩ := kCvs_clean ccs hccs
  have hnot : ¬ ccs <:+: trim (t ++ ' ' :: q) := by
    intro hocc
    rcases (infix_append_cons_iff hspace hne t q).mp (hocc.trans (strip_isInfix isSpace _)) with
      hleft | hright
    · exact ht.noConvention ccs hccs hleft
    · exact hq.noConvention ccs hccs hright
  rw [afterConvention, rfind_eq_none_iff.mpr hnot, Option.map_none]

theorem prettyName_append {t q : List Char} (ht : Plain t) (hq : Plain q) (a : List Char) :
    prettyName ((t ++ ' ' :: q) ++ '(' :: a) = afterReturnType (trim (t ++ ' ' :: q)) := by
  have hparen : '(' ∉ t ++ ' ' :: q := by
    simp only [List.mem_append, List.mem_cons, not_or]
    exact ⟨ht.noParen, by decide, hq.noParen⟩
  rw [prettyName, beforeParen_append hparen, findSome_of_plain ht hq]

/-! ## From the first scope on -/

theorem afterReturnType_of_find {str : List Char} {firstScope : Nat}
    (h : find kScope str = some firstScope) :
    afterReturnType str = afterSpace str (rfind [' '] (str.take (firstScope + 1))) := by
  rw [afterReturnType, h]

theorem kScope_clean : ∀ c ∈ kScope, isSpace c = false := by
  intro c hc
  simp only [kScope, List.mem_cons, List.not_mem_nil, or_false, or_self] at hc
  rw [hc]
  rfl

theorem exists_of_scope {s : List Char} (h : kScope <:+: s) : ∃ c ∈ s, isSpace c = false :=
  ⟨':', h.subset List.mem_cons_self, by decide⟩

/-- A name with no return type in front of it. -/
theorem afterReturnType_of_noSpace {s : List Char} (hscope : kScope <:+: s) (hspace : ' ' ∉ s) :
    afterReturnType s = s := by
  obtain ⟨firstScope, hfind⟩ := exists_find hscope
  have htake : ' ' ∉ s.take (firstScope + 1) := fun hmem => hspace (List.mem_of_mem_take hmem)
  rw [afterReturnType_of_find hfind, rfind_singleton_eq_none htake, afterSpace]

/-- The cut is at the space in front of the name. -/
theorem afterReturnType_of_plain {t q : List Char} (ht : ¬ kScope <:+: t)
    (hscope : kScope <:+: q) (hspace : ' ' ∉ q) :
    afterReturnType (t ++ ' ' :: q) = trim q := by
  obtain ⟨k, hk⟩ := exists_find hscope
  have hfind : find kScope (t ++ ' ' :: q) = some (k + (t.length + 1)) := by
    rw [find_append_cons_of_absent (by decide) ht, hk, Option.map_some]
  have htake : (t ++ ' ' :: q).take (k + (t.length + 1) + 1) = t ++ ' ' :: q.take (k + 1) := by
    rw [List.take_append, List.take_of_length_le (by omega),
      show k + (t.length + 1) + 1 - t.length = k + 1 + 1 by omega, List.take_succ_cons]
  have hclear : ' ' ∉ q.take (k + 1) := fun hmem => hspace (List.mem_of_mem_take hmem)
  rw [afterReturnType_of_find hfind, htake, rfind_singleton_append hclear, afterSpace]
  rw [List.append_cons, List.drop_left' (by simp)]

/-- **Return types without a scope**: the result is the name, without the blanks at its
    ends. -/
theorem afterReturnType_trim_of_plain {t q : List Char} (ht : ¬ kScope <:+: t)
    (hscope : kScope <:+: q) (hspace : ' ' ∉ q) :
    afterReturnType (trim (t ++ ' ' :: q)) = trim q := by
  rcases exists_or_all isSpace t with hsome | hall
  · have ht' : ¬ kScope <:+: t.dropWhile isSpace := fun h =>
      ht (h.trans (List.dropWhile_suffix isSpace).isInfix)
    have hq : kScope <:+: q.rdropWhile isSpace :=
      infix_rdropWhile (by decide) kScope_clean hscope
    have hspace' : ' ' ∉ q.rdropWhile isSpace := fun hmem =>
      hspace (List.IsPrefix.subset ( List.rdropWhile_prefix isSpace q) hmem)
    rw [trim, strip_append_cons hsome (exists_of_scope hscope),
      afterReturnType_of_plain ht' hq hspace', trim, strip_rdropWhile, trim]
  · -- there is nothing but blanks in front of the name
    have hblank : ∀ c ∈ t ++ [' '], isSpace c = true := by
      simp only [List.mem_append, List.mem_singleton]
      intro c hc
      rcases hc with hc | rfl
      · exact hall c hc
      · decide
    have hq : kScope <:+: trim q := infix_strip (by decide) kScope_clean hscope
    have hspace' : ' ' ∉ trim q := fun hmem => hspace ((strip_isInfix isSpace q).subset hmem)
    rw [List.append_cons, trim, strip_append_of_all hblank]
    exact afterReturnType_of_noSpace hq hspace'

/-- The cut is in the return type, or there is none. -/
theorem space_mem_afterReturnType {t q : List Char} (ht : kScope <:+: t)
    (hq : ∃ c ∈ q, isSpace c = false) : ' ' ∈ afterReturnType (t ++ ' ' :: q) := by
  obtain ⟨firstScope, hfirst⟩ := exists_find ht
  obtain ⟨front, back, heq, hlen⟩ := exists_of_find (by decide) hfirst
  have hfind : find kScope (t ++ ' ' :: q) = some firstScope := by
    rw [find_append_cons_of_present (by decide) ht, hfirst]
  -- what is searched for the space ends with the first colon of the scope
  have htake : (t ++ ' ' :: q).take (firstScope + 1) = front ++ [':'] := by
    rw [heq, ← hlen, List.append_assoc, List.take_append, List.take_of_length_le (by omega),
      Nat.add_sub_cancel_left]
    rfl
  rw [afterReturnType_of_find hfind, htake]
  by_cases hspace : ' ' ∈ front
  · -- the last space before the scope
    obtain ⟨start, rest, hfront, hrest⟩ := exists_last_of_mem hspace
    have hclear : ' ' ∉ rest ++ [':'] := by
      simp only [List.mem_append, List.mem_singleton, not_or]
      exact ⟨hrest, by decide⟩
    have hscope : ∃ c ∈ rest ++ (kScope ++ back), isSpace c = false :=
      exists_of_scope ⟨rest, back, (List.append_assoc rest kScope back)⟩
    have hdrop : (t ++ ' ' :: q).drop (start.length + 1) =
        (rest ++ (kScope ++ back)) ++ ' ' :: q := by
      rw [heq, hfront, List.append_assoc, List.append_assoc, List.append_assoc, List.cons_append,
        List.append_cons, List.drop_left' (by simp)]
      simp
    rw [hfront, List.append_assoc, List.cons_append, rfind_singleton_append hclear, afterSpace,
      hdrop, trim, strip_append_cons hscope hq]
    exact List.mem_append_right _ List.mem_cons_self
  · -- no space before the scope: the whole text is left, with the one before the name
    have hclear : ' ' ∉ front ++ [':'] := by
      simp only [List.mem_append, List.mem_singleton, not_or]
      exact ⟨hspace, by decide⟩
    rw [rfind_singleton_eq_none hclear, afterSpace]
    exact List.mem_append_right t List.mem_cons_self

/-- **Return types with a scope**: a space is left in front of the name. -/
theorem space_mem_of_scope {t q : List Char} (ht : kScope <:+: t) (hscope : kScope <:+: q) :
    ' ' ∈ afterReturnType (trim (t ++ ' ' :: q)) := by
  have ht' : kScope <:+: t.dropWhile isSpace := infix_dropWhile (by decide) kScope_clean ht
  have hq : kScope <:+: q.rdropWhile isSpace := infix_rdropWhile (by decide) kScope_clean hscope
  rw [trim, strip_append_cons (exists_of_scope ht) (exists_of_scope hscope)]
  exact space_mem_afterReturnType ht' (exists_of_scope hq)

/-! ## The name -/

/-- The signature of a function with a return type, a name and arguments. -/
def signature (t q a : String) : String := t ++ " " ++ q ++ "(" ++ a ++ ")"

theorem prettyFunction_signature {t q : String} (ht : Plain t.toList) (hq : Plain q.toList)
    (a : String) :
    prettyFunction (signature t q a) =
      .ofList (afterReturnType (trim (t.toList ++ ' ' :: q.toList))) := by
  have hchars : (signature t q a).toList =
      (t.toList ++ ' ' :: q.toList) ++ '(' :: (a.toList ++ [')']) := by
    simp [signature, String.toList_append]
  rw [prettyFunction, hchars, prettyName_append ht hq]

/-- A space is left in the result. -/
theorem prettyFunction_ne_of_scope {t q : String} (ht : Plain t.toList) (hq : Plain q.toList)
    (hscope : kScope <:+: q.toList) (hspace : ' ' ∉ q.toList) (htscope : kScope <:+: t.toList)
    (a : String) : prettyFunction (signature t q a) ≠ q := by
  rw [prettyFunction_signature ht hq]
  intro h
  have hname := congrArg String.toList h
  rw [String.toList_ofList] at hname
  exact hspace (hname ▸ space_mem_of_scope htscope hscope)

/-- **The name is extracted** exactly if there is no scope in the return type, and the name
    neither begins nor ends with a tab or a line break. -/
theorem prettyFunction_eq_iff {t q : String} (ht : Plain t.toList) (hq : Plain q.toList)
    (hscope : kScope <:+: q.toList) (hspace : ' ' ∉ q.toList) (a : String) :
    prettyFunction (signature t q a) = q ↔
      ¬ kScope <:+: t.toList ∧ (∀ c ∈ q.toList.head?, isSpace c = false) ∧
        ∀ c ∈ q.toList.getLast?, isSpace c = false := by
  rw [← strip_eq_self_iff isSpace q.toList]
  by_cases htscope : kScope <:+: t.toList
  · refine ⟨fun h => ?_, fun h => absurd htscope h.1⟩
    exact absurd h (prettyFunction_ne_of_scope ht hq hscope hspace htscope a)
  · rw [prettyFunction_signature ht hq, afterReturnType_trim_of_plain htscope hscope hspace]
    refine ⟨fun h => ⟨htscope, ?_⟩, fun h => ?_⟩
    · have hname := congrArg String.toList h
      rwa [String.toList_ofList] at hname
    · rw [trim, h.2, String.ofList_toList]

/-- Every calling convention has an underscore. -/
theorem plain_of_notMem {s : List Char} (hparen : '(' ∉ s) (hunderscore : '_' ∉ s) : Plain s where
  noParen := hparen
  noConvention ccs hccs hocc := by
    have hmem : ∀ ccs ∈ kCvs, '_' ∈ ccs := by decide
    exact hunderscore (hocc.subset (hmem ccs hccs))

theorem prettyFunction_eq_iff_void :
    prettyFunction (signature "void" "AVCapture::f" "int") = "AVCapture::f" ↔
      ¬ kScope <:+: "void".toList ∧ (∀ c ∈ "AVCapture::f".toList.head?, isSpace c = false) ∧
        ∀ c ∈ "AVCapture::f".toList.getLast?, isSpace c = false :=
  prettyFunction_eq_iff (plain_of_notMem (by decide) (by decide))
    (plain_of_notMem (by decide) (by decide)) (by decide) (by decide) "int"

/-- `"std::string AVCapture::f"` is what the name becomes. -/
theorem prettyFunction_ne_string :
    prettyFunction (signature "std::string" "AVCapture::f" "") ≠ "AVCapture::f" :=
  prettyFunction_ne_of_scope (plain_of_notMem (by decide) (by decide))
    (plain_of_notMem (by decide) (by decide)) (by decide) (by decide) (by decide) ""

end AVCapture.Utils
