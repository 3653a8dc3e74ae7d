import Mathlib.Data.List.Induction
import Mathlib.Data.List.Infix

/-!
# Laying One Tree of Tables over Another

Tables within tables to any depth, seen as what is at each path. The tree that lies over
another one wins at every path where it has something; what it has nothing at shows
through, unless a leaf of it stands on the way.

Laying trees over each other is no associative operation: a table in the place of a leaf
hides what was below the place before, though it has nothing of its own there.

## Contents

- `Tree`, `Tree.Shadows`: trees, and the paths that a leaf of a tree cuts off
- `overlay`: one tree over another
- `overlay_overlay`: the same tree a second time changes nothing
-/

namespace Overlay

/-- What stands at a path. -/
inductive Entry (V : Type*) where
  | leaf (v : V)
  | table

/-- What is at each path: a table at the root, and nothing below a path at which there is
    no table. -/
@[ext]
structure Tree (K V : Type*) where
  look : List K → Option (Entry V)
  root : look [] = some .table
  below : ∀ path key, look path ≠ some .table → look (path ++ [key]) = none

variable {K V : Type*}

namespace Tree

/-- A leaf stands on the way to the path. -/
def Shadows (t : Tree K V) (path : List K) : Prop :=
  ∃ above v, above <+: path ∧ above ≠ path ∧ t.look above = some (.leaf v)

theorem not_shadows_nil (t : Tree K V) : ¬ t.Shadows [] := by
  intro h
  obtain ⟨above, v, hprefix, hne, _⟩ := h
  exact hne (List.prefix_nil.mp hprefix)

theorem shadows_concat_iff (t : Tree K V) (path : List K) (key : K) :
    t.Shadows (path ++ [key]) ↔ t.Shadows path ∨ ∃ v, t.look path = some (.leaf v) := by
  refine ⟨fun h => ?_, fun h => ?_⟩
  · obtain ⟨above, v, hprefix, hne, hleaf⟩ := h
    rcases List.prefix_concat_iff.mp hprefix with heq | habove
    · exact absurd heq hne
    · by_cases hpath : above = path
      · exact Or.inr ⟨v, hpath ▸ hleaf⟩
      · exact Or.inl ⟨above, v, habove, hpath, hleaf⟩
  · have hshorter (above : List K) (h : above <+: path) : above ≠ path ++ [key] := by
      intro heq
      have hlength := h.length_le
      rw [heq, List.length_append, List.length_singleton] at hlength
      omega
    rcases h with ⟨above, v, hprefix, _, hleaf⟩ | ⟨v, hleaf⟩
    · exact ⟨above, v, hprefix.trans (List.prefix_append _ _), hshorter above hprefix, hleaf⟩
    · exact ⟨path, v, List.prefix_append _ _, hshorter path (List.prefix_refl _), hleaf⟩

end Tree

open Classical in
/-- `upper` laid over `lower`. -/
noncomputable def overlay (lower upper : Tree K V) : Tree K V where
  look path := (upper.look path).or (if upper.Shadows path then none else lower.look path)
  root := by rw [upper.root, Option.some_or]
  below path key h := by
    have hlower : upper.look path = none → ¬ upper.Shadows path →
        lower.look path ≠ some .table := by
      intro hnone hclear
      rwa [hnone, if_neg hclear, Option.none_or] at h
    have hupper : upper.look path ≠ some .table := by
      intro htable
      rw [htable, Option.some_or] at h
      exact h rfl
    rw [upper.below path key hupper, Option.none_or, Tree.shadows_concat_iff]
    -- what stands at the path in `upper` decides what can show through below it
    cases hlook : upper.look path with
    | some entry =>
      cases entry with
      | leaf v => exact if_pos (Or.inr ⟨v, rfl⟩)
      | table => exact absurd hlook hupper
    | none =>
      by_cases hshadow : upper.Shadows path
      · exact if_pos (Or.inl hshadow)
      · rw [lower.below path key (hlower hlook hshadow), ite_self]

open Classical in
theorem look_overlay (lower upper : Tree K V) (path : List K) :
    (overlay lower upper).look path =
      (upper.look path).or (if upper.Shadows path then none else lower.look path) := rfl

variable {lower upper : Tree K V} {path : List K}

theorem look_overlay_of_some {entry : Entry V} (h : upper.look path = some entry) :
    (overlay lower upper).look path = some entry := by
  rw [look_overlay, h, Option.some_or]

theorem look_overlay_of_shadows (h : upper.look path = none) (hshadow : upper.Shadows path) :
    (overlay lower upper).look path = none := by
  rw [look_overlay, h, Option.none_or, if_pos hshadow]

/-- **What shows through.** -/
theorem look_overlay_of_clear (h : upper.look path = none) (hclear : ¬ upper.Shadows path) :
    (overlay lower upper).look path = lower.look path := by
  rw [look_overlay, h, Option.none_or, if_neg hclear]

/-- **A second time** the same tree changes nothing. -/
theorem overlay_overlay (lower upper : Tree K V) :
    overlay (overlay lower upper) upper = overlay lower upper := by
  ext1
  funext path
  cases hlook : upper.look path with
  | some entry => rw [look_overlay_of_some hlook, look_overlay_of_some hlook]
  | none =>
    by_cases hshadow : upper.Shadows path
    · rw [look_overlay_of_shadows hlook hshadow, look_overlay_of_shadows hlook hshadow]
    · exact look_overlay_of_clear hlook hshadow

end Overlay
