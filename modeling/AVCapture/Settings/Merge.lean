import AVCapture.Settings.Tables

/-!
# Merging Settings

`Settings::merge_into` walks over two trees at once and changes the first one in place. What
is at a path afterwards is told by what the two trees have at the path and on the way to
it: the second tree lies over the first one, and tables that both have are merged in turn.

## Main results

- `atPath_mergeInto`: the lookup law
- `view_mergeInto`: the merge lays one tree over the other
- `mergeInto_mergeInto`: merging the same tree twice
- `mergeInto_deepMerge`: the law for every path, and the defaults that `load` keeps
-/

namespace AVCapture

open Toml

namespace Settings

open Toml.Table Overlay

/-! ## The merge -/

theorem mergeNode_leaf (existing : Option Node) {value : Node} (h : value.isTable = false) :
    mergeNode existing value = value := by
  cases value with
  | table src => cases h
  | _ => rfl

theorem mergeNode_table (dst src : Table) :
    mergeNode (some (.table dst)) (.table src) = .table (mergeInto dst src) := by
  rw [mergeNode]

theorem mergeNode_fresh {existing : Option Node} (h : ∀ dst, existing ≠ some (.table dst))
    (src : Table) : mergeNode existing (.table src) = .table src := by
  rw [mergeNode]
  exact h

theorem entry_mergeNode (existing : Option Node) (value : Node) :
    entry (mergeNode existing value) = entry value := by
  rcases value.table_or_leaf with ⟨src, rfl⟩ | hleaf
  · -- the table goes into the one that is there, or takes its place
    by_cases hdst : ∃ dst, existing = some (.table dst)
    · obtain ⟨dst, rfl⟩ := hdst
      rw [mergeNode_table]
      rfl
    · rw [mergeNode_fresh (not_exists.mp hdst)]
  · rw [mergeNode_leaf existing hleaf]

theorem mergeNode_none (value : Node) : mergeNode none value = value := by
  rcases value.table_or_leaf with ⟨src, rfl⟩ | hleaf
  · exact mergeNode_fresh (fun dst => (Option.some_ne_none (Node.table dst)).symm) src
  · exact mergeNode_leaf none hleaf

/-- What the merge makes of what the two tables have at one place. -/
def mergedAt (existing : Option Node) : Option Node → Option Node
  | none => existing
  | some value => some (mergeNode existing value)

theorem mergedAt_none (value : Option Node) : mergedAt none value = value := by
  cases value with
  | none => rfl
  | some value => rw [mergedAt, mergeNode_none]

/-- **One key** of the merge. -/
theorem get_mergeInto {src : Table} (hsrc : src.Sorted) (dst : Table) (k : String) :
    (mergeInto dst src).get k = mergedAt (dst.get k) (src.get k) := by
  induction src using Table.inductionOn generalizing dst with
  | nil => rfl
  | cons key value rest ih =>
    -- the entries of the second table are merged in their order
    obtain ⟨hkeys, _, hrest⟩ := hsrc
    rw [mergeInto, ih hrest, get_insertOrAssign]
    by_cases hk : key = k
    · -- the key does not come again
      rw [if_pos hk, ← hk, get_eq_none_of_lt hkeys, get_cons_self]
      rfl
    · rw [if_neg hk, get_cons_of_ne hk]

/-- One key further, below a node of the second table that is no leaf. -/
theorem follow_mergeNode {sub : Table} (hsub : sub.Sorted) (existing : Option Node)
    (key : String) :
    follow [key] (mergeNode existing (.table sub)) =
      mergedAt (existing.bind (follow [key])) (sub.get key) := by
  by_cases hdst : ∃ dst, existing = some (.table dst)
  · obtain ⟨dst, rfl⟩ := hdst
    rw [mergeNode_table]
    exact get_mergeInto hsub dst key
  · -- below what is no table there is nothing to keep
    have hnone : existing.bind (follow [key]) = none := by
      cases existing with
      | none => rfl
      | some node =>
        rcases node.table_or_leaf with ⟨dst, rfl⟩ | hleaf
        · exact absurd ⟨dst, rfl⟩ hdst
        · exact follow_leaf hleaf [key]
    rw [mergeNode_fresh (not_exists.mp hdst), hnone, mergedAt_none]
    rfl

/-- **The lookup law**: what the merge makes of a node decides what it makes of the nodes
    below it. -/
theorem atPath_mergeInto {src : Table} (hsrc : src.Sorted) (dst : Table) (path : List String) :
    (src.Shadows path → (mergeInto dst src).atPath path = none) ∧
    (¬ src.Shadows path →
      (mergeInto dst src).atPath path = mergedAt (dst.atPath path) (src.atPath path)) := by
  induction path using List.reverseRecOn with
  -- nothing shadows the root, and both sides have a table there
  | nil =>
    refine ⟨fun hshadow => absurd hshadow (not_shadows_of_some (atPath_nil src)), fun _ => ?_⟩
    rw [atPath_nil, atPath_nil, atPath_nil, mergedAt, mergeNode_table]
  | append_singleton path key ih =>
    obtain ⟨ihshadow, ihclear⟩ := ih
    rw [shadows_concat_iff, atPath_concat, atPath_concat, atPath_concat]
    refine ⟨fun hshadow => ?_, fun hclear => ?_⟩
    · -- something above shadows the path, or the parent is a leaf
      rcases hshadow with hshadow | ⟨leaf, hleaf, hnot⟩
      · rw [ihshadow hshadow, Option.bind_none]
      · rw [ihclear (not_shadows_of_some hleaf), hleaf, mergedAt, mergeNode_leaf _ hnot,
          Option.bind_some, follow_leaf hnot]
    · -- the parent decides: nothing, or a table that is merged with what is there
      obtain ⟨hclear, hnoleaf⟩ := not_or.mp hclear
      rw [ihclear hclear]
      cases hnode : src.atPath path with
      | none => rfl
      | some node =>
        rcases node.table_or_leaf with ⟨sub, rfl⟩ | hleaf
        · exact follow_mergeNode (sorted_of_atPath hsrc hnode) (dst.atPath path) key
        · exact absurd ⟨node, hnode, hleaf⟩ hnoleaf

mutual

theorem sorted_mergeInto {dst : Table} (hdst : dst.Sorted) :
    ∀ {src : Table}, src.Sorted → (mergeInto dst src).Sorted
  | .nil, _ => by rwa [mergeInto]
  | .cons key value rest, hsrc => by
    obtain ⟨_, hvalue, hrest⟩ := hsrc
    rw [mergeInto]
    refine sorted_mergeInto (sorted_insertOrAssign hdst key ?_) hrest
    exact sorted_mergeNode (fun node hnode => sorted_of_get hdst hnode) hvalue

theorem sorted_mergeNode {existing : Option Node}
    (hexisting : ∀ node, existing = some node → node.Sorted) :
    ∀ {value : Node}, value.Sorted → (mergeNode existing value).Sorted
  | .table src, hvalue => by
    -- a table is merged into a table, or replaces a leaf
    by_cases hdst : ∃ dst, existing = some (.table dst)
    · obtain ⟨dst, rfl⟩ := hdst
      rw [mergeNode_table]
      have htable : dst.Sorted := hexisting (.table dst) rfl
      have hmerged : (mergeInto dst src).Sorted := sorted_mergeInto htable hvalue
      exact hmerged
    · rw [mergeNode_fresh (not_exists.mp hdst)]
      exact hvalue
  | .string _, _ => trivial
  | .integer _, _ => trivial
  | .floating _, _ => trivial
  | .boolean _, _ => trivial
  | .dateTime _, _ => trivial
  | .array _, _ => trivial

end

/-- **The merge lays** the second table over the first one. -/
theorem view_mergeInto {src : Table} (hsrc : src.Sorted) (dst : Table) :
    (mergeInto dst src).view = overlay dst.view src.view := by
  ext1
  funext path
  obtain ⟨hshadows, hclear⟩ := atPath_mergeInto hsrc dst path
  show ((mergeInto dst src).atPath path).map entry = _
  -- the path is shadowed, so that neither side shows anything
  by_cases hshadow : src.Shadows path
  · have hnone : src.view.look path = none := by
      show (src.atPath path).map entry = none
      rw [Option.map_eq_none_iff]
      cases hnode : src.atPath path with
      | none => rfl
      | some node => exact absurd hshadow (not_shadows_of_some hnode)
    rw [hshadows hshadow, look_overlay_of_shadows hnone ((shadows_view_iff _ _).mpr hshadow)]
    rfl
  · -- the path is clear: the second table has nothing, or wins
    rw [hclear hshadow]
    cases hnode : src.atPath path with
    | none =>
      have hnone : src.view.look path = none := by
        show (src.atPath path).map entry = none
        rw [hnode, Option.map_none]
      rw [look_overlay_of_clear hnone (mt (shadows_view_iff _ _).mp hshadow)]
      rfl
    | some node =>
      have hsome : src.view.look path = some (entry node) := by
        show (src.atPath path).map entry = _
        rw [hnode, Option.map_some]
      rw [look_overlay_of_some hsome, mergedAt, Option.map_some, entry_mergeNode]

/-- **Merging the same table twice** changes nothing the second time. -/
theorem mergeInto_mergeInto {dst src : Table} (hdst : dst.Sorted) (hsrc : src.Sorted) :
    mergeInto (mergeInto dst src) src = mergeInto dst src := by
  have honce := sorted_mergeInto hdst hsrc
  refine view_injective (sorted_mergeInto honce hsrc) honce ?_
  rw [view_mergeInto hsrc, view_mergeInto hsrc, overlay_overlay]

/-- What is at a path after the merge. -/
structure DeepMerge (dst src merged : Table) (path : List String) : Prop where
  leaf : ∀ node, src.atPath path = some node → node.isTable = false →
    merged.atPath path = some node
  both : ∀ old sub, dst.atPath path = some (.table old) → src.atPath path = some (.table sub) →
    merged.atPath path = some (.table (mergeInto old sub))
  fresh : ∀ sub, (∀ old, dst.atPath path ≠ some (.table old)) →
    src.atPath path = some (.table sub) → merged.atPath path = some (.table sub)
  kept : src.atPath path = none → ¬ src.Shadows path → merged.atPath path = dst.atPath path
  absent : src.atPath path = none → src.Shadows path → merged.atPath path = none

theorem deepMerge {src : Table} (hsrc : src.Sorted) (dst : Table) (path : List String) :
    DeepMerge dst src (mergeInto dst src) path := by
  obtain ⟨hshadows, hclear⟩ := atPath_mergeInto hsrc dst path
  -- where the second table has a node, the lookup law gives the merged node
  have hfound {node : Node} (h : src.atPath path = some node) :
      (mergeInto dst src).atPath path = some (mergeNode (dst.atPath path) node) := by
    rw [hclear (not_shadows_of_some h), h, mergedAt]
  refine ⟨fun node hnode hleaf => ?_, fun old sub hold hsub => ?_, fun sub hfresh hsub => ?_,
    fun hnone hshadow => ?_, fun _ hshadow => hshadows hshadow⟩
  · rw [hfound hnode, mergeNode_leaf _ hleaf]
  · rw [hfound hsub, hold, mergeNode_table]
  · rw [hfound hsub, mergeNode_fresh hfresh]
  · rw [hclear hshadow, hnone, mergedAt]

/-- **Settings are merged deeply**, and the file's side wins: the lookup law at every path;
    the same table a second time and an empty table change nothing; and a default is lost
    only where the user's file sets something or has a leaf on the way. -/
theorem mergeInto_deepMerge :
    (∀ (dst src : Document) (path : List String),
      DeepMerge dst.table src.table (mergeInto dst.table src.table) path) ∧
    (∀ dst src : Document,
      mergeInto (mergeInto dst.table src.table) src.table = mergeInto dst.table src.table) ∧
    (∀ dst : Document, mergeInto dst.table .nil = dst.table) ∧
    ∀ user : Document, ∃ settings, load (.ok user.table) = .ok settings ∧
      ∀ path, user.table.atPath path = none → ¬ user.table.Shadows path →
        settings.table.atPath path = defaults.atPath path := by
  refine ⟨fun dst src path => deepMerge src.sorted dst.table path,
    fun dst src => mergeInto_mergeInto dst.sorted src.sorted, fun dst => ?_, fun user => ?_⟩
  · rw [mergeInto]
  · exact ⟨_, rfl, fun path => (deepMerge user.sorted defaults path).kept⟩

end Settings

end AVCapture
