import Mathlib.Data.String.Basic
import AVCapture.Lib.Overlay
import AVCapture.Settings

/-!
# Tables of Settings

What `get`, `insert_or_assign` and `at_path` make of a table whose keys ascend, as those of
every table of toml++ do.

## Main results

- `Table.get_insertOrAssign`, `Table.sorted_insertOrAssign`: assignment
- `Table.atPath_concat`: the last step of a path
- `Table.view`, `Table.view_injective`: a table as a tree (`Lib/Overlay.lean`)
-/

namespace AVCapture

namespace Toml

open Overlay

/-! ## Tables -/

/-- Induction over the entries of one table. -/
@[elab_as_elim]
theorem Table.inductionOn {motive : Table → Prop} (nil : motive .nil)
    (cons : ∀ key value rest, motive rest → motive (.cons key value rest)) :
    ∀ t, motive t
  | .nil => nil
  | .cons key value rest => cons key value rest (inductionOn nil cons rest)

/-- `node::is_table` -/
def Node.isTable : Node → Bool
  | .table _ => true
  | _ => false

theorem Node.table_or_leaf (node : Node) : (∃ sub, node = .table sub) ∨ node.isTable = false := by
  cases node with
  | table sub => exact Or.inl ⟨sub, rfl⟩
  | _ => exact Or.inr rfl

def Table.keys : Table → List String
  | .nil => []
  | .cons key _ rest => key :: rest.keys

mutual

/-- The keys of every table ascend. -/
def Node.Sorted : Node → Prop
  | .table t => t.Sorted
  | _ => True

def Table.Sorted : Table → Prop
  | .nil => True
  | .cons key value rest => (∀ k ∈ rest.keys, key < k) ∧ value.Sorted ∧ rest.Sorted

end

/-- What toml++ parses: each table is a `std::map`. -/
structure Document where
  table : Table
  sorted : table.Sorted

namespace Table

theorem get_cons_self (key : String) (value : Node) (rest : Table) :
    (Table.cons key value rest).get key = some value := if_pos rfl

theorem get_cons_of_ne {key k : String} (h : key ≠ k) (value : Node) (rest : Table) :
    (Table.cons key value rest).get k = rest.get k := if_neg h

theorem mem_keys_of_get {t : Table} {k : String} {node : Node} (h : t.get k = some node) :
    k ∈ t.keys := by
  induction t using Table.inductionOn with
  | nil => cases h
  | cons key value rest ih =>
    -- the first entry is the one that is found, or it is passed over
    by_cases hk : key = k
    · exact hk ▸ List.mem_cons_self
    · rw [get_cons_of_ne hk] at h
      exact List.mem_cons_of_mem key (ih h)

theorem get_eq_none_of_lt {t : Table} {k : String} (h : ∀ key ∈ t.keys, k < key) :
    t.get k = none := by
  refine Option.eq_none_iff_forall_not_mem.mpr fun node hnode => ?_
  exact (h k (mem_keys_of_get hnode)).ne rfl

theorem sorted_of_get {t : Table} (ht : t.Sorted) {k : String} {node : Node}
    (h : t.get k = some node) : node.Sorted := by
  induction t using Table.inductionOn with
  | nil => cases h
  | cons key value rest ih =>
    obtain ⟨_, hvalue, hrest⟩ := ht
    by_cases hk : key = k
    · rw [← hk, get_cons_self] at h
      exact Option.some.inj h ▸ hvalue
    · rw [get_cons_of_ne hk] at h
      exact ih hrest h

/-- What has been assigned is found, and everything else as before. -/
theorem get_insertOrAssign (t : Table) (k k' : String) (v : Node) :
    (t.insertOrAssign k v).get k' = if k = k' then some v else t.get k' := by
  induction t using Table.inductionOn with
  | nil => rfl
  | cons key value rest ih =>
    unfold insertOrAssign
    -- the key is assigned a new value in its own place
    by_cases hkey : key = k
    · rw [if_pos hkey, ← hkey]
      by_cases hk' : key = k'
      · rw [if_pos hk', ← hk', get_cons_self]
      · rw [if_neg hk', get_cons_of_ne hk', get_cons_of_ne hk']
    · rw [if_neg hkey]
      -- the new entry goes before the first greater key
      by_cases hlt : k < key
      · rw [if_pos hlt]
        rfl
      · -- the new entry comes further behind
        rw [if_neg hlt]
        by_cases hk' : key = k'
        · rw [← hk', get_cons_self, get_cons_self, if_neg (Ne.symm hkey)]
        · rw [get_cons_of_ne hk', get_cons_of_ne hk', ih]

theorem mem_keys_insertOrAssign {t : Table} {k k' : String} {v : Node}
    (h : k' ∈ (t.insertOrAssign k v).keys) : k' = k ∨ k' ∈ t.keys := by
  induction t using Table.inductionOn with
  | nil =>
    rcases List.mem_cons.mp h with heq | hmem
    · exact Or.inl heq
    · cases hmem
  | cons key value rest ih =>
    unfold insertOrAssign at h
    -- the key was there
    by_cases hkey : key = k
    · rw [if_pos hkey] at h
      exact Or.inr h
    · rw [if_neg hkey] at h
      by_cases hlt : k < key
      · rw [if_pos hlt] at h
        exact List.mem_cons.mp h
      · rw [if_neg hlt] at h
        rcases List.mem_cons.mp h with heq | hmem
        · exact Or.inr (heq ▸ List.mem_cons_self)
        · rcases ih hmem with heq | hrest
          · exact Or.inl heq
          · exact Or.inr (List.mem_cons_of_mem key hrest)

theorem sorted_insertOrAssign {t : Table} (ht : t.Sorted) (k : String) {v : Node}
    (hv : v.Sorted) : (t.insertOrAssign k v).Sorted := by
  induction t using Table.inductionOn with
  | nil => exact ⟨fun _ hmem => absurd hmem List.not_mem_nil, hv, trivial⟩
  | cons key value rest ih =>
    obtain ⟨hkeys, hvalue, hrest⟩ := ht
    unfold insertOrAssign
    by_cases hkey : key = k
    · rw [if_pos hkey]
      exact ⟨hkeys, hv, hrest⟩
    · rw [if_neg hkey]
      by_cases hlt : k < key
      · rw [if_pos hlt]
        -- the key comes first, before one that is greater
        refine ⟨fun k' hmem => ?_, hv, hkeys, hvalue, hrest⟩
        rcases List.mem_cons.mp hmem with heq | hmem
        · exact heq ▸ hlt
        · exact hlt.trans (hkeys k' hmem)
      · rw [if_neg hlt]
        -- the keys behind are the old ones, or the new one, which is greater than the first
        refine ⟨fun k' hmem => ?_, hvalue, ih hrest⟩
        rcases mem_keys_insertOrAssign hmem with heq | hmem
        · exact heq ▸ lt_of_le_of_ne (not_lt.mp hlt) hkey
        · exact hkeys k' hmem

/-- Entries that are put one after the other into an empty table. -/
def ofInserts (entries : List (String × Node)) : Table :=
  entries.foldl (fun t entry => t.insertOrAssign entry.1 entry.2) .nil

/-- What assignment keeps holds of a table that is made so. -/
theorem ofInserts_invariant (holds : Table → Prop) (fits : Node → Prop) (hnil : holds .nil)
    (hassign : ∀ t k v, holds t → fits v → holds (t.insertOrAssign k v))
    {entries : List (String × Node)} (h : ∀ entry ∈ entries, fits entry.2) :
    holds (ofInserts entries) := by
  induction entries using List.reverseRecOn with
  | nil => exact hnil
  | append_singleton entries entry ih =>
    rw [ofInserts, List.foldl_append]
    have hentries : holds (ofInserts entries) :=
      ih fun earlier hmem => h earlier (List.mem_append_left [entry] hmem)
    exact hassign _ entry.1 entry.2 hentries (h entry (by simp))

theorem sorted_ofInserts {entries : List (String × Node)}
    (h : ∀ entry ∈ entries, entry.2.Sorted) : (ofInserts entries).Sorted :=
  ofInserts_invariant Sorted Node.Sorted trivial
    (fun _ k _ ht hv => sorted_insertOrAssign ht k hv) h

/-- The last entry with a key is found. -/
theorem get_ofInserts (entries : List (String × Node)) (k : String) :
    (ofInserts entries).get k = entries.reverse.lookup k := by
  -- the induction is on the last entry, whose value wins
  induction entries using List.reverseRecOn with
  | nil => rfl
  | append_singleton entries entry ih =>
    rw [ofInserts, List.foldl_append, List.reverse_concat, List.lookup_cons, ← ih]
    refine (get_insertOrAssign (ofInserts entries) entry.1 k entry.2).trans ?_
    by_cases hk : entry.1 = k
    · rw [if_pos hk, hk, BEq.rfl]
    · rw [if_neg hk, beq_false_of_ne (Ne.symm hk)]

/-- A lesser first key of one side would be missing on the other. -/
theorem first_le_of_get_eq {key key' : String} {value value' : Node} {rest rest' : Table}
    (hkeys' : ∀ k ∈ rest'.keys, key' < k)
    (h : ∀ k, (Table.cons key value rest).get k = (Table.cons key' value' rest').get k) :
    key' ≤ key := by
  by_contra hnot
  -- the lesser key is found on one side and on the other it is not
  have hlt : key < key' := not_le.mp hnot
  have hkey := h key
  rw [get_cons_self, get_cons_of_ne hlt.ne',
    get_eq_none_of_lt fun k hk => hlt.trans (hkeys' k hk)] at hkey
  cases hkey

/-- Sorted tables that give the same for every key are the same. -/
theorem eq_of_get_eq {t t' : Table} (ht : t.Sorted) (ht' : t'.Sorted)
    (h : ∀ k, t.get k = t'.get k) : t = t' := by
  induction t using Table.inductionOn generalizing t' with
  | nil =>
    -- a table without entries gives nothing, and one with entries its first one
    cases t' with
    | nil => rfl
    | cons key value rest =>
      have hkey := h key
      rw [get_cons_self] at hkey
      cases hkey
  | cons key value rest ih =>
    cases t' with
    | nil =>
      have hkey := h key
      rw [get_cons_self] at hkey
      cases hkey
    | cons key' value' rest' =>
      obtain ⟨hkeys, _, hrest⟩ := ht
      obtain ⟨hkeys', _, hrest'⟩ := ht'
      have hleast : key = key' :=
        le_antisymm (first_le_of_get_eq hkeys fun k => (h k).symm) (first_le_of_get_eq hkeys' h)
      subst hleast
      have hvalue := h key
      rw [get_cons_self, get_cons_self] at hvalue
      -- what is behind the first keys agrees for every key but this one
      have htail : rest = rest' := by
        refine ih hrest hrest' fun k => ?_
        by_cases hk : key = k
        · rw [← hk, get_eq_none_of_lt hkeys, get_eq_none_of_lt hkeys']
        · have hget := h k
          rwa [get_cons_of_ne hk, get_cons_of_ne hk] at hget
      rw [Option.some.inj hvalue, htail]

/-! ## Paths -/

@[simp] theorem atPath_nil (t : Table) : t.atPath [] = some (.table t) := rfl

/-- What is below a node. -/
def follow (keys : List String) : Node → Option Node
  | .table sub => sub.atPath keys
  | _ => none

theorem follow_leaf {node : Node} (h : node.isTable = false) (keys : List String) :
    follow keys node = none := by
  cases node with
  | table sub => cases h
  | _ => rfl

theorem atPath_cons_cons (t : Table) (key next : String) (keys : List String) :
    t.atPath (key :: next :: keys) = (t.get key).bind (follow (next :: keys)) := by
  cases hget : t.get key with
  | none => simp only [atPath, hget, Option.bind_none]
  | some node => cases node <;> simp only [atPath, hget, Option.bind_some, follow]

/-- A path is followed to its last key but one, and then one key further. -/
theorem atPath_concat (t : Table) (path : List String) (key : String) :
    t.atPath (path ++ [key]) = (t.atPath path).bind (follow [key]) := by
  induction path generalizing t with
  | nil => rfl
  | cons first path ih =>
    -- behind the first key the path ends, or goes on
    cases path with
    | nil => exact atPath_cons_cons t first key []
    | cons second path =>
      rw [List.cons_append, List.cons_append, atPath_cons_cons, atPath_cons_cons]
      cases t.get first with
      | none => rfl
      -- a path goes on below a table only
      | some node =>
        rcases node.table_or_leaf with ⟨sub, rfl⟩ | hleaf
        · exact ih sub
        · rw [Option.bind_some, Option.bind_some, follow_leaf hleaf, follow_leaf hleaf,
            Option.bind_none]

/-- An entry of a table in a table. -/
theorem atPath_of_lookup {t : Table} {name key : String} {entries : List (String × Node)}
    {node : Node} (hname : t.get name = some (.table (.ofInserts entries)))
    (hkey : entries.reverse.lookup key = some node) : t.atPath [name, key] = some node := by
  rw [atPath_cons_cons, hname, Option.bind_some, ← hkey, ← get_ofInserts]
  rfl

theorem sorted_of_atPath {t : Table} (ht : t.Sorted) {path : List String} {node : Node}
    (h : t.atPath path = some node) : node.Sorted := by
  induction path using List.reverseRecOn generalizing node with
  | nil => exact Option.some.inj h ▸ ht
  | append_singleton path key ih =>
    rw [atPath_concat, Option.bind_eq_some_iff] at h
    obtain ⟨parent, hparent, hchild⟩ := h
    -- below the parent, which is a table, or else nothing
    rcases parent.table_or_leaf with ⟨sub, rfl⟩ | hleaf
    · exact sorted_of_get (ih hparent) hchild
    · rw [follow_leaf hleaf] at hchild
      cases hchild

/-- A node that is no table stands on the way to the path. -/
def Shadows (t : Table) (path : List String) : Prop :=
  ∃ above node, above <+: path ∧ above ≠ path ∧ t.atPath above = some node ∧
    node.isTable = false

def entry : Node → Entry Node
  | .table _ => .table
  | leaf => .leaf leaf

theorem entry_of_leaf {node : Node} (h : node.isTable = false) : entry node = .leaf node := by
  cases node with
  | table t => cases h
  | _ => rfl

/-- A table as a tree: the nodes that are no tables, and where there is a table. -/
def view (t : Table) : Tree String Node where
  look path := (t.atPath path).map entry
  root := rfl
  below path key h := by
    rw [atPath_concat]
    cases hnode : t.atPath path with
    | none => rfl
    -- below a leaf there is nothing
    | some node =>
      rcases node.table_or_leaf with ⟨sub, rfl⟩ | hleaf
      · rw [hnode] at h
        exact absurd rfl h
      · rw [Option.bind_some, follow_leaf hleaf, Option.map_none]

theorem view_eq_leaf_iff {t : Table} {path : List String} {node : Node} :
    t.view.look path = some (.leaf node) ↔ t.atPath path = some node ∧ node.isTable = false := by
  show (t.atPath path).map entry = _ ↔ _
  refine ⟨fun h => ?_, fun h => ?_⟩
  · obtain ⟨found, hfound, hentry⟩ := Option.map_eq_some_iff.mp h
    -- an entry is a table, or the leaf itself
    rcases found.table_or_leaf with ⟨sub, rfl⟩ | hleaf
    · cases hentry
    · rw [entry_of_leaf hleaf] at hentry
      rw [← Entry.leaf.inj hentry]
      exact ⟨hfound, hleaf⟩
  · rw [h.1, Option.map_some, entry_of_leaf h.2]

theorem shadows_view_iff (t : Table) (path : List String) :
    t.view.Shadows path ↔ t.Shadows path := by
  unfold Tree.Shadows Shadows
  simp only [view_eq_leaf_iff]

theorem shadows_concat_iff (t : Table) (path : List String) (key : String) :
    t.Shadows (path ++ [key]) ↔
      t.Shadows path ∨ ∃ node, t.atPath path = some node ∧ node.isTable = false := by
  simp only [← shadows_view_iff, Tree.shadows_concat_iff, view_eq_leaf_iff]

/-- What there is at a path is in nobody's shadow. -/
theorem not_shadows_of_some {t : Table} {path : List String} {node : Node}
    (h : t.atPath path = some node) : ¬ t.Shadows path := by
  induction path using List.reverseRecOn generalizing node with
  | nil =>
    rw [← shadows_view_iff]
    exact Tree.not_shadows_nil _
  | append_singleton path key ih =>
    rw [atPath_concat, Option.bind_eq_some_iff] at h
    obtain ⟨parent, hparent, hchild⟩ := h
    rw [shadows_concat_iff]
    intro hshadow
    -- something above the parent shadows it, or the parent is a leaf
    rcases hshadow with hshadow | ⟨leaf, hleaf, hnot⟩
    · exact ih hparent hshadow
    · rw [hparent] at hleaf
      rw [Option.some.inj hleaf, follow_leaf hnot] at hchild
      cases hchild

theorem eq_or_tables_of_entry {node node' : Node} (h : entry node = entry node') :
    node = node' ∨ ∃ sub sub', node = .table sub ∧ node' = .table sub' := by
  -- two tables have the same entry whatever is in them
  rcases node.table_or_leaf with ⟨sub, rfl⟩ | hleaf
  · rcases node'.table_or_leaf with ⟨sub', rfl⟩ | hleaf'
    · exact Or.inr ⟨sub, sub', rfl, rfl⟩
    · rw [entry_of_leaf hleaf'] at h
      cases h
  · rcases node'.table_or_leaf with ⟨sub', rfl⟩ | hleaf'
    · rw [entry_of_leaf hleaf] at h
      cases h
    · rw [entry_of_leaf hleaf, entry_of_leaf hleaf'] at h
      exact Or.inl (Entry.leaf.inj h)

theorem sizeOf_get_lt {t : Table} {k : String} {node : Node} (h : t.get k = some node) :
    sizeOf node < sizeOf t := by
  induction t using Table.inductionOn with
  | nil => cases h
  | cons key value rest ih =>
    rw [Table.cons.sizeOf_spec]
    by_cases hk : key = k
    · rw [← hk, get_cons_self] at h
      rw [← Option.some.inj h]
      omega
    · rw [get_cons_of_ne hk] at h
      have hrest := ih h
      omega

/-- Below one key, the view of a table is the view of what is there. -/
theorem view_sub {t : Table} {k : String} {sub : Table} (h : t.get k = some (.table sub))
    (path : List String) : t.view.look (k :: path) = sub.view.look path := by
  show (t.atPath (k :: path)).map entry = (sub.atPath path).map entry
  cases path with
  | nil =>
    rw [show t.atPath [k] = t.get k from rfl, h]
    rfl
  | cons next keys =>
    rw [atPath_cons_cons, h]
    rfl

/-- Sorted tables are the same if they are the same tree. -/
theorem view_injective {t t' : Table} (ht : t.Sorted) (ht' : t'.Sorted)
    (h : t.view = t'.view) : t = t' := by
  refine eq_of_get_eq ht ht' fun k => ?_
  have hk : (t.get k).map entry = (t'.get k).map entry := congrArg (fun v => v.look [k]) h
  -- where one table has nothing the other has nothing either
  cases hget : t.get k with
  | none =>
    rw [hget, Option.map_none, eq_comm, Option.map_eq_none_iff] at hk
    exact hk.symm
  | some node =>
    rw [hget, Option.map_some, eq_comm, Option.map_eq_some_iff] at hk
    obtain ⟨node', hget', hentry⟩ := hk
    rw [hget']
    rcases eq_or_tables_of_entry hentry with heq | ⟨sub', sub, rfl, rfl⟩
    · rw [heq]
    · -- the tables below the key are the same by induction
      have hview : sub.view = sub'.view := by
        ext1
        funext path
        rw [← view_sub hget path, ← view_sub hget' path, h]
      have hlt : sizeOf sub < sizeOf t := by
        have hnode := sizeOf_get_lt hget
        rw [Node.table.sizeOf_spec] at hnode
        omega
      rw [view_injective (sorted_of_get ht hget) (sorted_of_get ht' hget') hview]
termination_by sizeOf t

end Table

end Toml

end AVCapture
