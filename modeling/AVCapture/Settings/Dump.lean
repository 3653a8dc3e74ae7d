import AVCapture.Settings.Merge

/-!
# The Dump of Settings

`Settings::dump` writes the merged table to the log, with the API key replaced. The guard of
the replacement asks whether there is a table `api` with a key in it; the defaults have one,
so that it fires unless the user's file has put something else in the place of the table,
and then there is no key.

How toml++ writes a table is not part of the sources: it is an argument of `dump`.

## Main results

- `redacted_of_key`, `redacted_of_no_key`, `redacted_of_no_section`: the cases of the guard
- `redacted_congr`: files that agree but for the key are redacted to the same table
- `dump_hides_key`: the dump is the same for both of them, and shows everything else
-/

namespace AVCapture

open Toml

namespace Settings

open Toml.Table

/-! ## The dump -/

def hideKey (api : Table) : Table := api.insertOrAssign "api_key" (.string "***redacted***")

/-- The table that is written: the merged one, with the key replaced in place if the guard
    fires. -/
def redacted (settings : Settings) : Table :=
  match settings.table.get "api" with
  | some (.table api) =>
    if (api.get "api_key").isSome then
      settings.table.insertOrAssign "api" (.table (hideKey api))
    else settings.table
  | _ => settings.table

/-- `Settings::dump` -/
def dump (serialize : Table → String) (settings : Settings) : String :=
  serialize settings.redacted

/-- Two parsed files that differ at most at `api.api_key`. In one of them the table `api`
    itself may be missing, if the key is all that the other one has in it. -/
structure AgreeButKey (user user' : Table) : Prop where
  elsewhere : ∀ key, key ≠ "api" → user.get key = user'.get key
  leaf : ∀ node, node.isTable = false →
    (user.get "api" = some node ↔ user'.get "api" = some node)
  beside : ∀ key, key ≠ "api_key" → user.atPath ["api", key] = user'.atPath ["api", key]

/-! ## The guard -/

/-- The guard fires on a table `api` that has a key. -/
theorem redacted_of_key {settings : Settings} {api : Table} {key : Node}
    (hapi : settings.table.get "api" = some (.table api)) (hkey : api.get "api_key" = some key) :
    settings.redacted = settings.table.insertOrAssign "api" (.table (hideKey api)) := by
  have hsome : (api.get "api_key").isSome := by rw [hkey]; rfl
  rw [redacted, hapi]
  exact if_pos hsome

theorem redacted_of_no_key {settings : Settings} {api : Table}
    (hapi : settings.table.get "api" = some (.table api)) (hkey : api.get "api_key" = none) :
    settings.redacted = settings.table := by
  simp only [redacted, hapi, hkey, Option.isSome_none, Bool.false_eq_true, if_false]

theorem redacted_of_no_section {settings : Settings}
    (hapi : ∀ api, settings.table.get "api" ≠ some (.table api)) :
    settings.redacted = settings.table := by
  rw [redacted]
  cases hget : settings.table.get "api" with
  | none => rfl
  | some node =>
    rcases node.table_or_leaf with ⟨api, rfl⟩ | hleaf
    · exact absurd hget (hapi api)
    · cases node with
      | table api => cases hleaf
      | _ => rfl

/-- Only the table `api` is touched. -/
theorem get_redacted {settings : Settings} {key : String} (hkey : key ≠ "api") :
    settings.redacted.get key = settings.table.get key := by
  by_cases hapi : ∃ api, settings.table.get "api" = some (.table api)
  · obtain ⟨api, hapi⟩ := hapi
    cases hget : api.get "api_key" with
    | none => rw [redacted_of_no_key hapi hget]
    | some node => rw [redacted_of_key hapi hget, get_insertOrAssign, if_neg (Ne.symm hkey)]
  · rw [redacted_of_no_section (not_exists.mp hapi)]

/-- In the table `api` only the key is touched. -/
theorem get_redacted_api {settings : Settings} {api : Table}
    (hapi : settings.table.get "api" = some (.table api)) :
    ∃ api', settings.redacted.get "api" = some (.table api') ∧
      ∀ key, "api_key" ≠ key → api'.get key = api.get key := by
  cases hget : api.get "api_key" with
  | none =>
    refine ⟨api, ?_, fun _ _ => rfl⟩
    rw [redacted_of_no_key hapi hget, hapi]
  | some node =>
    refine ⟨hideKey api, ?_, fun key hkey => ?_⟩
    · rw [redacted_of_key hapi hget, get_insertOrAssign, if_pos rfl]
    · rw [hideKey, get_insertOrAssign, if_neg hkey]

theorem atPath_congr {t t' : Table} {key : String} (h : t.get key = t'.get key)
    (keys : List String) : t.atPath (key :: keys) = t'.atPath (key :: keys) := by
  cases keys with
  | nil => exact h
  | cons next keys => rw [atPath_cons_cons, atPath_cons_cons, h]

/-- Below `api`, off the key. -/
theorem atPath_redacted_api {settings : Settings} {next : String} {keys : List String}
    {leaf : Node} (hnext : "api_key" ≠ next)
    (h : settings.table.atPath ("api" :: next :: keys) = some leaf) :
    settings.redacted.atPath ("api" :: next :: keys) = some leaf := by
  rw [atPath_cons_cons, Option.bind_eq_some_iff] at h
  obtain ⟨node, hnode, hfollow⟩ := h
  rcases node.table_or_leaf with ⟨api, rfl⟩ | hleaf
  · obtain ⟨api', hapi', hsame⟩ := get_redacted_api hnode
    rw [atPath_cons_cons, hapi', Option.bind_some, ← hfollow]
    exact atPath_congr (hsame next hnext) keys
  · rw [follow_leaf hleaf] at hfollow
    cases hfollow

/-- **Every leaf but the key** is where it was. -/
theorem atPath_redacted {settings : Settings} {path : List String} {leaf : Node}
    (hpath : ¬ Path.kAPI_KEY <+: path) (hleaf : leaf.isTable = false)
    (h : settings.table.atPath path = some leaf) : settings.redacted.atPath path = some leaf := by
  cases path with
  | nil =>
    rw [← Option.some.inj h] at hleaf
    cases hleaf
  | cons first path =>
    by_cases hfirst : first = "api"
    · subst hfirst
      cases path with
      | nil =>
        -- a leaf in the place of the whole table
        have hnone (api : Table) : settings.table.get "api" ≠ some (.table api) := by
          intro hapi
          rw [← Option.some.inj (hapi.symm.trans h)] at hleaf
          cases hleaf
        rw [redacted_of_no_section hnone, h]
      | cons next keys =>
        have hnext : "api_key" ≠ next := fun heq => hpath (heq ▸ ⟨keys, rfl⟩)
        exact atPath_redacted_api hnext h
    · rw [← h]
      exact atPath_congr (get_redacted hfirst) path

/-! ## Two files -/

/-- The table `api` of a file, empty if there is none. -/
def apiTable (user : Table) : Table :=
  match user.get "api" with
  | some (.table api) => api
  | _ => .nil

theorem get_apiTable (user : Table) (key : String) :
    (apiTable user).get key = user.atPath ["api", key] := by
  rw [atPath_cons_cons, apiTable]
  cases user.get "api" with
  | none => rfl
  | some node => cases node <;> rfl

theorem sorted_apiTable {user : Table} (huser : user.Sorted) : (apiTable user).Sorted := by
  rw [apiTable]
  cases hget : user.get "api" with
  | none => trivial
  | some node =>
    rcases node.table_or_leaf with ⟨api, rfl⟩ | hleaf
    · exact sorted_of_get huser hget
    · cases node with
      | table api => cases hleaf
      | _ => trivial

/-- The table `api` of the defaults. -/
def defaultApi : Table :=
  .ofList [("address", .string "127.0.0.1"), ("api_key", .string ""), ("port", .integer 8084)]

theorem get_defaults_api : defaults.get "api" = some (.table defaultApi) := rfl

theorem get_defaultApi_key : defaultApi.get "api_key" = some (.string "") := rfl

theorem sorted_defaults : defaults.Sorted := by
  simp only [defaults, ofList, Table.Sorted, Node.Sorted, keys, List.forall_mem_cons,
    List.not_mem_nil, false_implies, implies_true, and_true, String.lt_iff_toList_lt]
  decide

theorem sorted_defaultApi : defaultApi.Sorted := sorted_of_get sorted_defaults get_defaults_api

/-- The table `api` of the merged settings, with the key replaced. -/
def hiddenApi (user : Table) : Table := hideKey (mergeInto defaultApi (apiTable user))

theorem sorted_hiddenApi {user : Table} (huser : user.Sorted) : (hiddenApi user).Sorted :=
  sorted_insertOrAssign (sorted_mergeInto sorted_defaultApi (sorted_apiTable huser)) _ trivial

/-- Unless something else is in the place of the table `api`, the merged one has a key, and
    the guard fires. -/
theorem redacted_mergeInto {user : Table} (huser : user.Sorted)
    (hapi : ∀ node, node.isTable = false → user.get "api" ≠ some node) :
    (Settings.mk (mergeInto defaults user)).redacted =
      (mergeInto defaults user).insertOrAssign "api" (.table (hiddenApi user)) := by
  have hmerged : (mergeInto defaults user).get "api" =
      some (.table (mergeInto defaultApi (apiTable user))) := by
    rw [get_mergeInto huser, get_defaults_api, apiTable]
    cases hget : user.get "api" with
    | none => simp only [mergedAt, mergeInto]
    | some node =>
      rcases node.table_or_leaf with ⟨api, rfl⟩ | hleaf
      · simp only [mergedAt, mergeNode_table]
      · exact absurd hget (hapi node hleaf)
  -- the default key is there even if the file has none
  have hkey : ∃ key, (mergeInto defaultApi (apiTable user)).get "api_key" = some key := by
    rw [get_mergeInto (sorted_apiTable huser), get_defaultApi_key]
    cases (apiTable user).get "api_key" with
    | none => exact ⟨_, rfl⟩
    | some key => exact ⟨_, rfl⟩
  obtain ⟨key, hkey⟩ := hkey
  exact redacted_of_key hmerged hkey

/-- The tables `api` of two files that agree but for the key differ in nothing else. -/
theorem hiddenApi_congr {user user' : Table} (huser : user.Sorted) (huser' : user'.Sorted)
    (h : AgreeButKey user user') : hiddenApi user = hiddenApi user' := by
  refine eq_of_get_eq (sorted_hiddenApi huser) (sorted_hiddenApi huser') fun key => ?_
  rw [hiddenApi, hiddenApi, hideKey, hideKey, get_insertOrAssign, get_insertOrAssign]
  by_cases hkey : "api_key" = key
  · rw [if_pos hkey, if_pos hkey]
  · rw [if_neg hkey, if_neg hkey, get_mergeInto (sorted_apiTable huser),
      get_mergeInto (sorted_apiTable huser'), get_apiTable, get_apiTable,
      h.beside key (Ne.symm hkey)]

/-- With a leaf in the place of the table `api`, there is no key to differ in. -/
theorem AgreeButKey.eq_of_leaf {user user' : Document}
    (h : AgreeButKey user.table user'.table) {node : Node} (hnode : node.isTable = false)
    (hget : user.table.get "api" = some node) : user.table = user'.table := by
  refine eq_of_get_eq user.sorted user'.sorted fun key => ?_
  by_cases hkey : key = "api"
  · rw [hkey, hget, (h.leaf node hnode).mp hget]
  · exact h.elsewhere key hkey

/-- **Two files that agree but for the key** are redacted to the same table. -/
theorem redacted_congr {user user' : Document} (h : AgreeButKey user.table user'.table) :
    (Settings.mk (mergeInto defaults user.table)).redacted =
      (Settings.mk (mergeInto defaults user'.table)).redacted := by
  by_cases hleaf : ∃ node, node.isTable = false ∧ user.table.get "api" = some node
  · obtain ⟨node, hnode, hget⟩ := hleaf
    rw [h.eq_of_leaf hnode hget]
  · have hapi (node : Node) (hnode : node.isTable = false) :
        user.table.get "api" ≠ some node := fun hget => hleaf ⟨node, hnode, hget⟩
    have hapi' (node : Node) (hnode : node.isTable = false) :
        user'.table.get "api" ≠ some node := fun hget =>
      hapi node hnode ((h.leaf node hnode).mpr hget)
    rw [redacted_mergeInto user.sorted hapi, redacted_mergeInto user'.sorted hapi',
      hiddenApi_congr user.sorted user'.sorted h]
    have hsorted (document : Document) :
        ((mergeInto defaults document.table).insertOrAssign "api"
          (.table (hiddenApi user'.table))).Sorted := by
      have hhidden : (hiddenApi user'.table).Sorted := sorted_hiddenApi user'.sorted
      exact sorted_insertOrAssign (sorted_mergeInto sorted_defaults document.sorted) _ hhidden
    -- outside of `api`, both have been merged from the same entries
    refine eq_of_get_eq (hsorted user) (hsorted user') fun key => ?_
    rw [get_insertOrAssign, get_insertOrAssign]
    by_cases hkey : "api" = key
    · rw [if_pos hkey, if_pos hkey]
    · rw [if_neg hkey, if_neg hkey, get_mergeInto user.sorted, get_mergeInto user'.sorted,
        h.elsewhere key (Ne.symm hkey)]

/-- **The dump hides the key** and nothing else: two files that differ at most in it are
    dumped to the same text, whatever the serialization, and every other leaf of the merged
    table is in the table that is written. -/
theorem dump_hides_key (serialize : Table → String) (user user' : Document)
    (h : AgreeButKey user.table user'.table) :
    ∃ settings settings', load (.ok user.table) = .ok settings ∧
      load (.ok user'.table) = .ok settings' ∧
      settings.dump serialize = settings'.dump serialize ∧
      settings.dump serialize = serialize settings.redacted ∧
      ∀ path leaf, ¬ Path.kAPI_KEY <+: path → leaf.isTable = false →
        (settings.table.atPath path = some leaf → settings.redacted.atPath path = some leaf) ∧
        (settings'.table.atPath path = some leaf →
          settings.redacted.atPath path = some leaf) := by
  have hredacted := redacted_congr h
  refine ⟨_, _, rfl, rfl, congrArg serialize hredacted, rfl, fun path leaf hpath hleaf => ?_⟩
  refine ⟨atPath_redacted hpath hleaf, fun hfound => ?_⟩
  rw [hredacted]
  exact atPath_redacted hpath hleaf hfound

/-- A key alone in its table. -/
def secretOnly : Document where
  table := .ofList [("api", .table (.ofList [("api_key", .string "secret")]))]
  sorted := by
    simp only [ofList, Table.Sorted, Node.Sorted, keys, List.not_mem_nil, false_implies,
      implies_true, and_true]

def emptyFile : Document where
  table := .nil
  sorted := trivial

theorem agreeButKey_secretOnly : AgreeButKey secretOnly.table emptyFile.table where
  elsewhere _ hkey := get_cons_of_ne hkey.symm _ _
  leaf node hnode := by
    refine ⟨fun h => ?_, fun h => by cases h⟩
    rw [← Option.some.inj h] at hnode
    cases hnode
  beside _ hkey := get_cons_of_ne hkey.symm _ _

/-- The line of the key. -/
def keyLine (t : Table) : String :=
  match t.atPath ["api", "api_key"] with
  | some (.string key) => "api_key = '" ++ key ++ "'"
  | _ => ""

theorem dump_hides_key_secretOnly :
    ∃ settings settings', load (.ok secretOnly.table) = .ok settings ∧
      load (.ok emptyFile.table) = .ok settings' ∧
      settings.dump keyLine = settings'.dump keyLine ∧
      settings.dump keyLine = keyLine settings.redacted ∧
      ∀ path leaf, ¬ Path.kAPI_KEY <+: path → leaf.isTable = false →
        (settings.table.atPath path = some leaf → settings.redacted.atPath path = some leaf) ∧
        (settings'.table.atPath path = some leaf →
          settings.redacted.atPath path = some leaf) :=
  dump_hides_key keyLine secretOnly emptyFile agreeButKey_secretOnly

end Settings

end AVCapture
