import AVCapture.Core.RollingSegments
import AVCapture.Lib.ConcatScript

/-!
# The List of an Export

The text of `list.txt` that `RollingSegment::export_last_segments` writes
(`core/RollingSegments.cpp`): each path of the exported window between single quotes, with
nothing escaped. `ConcatScript` is how `ffmpeg` reads it.

## Main results

- `concatRoundTrips_iff`: the directories whose lists are read back
- `quote_mem_ringDir_iff`: when the recorder's directory is one of them
-/

namespace AVCapture.Core

/-- `list << "file '" << seg_path(idx).string() << "'\n"` -/
def listLine (cfg : Config) (idx : Nat) : String := "file '" ++ segPath cfg idx ++ "'\n"

/-- The contents of `list.txt`. -/
def listText (cfg : Config) (curSeq segments : Nat) : String :=
  String.join ((exportWindow cfg curSeq segments).map (listLine cfg))

/-- `ffmpeg` reads the paths of the window from the list, in their order. -/
def ConcatRoundTrips (cfg : Config) (curSeq segments : Nat) : Prop :=
  ConcatScript.read (listText cfg curSeq segments).toList =
    (exportWindow cfg curSeq segments).map fun idx => (segPath cfg idx).toList

/-! ## The characters of a path -/

/-- A segment name has neither a quote nor a line break in it. -/
theorem notMem_segName {c : Char} (h : c = '\'' ∨ c = '\n') (idx : Nat) :
    c ∉ (segName idx).toList := by
  have hdigits : c ∉ (toString idx).toList := by
    rw [Nat.toString_eq_ofList_toDigits, String.toList_ofList]
    intro hmem
    have hdigit : c.isDigit = true := Nat.isDigit_of_mem_toDigits (by decide) (by decide) hmem
    rcases h with rfl | rfl <;> cases hdigit
  unfold segName
  simp only [String.toList_append, String.toList_ofList, List.mem_append, List.mem_replicate,
    not_or]
  refine ⟨⟨⟨?_, ?_⟩, hdigits⟩, ?_⟩
  · rcases h with rfl | rfl <;> decide
  · rcases h with rfl | rfl <;> exact fun hzero => absurd hzero.2 (by decide)
  · rcases h with rfl | rfl <;> decide

theorem mem_inDir_iff {c : Char} (hsep : c ≠ '/') {dir name : String} (hname : c ∉ name.toList) :
    c ∈ (inDir dir name).toList ↔ c ∈ dir.toList := by
  unfold inDir
  split
  · simp [hname]
  · simp [hname, hsep]

theorem mem_segPath_iff {c : Char} (h : c = '\'' ∨ c = '\n') (cfg : Config) (idx : Nat) :
    c ∈ (segPath cfg idx).toList ↔ c ∈ cfg.dir.toList := by
  apply mem_inDir_iff _ (notMem_segName h idx)
  rcases h with rfl | rfl <;> decide

/-! ## Reading the list -/

theorem toList_listText (cfg : Config) (curSeq segments : Nat) :
    (listText cfg curSeq segments).toList =
      ConcatScript.script ((exportWindow cfg curSeq segments).map fun idx =>
        (segPath cfg idx).toList) := by
  unfold listText ConcatScript.script
  rw [String.toList_join, List.flatMap_map, List.flatMap_map]
  refine List.flatMap_congr fun idx _ => ?_
  show (listLine cfg idx).toList =
    "file '".toList ++ (segPath cfg idx).toList ++ "'\n".toList
  rw [listLine, String.toList_append, String.toList_append]

theorem exportWindow_eq_nil_iff (cfg : Config) (curSeq segments : Nat) :
    exportWindow cfg curSeq segments = [] ↔
      curSeq = 0 ∨ segments = 0 ∨ cfg.ringSize = 0 := by
  rw [exportWindow_eq, List.map_eq_nil_iff, List.eq_nil_iff_length_eq_zero]
  unfold Ring.window
  rw [List.length_range']
  omega

/-- **The list is read back** exactly if there is no quote in the directory, or nothing to
    export. -/
theorem concatRoundTrips_iff (cfg : Config) (hdir : '\n' ∉ cfg.dir.toList)
    (curSeq segments : Nat) :
    ConcatRoundTrips cfg curSeq segments ↔
      '\'' ∉ cfg.dir.toList ∨ curSeq = 0 ∨ segments = 0 ∨ cfg.ringSize = 0 := by
  unfold ConcatRoundTrips
  rw [toList_listText, ConcatScript.read_script_eq_iff, ← exportWindow_eq_nil_iff]
  · simp only [List.forall_mem_map, mem_segPath_iff (Or.inl rfl)]
    refine ⟨fun h => ?_, fun h idx hidx => ?_⟩
    · by_cases hempty : exportWindow cfg curSeq segments = []
      · exact Or.inr hempty
      · obtain ⟨idx, hidx⟩ := List.exists_mem_of_ne_nil _ hempty
        exact Or.inl (h idx hidx)
    · rcases h with hquote | hempty
      · exact hquote
      · rw [hempty] at hidx
        exact absurd hidx List.not_mem_nil
  · simp only [List.forall_mem_map, mem_segPath_iff (Or.inr rfl)]
    exact fun _ _ => hdir

/-- The witness: a path with a space in it. -/
theorem concatRoundTrips_iff_space :
    ConcatRoundTrips { dir := "/tmp/my ring", ringSize := 5 } 3 2 :=
  (concatRoundTrips_iff _ (by decide) 3 2).mpr (Or.inl (by decide))

/-- The temporary directory of a user named O'Brien: every path in the list is read without
    the quote. -/
theorem quoteInDirectory_breaks :
    ¬ ConcatRoundTrips { dir := "/home/o'brien/tmp/AVCapture/ring", ringSize := 5 } 3 2 := by
  unfold ConcatRoundTrips
  rw [toList_listText, ConcatScript.read_script_eq_iff]
  · intro h
    refine h _ (List.mem_map_of_mem (show 1 ∈ exportWindow _ 3 2 by decide))
      ((mem_segPath_iff (Or.inl rfl) _ 1).mpr (by decide))
  · simp only [List.forall_mem_map, mem_segPath_iff (Or.inr rfl)]
    exact fun _ _ => by decide

/-- **The recorder's directory** below the temporary one. -/
theorem quote_mem_ringDir_iff (tempDirectory : String) :
    '\'' ∈ (inDir (inDir tempDirectory "AVCapture") "ring").toList ↔
      '\'' ∈ tempDirectory.toList := by
  rw [mem_inDir_iff (by decide) (by decide), mem_inDir_iff (by decide) (by decide)]

end AVCapture.Core
