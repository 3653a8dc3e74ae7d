import AVCapture.Encoding.AudioStreams
import AVCapture.Lib.Saturation

/-!
# The Order of the Streams in a Mix

`mix_samples` (`core/audio/AudioMixer.cpp`) adds one stream to the mixed buffer and clips
each sample to 16 bits before the next stream is added, and the streams come in the order in
which an unordered map is iterated. The samples of one index are a sum that saturates
(`Saturation.sum`).

## Main results

- `getElem?_mixRound`: a mixed sample is the saturating sum of the samples at its index
- `mixOrderFree_iff`: when the order of the streams does not matter
- `mixOrderFree_of_two`: with two streams it never does
-/

namespace AVCapture.Encoding

open AVCapture.Utils

/-! ## One index -/

/-- The samples at index `i`, of the streams whose current frame is longer than `i`. -/
def samplesAt (ids : List ℕ) (current : ℕ → Option (List Int16)) (i : ℕ) : List Int :=
  ids.filterMap fun deviceId => (current deviceId).bind fun samples => (pcm samples)[i]?

theorem mixSample_eq_add (a b : Int) : mixSample a b = Saturation.add (-32768) 32767 a b := rfl

/-- `mix_samples` at one index. -/
theorem getElem?_mixSamples (output input : List Int) (i : ℕ) :
    (mixSamples output input)[i]? = output[i]?.map fun a => (input[i]?).elim a (mixSample a) := by
  induction output generalizing input i with
  | nil => simp [mixSamples]
  | cons a output ih =>
    cases input with
    | nil => simp [mixSamples]
    | cons b input =>
      cases i with
      | zero => simp [mixSamples]
      | succ i => simpa [mixSamples] using ih input i

/-- All streams at one index: those without a sample there are passed over. -/
theorem getElem?_foldl_mixSamples (frames : List (List Int)) (output : List Int) (i : ℕ) :
    (frames.foldl mixSamples output)[i]? =
      output[i]?.map fun a => (frames.filterMap (·[i]?)).foldl mixSample a := by
  induction frames generalizing output with
  | nil => simp
  | cons frame frames ih =>
    rw [List.foldl_cons, ih, getElem?_mixSamples, Option.map_map]
    refine congrArg (Option.map · output[i]?) (funext fun a => ?_)
    cases hframe : frame[i]? with
    | none => simp [hframe]
    | some b => simp [hframe]

/-- **A mixed sample** is the saturating sum of the samples at its index. -/
theorem getElem?_mixRound (m : AudioMixer) (ids : List ℕ) (current : ℕ → Option (List Int16))
    {i : ℕ} (hi : i < m.mixedSize) :
    (m.mixRound ids current)[i]? =
      some (Saturation.sum (-32768) 32767 (samplesAt ids current i)) := by
  have hcolumn : (ids.filterMap fun deviceId => (current deviceId).map pcm).filterMap (·[i]?) =
      samplesAt ids current i := by
    rw [List.filterMap_filterMap]
    refine congrArg (List.filterMap · ids) (funext fun deviceId => ?_)
    cases current deviceId <;> rfl
  unfold AudioMixer.mixRound AudioMixer.mix
  rw [getElem?_foldl_mixSamples, List.getElem?_replicate, if_pos hi, Option.map_some, hcolumn]
  have hadd : mixSample = Saturation.add (-32768) 32767 :=
    funext fun a => funext fun b => mixSample_eq_add a b
  rw [hadd, Saturation.sum]

/-! ## All orders -/

/-- The mix is the same for any two orders of the streams, and each of its samples is the sum
    of the samples at its index, clamped once. -/
def MixOrderFree (m : AudioMixer) (streams : AudioStreams)
    (current : ℕ → Option (List Int16)) : Prop :=
  (∀ o₁ o₂ : List ℕ, o₁.Perm streams.ids → o₂.Perm streams.ids →
    m.mixRound o₁ current = m.mixRound o₂ current) ∧
  ∀ o : List ℕ, o.Perm streams.ids → ∀ i < m.mixedSize,
    (m.mixRound o current)[i]? =
      some (Saturation.clamp (-32768) 32767 (samplesAt streams.ids current i).sum)

/-- Every order of the results is the order of the results for an order of the list. -/
theorem exists_perm_filterMap {α β : Type} (f : α → Option β) {ys : List β} {l : List α}
    (h : ys.Perm (l.filterMap f)) : ∃ o : List α, o.Perm l ∧ o.filterMap f = ys := by
  induction ys generalizing l with
  | nil => exact ⟨l, List.Perm.refl l, h.nil_eq.symm⟩
  | cons y ys ih =>
    -- the element that gives `y` is put first
    obtain ⟨a, ha, hfa⟩ := List.mem_filterMap.mp (h.subset List.mem_cons_self)
    obtain ⟨l₁, l₂, rfl⟩ := List.append_of_mem ha
    have hrest : ys.Perm ((l₁ ++ l₂).filterMap f) := by
      have hmiddle := h.trans (List.perm_middle.filterMap f)
      rw [List.filterMap_cons_some hfa] at hmiddle
      exact hmiddle.cons_inv
    obtain ⟨o, ho, hys⟩ := ih hrest
    refine ⟨a :: o, (ho.cons a).trans List.perm_middle.symm, ?_⟩
    rw [List.filterMap_cons_some hfa, hys]

theorem mixOrderFree_of_fits {m : AudioMixer} {streams : AudioStreams}
    {current : ℕ → Option (List Int16)}
    (h : ∀ i < m.mixedSize, Saturation.Fits (-32768) 32767 (samplesAt streams.ids current i)) :
    MixOrderFree m streams current := by
  have hexact (o : List ℕ) (ho : o.Perm streams.ids) (i : ℕ) (hi : i < m.mixedSize) :
      (m.mixRound o current)[i]? =
        some (Saturation.clamp (-32768) 32767 (samplesAt streams.ids current i).sum) := by
    rw [getElem?_mixRound m o current hi]
    exact congrArg some
      ((Saturation.sum_eq_clamp_iff (by decide) (by decide) (by decide) _).mpr (h i hi) _
        (ho.filterMap _))
  refine ⟨fun o₁ o₂ h₁ h₂ => List.ext_getElem? fun i => ?_, hexact⟩
  by_cases hi : i < m.mixedSize
  · rw [hexact o₁ h₁ i hi, hexact o₂ h₂ i hi]
  · -- the buffers end at the same index
    have hlen (o : List ℕ) : (m.mixRound o current).length = m.mixedSize := m.length_mix _
    rw [List.getElem?_eq_none (by rw [hlen]; omega), List.getElem?_eq_none (by rw [hlen]; omega)]

theorem fits_of_mixOrderFree {m : AudioMixer} {streams : AudioStreams}
    {current : ℕ → Option (List Int16)} (h : MixOrderFree m streams current) {i : ℕ}
    (hi : i < m.mixedSize) :
    Saturation.Fits (-32768) 32767 (samplesAt streams.ids current i) := by
  apply (Saturation.sum_eq_clamp_iff (by decide) (by decide) (by decide) _).mp
  intro ys hys
  obtain ⟨o, ho, rfl⟩ := exists_perm_filterMap _ hys
  have hmixed := h.2 o ho i hi
  rw [getElem?_mixRound m o current hi, Option.some.injEq] at hmixed
  exact hmixed

/-- **The order of the streams does not matter** for a round, and the mix is the clamped sum,
    exactly if at each index of the buffer the samples have one sign, or the positive ones
    add up to at most 32767 and the negative ones to at least -32768. -/
theorem mixOrderFree_iff (m : AudioMixer) (deviceIds : List ℕ)
    (current : ℕ → Option (List Int16)) :
    MixOrderFree m (AudioStreams.addStreams deviceIds) current ↔
      ∀ i < m.mixedSize, Saturation.Fits (-32768) 32767
        (samplesAt (AudioStreams.addStreams deviceIds).ids current i) :=
  ⟨fun h _ hi => fits_of_mixOrderFree h hi, mixOrderFree_of_fits⟩

/-- Three streams, two loud and one that cancels one of them: the order in which the third
    one comes decides between 2767 and 30000. -/
theorem threeStreams_order :
    ¬ MixOrderFree { config := { bufferFrameSize := 1 } } (AudioStreams.addStreams [1, 2, 3])
      fun deviceId => some [if deviceId = 3 then -30000 else 30000] := by
  intro h
  have hsame := h.1 [1, 2, 3] [1, 3, 2] (by decide) (by decide)
  revert hsame
  decide

theorem pcm_bounds {samples : List Int16} {i : ℕ} {x : Int} (h : (pcm samples)[i]? = some x) :
    -32768 ≤ x ∧ x ≤ 32767 := by
  unfold pcm at h
  rw [List.getElem?_map, Option.map_eq_some_iff] at h
  obtain ⟨sample, _, rfl⟩ := h
  have hlow := sample.le_toInt
  have hhigh := sample.toInt_lt
  omega

/-- **Two streams**, which is what the capturer registers, never depend on the order. -/
theorem mixOrderFree_of_two (m : AudioMixer) (streams : AudioStreams)
    (htwo : streams.ids.length ≤ 2) (current : ℕ → Option (List Int16)) :
    MixOrderFree m streams current := by
  apply mixOrderFree_of_fits
  intro i _
  have hlen : (samplesAt streams.ids current i).length ≤ 2 :=
    (List.length_filterMap_le _ _).trans htwo
  have hbounds : ∀ x ∈ samplesAt streams.ids current i, -32768 ≤ x ∧ x ≤ 32767 := by
    intro x hx
    obtain ⟨deviceId, _, hdevice⟩ := List.mem_filterMap.mp hx
    obtain ⟨samples, _, hsample⟩ := Option.bind_eq_some_iff.mp hdevice
    exact pcm_bounds hsample
  generalize samplesAt streams.ids current i = xs at hlen hbounds
  cases xs with
  | nil => exact Or.inl rfl
  | cons x xs =>
    cases xs with
    | nil => exact Saturation.fits_of_one x
    | cons y xs =>
      cases xs with
      | nil => exact Saturation.fits_of_two (hbounds x (by simp)) (hbounds y (by simp))
      | cons z xs => simp at hlen

end AVCapture.Encoding
