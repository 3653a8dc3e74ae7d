import AVCapture.Lib.Transition
import AVCapture.Platform.FrameRotation

/-!
# Reusing a Frame on Linux

Model of `ScreenRecorderLinux::capture_frame` (`platform/ScreenRecorderLinux.cpp`) with the
image buffers as state. A capture that fails pushes the buffer that `last_frame_` points to
once more. Depending on the path and the rotation that is the pixels of the shared-memory
image, the rotation buffer, or those of an `XImage` which the capture that set it has
destroyed; and before the first success it is whatever the member was left with.

## Main results

- `reuse_iff`: when one failing capture reuses the last captured frame
- `reusesLastFrame_iff`: the runs in which every one does
-/

namespace AVCapture.Platform

open AVCapture.Core Transition

/-! ## The machine -/

/-- What `last_frame_` points to. It has no initialiser: before the first success it is
    `null` or `wild`. -/
inductive FramePtr where
  | null
  | wild
  | shm
  | image (id : ℕ)
  | rotation
  deriving DecidableEq, Repr

/-- What one call of `capture_frame` meets. A grab that succeeds has filled an image with
    `data`, also when its depth is then found to be wrong. -/
inductive GrabOutcome where
  | success (data : List UInt8)
  | grabFails
  | wrongDepth (data : List UInt8)
  deriving DecidableEq, Repr

/-- A frame handed to `push_frame`: the bytes, if they are still there, and the stride. -/
structure PushedFrame where
  data : Option (List UInt8)
  stride : ℕ
  deriving DecidableEq, Repr

/-- The buffers of the recorder. `images` are the `XImage`s that exist, and `shm` is the
    data of `ximage_`. Recorded besides: what the last successful capture has pushed, and
    what each failing one has pushed, with what was the last success then. -/
structure LinuxFrames where
  shm : List UInt8 := []
  images : List (ℕ × List UInt8) := []
  nextImage : ℕ := 0
  rotationBuffer : List UInt8 := []
  lastFrame : FramePtr
  finalStride : ℕ := 0
  captured : Option PushedFrame := none
  reused : List (PushedFrame × Option PushedFrame) := []

/-- What does not change during a run: the screen, `use_shm_`, and the `bytes_per_line` of
    its images. -/
structure LinuxSetup where
  screen : Screen
  useShm : Bool
  bytesPerLine : ℕ

namespace LinuxFrames

def buffer (s : LinuxFrames) : FramePtr → Option (List UInt8)
  | .null | .wild => none
  | .shm => some s.shm
  | .image id => s.images.lookup id
  | .rotation => some s.rotationBuffer

/-- What `push_frame(last_frame_, final_stride_, pts)` is given. -/
def lastPush (s : LinuxFrames) : PushedFrame :=
  { data := s.buffer s.lastFrame, stride := s.finalStride }

/-- The pointer to the data of the image that a grab fills. -/
def grabPtr (setup : LinuxSetup) (s : LinuxFrames) : FramePtr :=
  if setup.useShm then .shm else .image s.nextImage

/-- `XShmGetImage` fills `ximage_`; `XGetImage` creates an image. -/
def grab (setup : LinuxSetup) (s : LinuxFrames) (data : List UInt8) : LinuxFrames :=
  if setup.useShm then { s with shm := data }
  else
    { s with images := (s.nextImage, data) :: s.images, nextImage := s.nextImage + 1 }

/-- `XDestroyImage`, for an image of `XGetImage`. -/
def destroy (setup : LinuxSetup) (s : LinuxFrames) (id : ℕ) : LinuxFrames :=
  if setup.useShm then s else { s with images := s.images.filter fun image => image.1 ≠ id }

/-- What each of the failing paths does with a previous frame, if `last_frame_` is not
    null. -/
def reuseLastFrame (s : LinuxFrames) : LinuxFrames :=
  if s.lastFrame ≠ .null then { s with reused := s.reused ++ [(s.lastPush, s.captured)] } else s

/-- `prepare_frame_data` on the grabbed image at `ptr`, and the push. -/
def pushGrabbed (setup : LinuxSetup) (s : LinuxFrames) (ptr : FramePtr) (data : List UInt8) :
    LinuxFrames :=
  let prepared := prepareFrameData setup.screen.rotation setup.screen.width setup.screen.height
    s.rotationBuffer data setup.bytesPerLine
  let s :=
    { s with
      rotationBuffer := prepared.rotationBuffer
      lastFrame := if prepared.inRotationBuffer then .rotation else ptr
      finalStride := prepared.outStride }
  { s with captured := some s.lastPush }

def next (setup : LinuxSetup) (s : LinuxFrames) : GrabOutcome → LinuxFrames
  | .grabFails => s.reuseLastFrame
  | .wrongDepth data => ((s.grab setup data).destroy setup s.nextImage).reuseLastFrame
  | .success data =>
    ((s.grab setup data).pushGrabbed setup (s.grabPtr setup) data).destroy setup s.nextImage

def Fresh (s : LinuxFrames) : Prop :=
  s.images = [] ∧ (s.lastFrame = .null ∨ s.lastFrame = .wild) ∧ s.captured = none ∧ s.reused = []

/-- Every frame that a failing capture has pushed was there, and was the one that the last
    successful capture had pushed. -/
def ReusesLastFrame (s : LinuxFrames) : Prop :=
  ∀ r ∈ s.reused, r.1.data.isSome ∧ r.2 = some r.1

instance (s : LinuxFrames) : Decidable s.ReusesLastFrame :=
  inferInstanceAs (Decidable (∀ r ∈ s.reused, _ ∧ _))

/-- A capture has succeeded, and its frame is kept: in the rotation buffer, or in the
    shared-memory image. -/
def KeepsFrame (setup : LinuxSetup) (s : LinuxFrames) : Prop :=
  s.captured ≠ none ∧ (Turned setup.screen.rotation ∨ setup.useShm = true)

/-- The condition on a call: a failing one comes when `last_frame_` is null or its frame is
    kept; and a grab of the wrong depth does not put other pixels into the shared-memory
    image in which an upright frame is kept. -/
def ReuseSafe (setup : LinuxSetup) (s : LinuxFrames) : GrabOutcome → Prop
  | .success _ => True
  | .grabFails => s.lastFrame = .null ∨ s.KeepsFrame setup
  | .wrongDepth data => s.lastFrame = .null ∨
      (s.KeepsFrame setup ∧ (Turned setup.screen.rotation ∨ data = s.shm))

end LinuxFrames

def linuxFrames (setup : LinuxSetup) : System LinuxFrames GrabOutcome :=
  System.ofCommands LinuxFrames.Fresh (fun _ _ => True) (LinuxFrames.next setup)

/-! ## One call -/

/-- Between two calls: no image of `XGetImage` exists, and the frame of the last success is
    where `last_frame_` points, unless that was such an image. -/
structure FrameInv (setup : LinuxSetup) (s : LinuxFrames) : Prop where
  images : s.images = []
  first : s.captured = none → s.lastFrame = .null ∨ s.lastFrame = .wild
  assigned : s.captured ≠ none → s.lastFrame ≠ .null
  kept : s.KeepsFrame setup → s.captured = some s.lastPush
  lost : s.captured ≠ none → ¬ s.KeepsFrame setup → ∃ id, s.lastFrame = .image id
  shared : s.captured ≠ none → ¬ Turned setup.screen.rotation → setup.useShm = true →
    s.lastFrame = .shm
  turned : s.captured ≠ none → Turned setup.screen.rotation → s.lastFrame = .rotation

section Calls

variable {setup : LinuxSetup} {s : LinuxFrames}

theorem reuseLastFrame_of_null (h : s.lastFrame = .null) : s.reuseLastFrame = s :=
  if_neg (not_not.mpr h)

theorem reused_of_not_null (h : s.lastFrame ≠ .null) :
    s.reuseLastFrame.reused = s.reused ++ [(s.lastPush, s.captured)] := by
  unfold LinuxFrames.reuseLastFrame
  rw [if_pos h]

/-- A kept frame can be read. -/
theorem lastPush_isSome (h : FrameInv setup s) (hkept : s.KeepsFrame setup) :
    s.lastPush.data.isSome = true := by
  by_cases hturned : Turned setup.screen.rotation
  · simp [LinuxFrames.lastPush, h.turned hkept.1 hturned, LinuxFrames.buffer]
  · have hshm : setup.useShm = true := hkept.2.resolve_left hturned
    simp [LinuxFrames.lastPush, h.shared hkept.1 hturned hshm, LinuxFrames.buffer]

/-- A frame that is not kept cannot be read any more. -/
theorem lastPush_eq_none (h : FrameInv setup s) (hlost : ¬ s.KeepsFrame setup) :
    s.lastPush.data = none := by
  by_cases hcaptured : s.captured = none
  · rcases h.first hcaptured with hptr | hptr
    · simp [LinuxFrames.lastPush, hptr, LinuxFrames.buffer]
    · simp [LinuxFrames.lastPush, hptr, LinuxFrames.buffer]
  · obtain ⟨id, hptr⟩ := h.lost hcaptured hlost
    simp [LinuxFrames.lastPush, hptr, LinuxFrames.buffer, h.images]

/-- **One failing capture** reuses the last captured frame exactly when there is nothing to
    reuse or the frame is kept. -/
theorem reuse_iff (h : FrameInv setup s) (hreuses : s.ReusesLastFrame) :
    s.reuseLastFrame.ReusesLastFrame ↔ s.lastFrame = .null ∨ s.KeepsFrame setup := by
  by_cases hnull : s.lastFrame = .null
  · rw [reuseLastFrame_of_null hnull]
    exact ⟨fun _ => Or.inl hnull, fun _ => hreuses⟩
  · unfold LinuxFrames.ReusesLastFrame
    rw [reused_of_not_null hnull]
    refine ⟨fun hall => Or.inr ?_, fun hkept => ?_⟩
    · -- a frame that is not kept is gone, or was never there
      by_contra hlost
      have hlast := hall _ (List.mem_append_right _ List.mem_cons_self)
      rw [lastPush_eq_none h hlost] at hlast
      cases hlast.1
    · have hkept : s.KeepsFrame setup := hkept.resolve_left hnull
      intro r hr
      rcases List.mem_append.mp hr with hr | hr
      · exact hreuses r hr
      · obtain rfl := List.mem_singleton.mp hr
        exact ⟨lastPush_isSome h hkept, h.kept hkept⟩

/-- The buffers of a recorder are not touched by a reuse. -/
theorem frameInv_reuseLastFrame (h : FrameInv setup s) : FrameInv setup s.reuseLastFrame := by
  unfold LinuxFrames.reuseLastFrame
  split
  · exact ⟨h.images, h.first, h.assigned, h.kept, h.lost, h.shared, h.turned⟩
  · exact h

/-- A grab of the wrong depth, after its image is destroyed again: all that can be left of
    it are the pixels in the shared-memory image. -/
theorem destroy_grab (himages : s.images = []) (data : List UInt8) :
    (s.grab setup data).destroy setup s.nextImage =
      if setup.useShm then { s with shm := data } else { s with nextImage := s.nextImage + 1 } := by
  unfold LinuxFrames.grab LinuxFrames.destroy
  split
  · rfl
  · simp [himages]

/-- What a grab of the wrong depth leaves alone. -/
theorem frameInv_wrongDepth (h : FrameInv setup s) {data : List UInt8}
    (hsame : setup.useShm = true →
      Turned setup.screen.rotation ∨ data = s.shm ∨ s.captured = none) :
    FrameInv setup ((s.grab setup data).destroy setup s.nextImage) := by
  rw [destroy_grab h.images]
  split
  · rename_i hshm
    refine ⟨h.images, h.first, h.assigned, fun hkept => ?_, h.lost, h.shared, h.turned⟩
    have hpush : s.captured = some s.lastPush := h.kept hkept
    rcases hsame hshm with hturned | rfl | hnone
    · -- the frame is in the rotation buffer
      have hptr := h.turned hkept.1 hturned
      show s.captured = _
      rw [hpush]
      simp [LinuxFrames.lastPush, LinuxFrames.buffer, hptr]
    · exact hpush
    · exact absurd hnone hkept.1
  · exact ⟨h.images, h.first, h.assigned, h.kept, h.lost, h.shared, h.turned⟩

theorem destroy_grab_frame (setup : LinuxSetup) (s : LinuxFrames) (data : List UInt8) :
    ((s.grab setup data).destroy setup s.nextImage).lastFrame = s.lastFrame ∧
      ((s.grab setup data).destroy setup s.nextImage).captured = s.captured ∧
      ((s.grab setup data).destroy setup s.nextImage).reused = s.reused := by
  unfold LinuxFrames.grab LinuxFrames.destroy
  split
  · exact ⟨rfl, rfl, rfl⟩
  · exact ⟨rfl, rfl, rfl⟩

/-- Other pixels in the shared-memory image of an upright frame are pushed in its place. -/
theorem wrongDepth_pushes_other (h : FrameInv setup s) (hcaptured : s.captured ≠ none)
    (hshm : setup.useShm = true) (hupright : ¬ Turned setup.screen.rotation) {data : List UInt8}
    (hother : data ≠ s.shm) : ¬ (s.next setup (.wrongDepth data)).ReusesLastFrame := by
  intro hall
  obtain ⟨hlastFrame, hsuccess, _⟩ := destroy_grab_frame setup s data
  have hptr := h.shared hcaptured hupright hshm
  have hkept := h.kept ⟨hcaptured, Or.inr hshm⟩
  have hnull : ((s.grab setup data).destroy setup s.nextImage).lastFrame ≠ .null := by
    rw [hlastFrame]
    exact h.assigned hcaptured
  have hlast := hall _ (by
    show _ ∈ (LinuxFrames.reuseLastFrame _).reused
    rw [reused_of_not_null hnull]
    exact List.mem_append_right _ List.mem_cons_self)
  have heq := hlast.2
  -- what is pushed now is the new content of the image
  rw [hsuccess, destroy_grab h.images, if_pos hshm, hkept] at heq
  simp [LinuxFrames.lastPush, LinuxFrames.buffer, hptr] at heq
  exact hother heq.symm

/-- **A grab of the wrong depth** reuses the last captured frame exactly when it meets its
    condition. -/
theorem wrongDepth_iff (h : FrameInv setup s) (hreuses : s.ReusesLastFrame) (data : List UInt8) :
    (s.next setup (.wrongDepth data)).ReusesLastFrame ↔ s.ReuseSafe setup (.wrongDepth data) := by
  obtain ⟨hlastFrame, hsuccess, hreused⟩ := destroy_grab_frame setup s data
  -- as long as the kept pixels are not overwritten, this is one more failing capture
  have hsafe (hsame : setup.useShm = true →
      Turned setup.screen.rotation ∨ data = s.shm ∨ s.captured = none) :
      (s.next setup (.wrongDepth data)).ReusesLastFrame ↔
        s.lastFrame = .null ∨ s.KeepsFrame setup := by
    have hiff := reuse_iff (frameInv_wrongDepth h hsame) (by
      unfold LinuxFrames.ReusesLastFrame
      rw [hreused]
      exact hreuses)
    unfold LinuxFrames.KeepsFrame at hiff
    rw [hlastFrame, hsuccess] at hiff
    exact hiff
  by_cases hturned : Turned setup.screen.rotation
  · rw [hsafe fun _ => Or.inl hturned]
    exact or_congr_right ⟨fun hkept => ⟨hkept, Or.inl hturned⟩, fun h => h.1⟩
  · by_cases hsame : data = s.shm
    · rw [hsafe fun _ => Or.inr (Or.inl hsame)]
      exact or_congr_right ⟨fun hkept => ⟨hkept, Or.inr hsame⟩, fun h => h.1⟩
    · by_cases hkept : s.KeepsFrame setup
      · -- the frame was kept in the shared-memory image until now
        have hshm : setup.useShm = true := hkept.2.resolve_left hturned
        refine ⟨fun hall => absurd hall (wrongDepth_pushes_other h hkept.1 hshm hturned hsame), ?_⟩
        intro hok
        rcases hok with hnull | hok
        · exact absurd hnull (h.assigned hkept.1)
        · exact absurd hok.2 (not_or.mpr ⟨hturned, hsame⟩)
      · have hnone : setup.useShm = true → s.captured = none := by
          intro hshm
          by_contra hcaptured
          exact hkept ⟨hcaptured, Or.inr hshm⟩
        rw [hsafe fun hshm => Or.inr (Or.inr (hnone hshm))]
        exact or_congr_right ⟨fun h => absurd h hkept, fun h => absurd h.1 hkept⟩

/-! ## A successful capture -/

theorem lastFrame_pushGrabbed_of_turned (hturned : Turned setup.screen.rotation) (ptr : FramePtr)
    (data : List UInt8) :
    (s.pushGrabbed setup ptr data).lastFrame = .rotation := by
  unfold LinuxFrames.pushGrabbed
  simp [inRotationBuffer_of_turned hturned]

theorem lastFrame_pushGrabbed_of_upright (hupright : ¬ Turned setup.screen.rotation)
    (ptr : FramePtr) (data : List UInt8) : (s.pushGrabbed setup ptr data).lastFrame = ptr := by
  unfold LinuxFrames.pushGrabbed
  simp [prepareFrameData_of_not_turned hupright]

/-- What a success establishes, from any state between two calls. -/
theorem frameInv_success (himages : s.images = []) (data : List UInt8) :
    FrameInv setup (s.next setup (.success data)) := by
  by_cases hshm : setup.useShm = true
  · -- nothing is destroyed, and what was pushed is still where it was
    have hnext : s.next setup (.success data) =
        ({ s with shm := data } : LinuxFrames).pushGrabbed setup .shm data := by
      simp [LinuxFrames.next, LinuxFrames.grab, LinuxFrames.destroy, LinuxFrames.grabPtr, hshm]
    rw [hnext]
    refine ⟨himages, nofun, fun _ => ?_, fun _ => rfl, fun h hlost => ?_, fun _ hupright _ => ?_,
      fun _ hturned => lastFrame_pushGrabbed_of_turned hturned _ _⟩
    · by_cases hturned : Turned setup.screen.rotation
      · rw [lastFrame_pushGrabbed_of_turned hturned]
        nofun
      · rw [lastFrame_pushGrabbed_of_upright hturned]
        nofun
    · exact absurd ⟨h, Or.inr hshm⟩ hlost
    · exact lastFrame_pushGrabbed_of_upright hupright _ _
  · have hnext : s.next setup (.success data) =
        { (LinuxFrames.pushGrabbed setup
            { s with images := (s.nextImage, data) :: s.images, nextImage := s.nextImage + 1 }
            (.image s.nextImage) data) with images := [] } := by
      simp [LinuxFrames.next, LinuxFrames.grab, LinuxFrames.destroy, LinuxFrames.grabPtr, hshm,
        himages, LinuxFrames.pushGrabbed]
    rw [hnext]
    refine ⟨rfl, nofun, fun _ => ?_, fun hkept => ?_, fun _ hlost => ⟨s.nextImage, ?_⟩,
      fun _ _ h => absurd h hshm, fun _ hturned => lastFrame_pushGrabbed_of_turned hturned _ _⟩
    · by_cases hturned : Turned setup.screen.rotation
      · show (LinuxFrames.pushGrabbed _ _ _ _).lastFrame ≠ _
        rw [lastFrame_pushGrabbed_of_turned hturned]
        nofun
      · show (LinuxFrames.pushGrabbed _ _ _ _).lastFrame ≠ _
        rw [lastFrame_pushGrabbed_of_upright hturned]
        nofun
    · -- the image is gone, but a turned frame is in the rotation buffer
      have hturned : Turned setup.screen.rotation := hkept.2.resolve_right hshm
      simp [LinuxFrames.pushGrabbed, LinuxFrames.lastPush, inRotationBuffer_of_turned hturned,
        LinuxFrames.buffer]
    · have hupright : ¬ Turned setup.screen.rotation := fun hturned =>
        hlost ⟨nofun, Or.inl hturned⟩
      exact lastFrame_pushGrabbed_of_upright hupright _ _

theorem reused_success (data : List UInt8) :
    (s.next setup (.success data)).reused = s.reused := by
  simp only [LinuxFrames.next, LinuxFrames.destroy, LinuxFrames.pushGrabbed, LinuxFrames.grab]
  split <;> rfl

/-! ## Every run -/

theorem frameInv_fresh (h : s.Fresh) : FrameInv setup s := by
  obtain ⟨himages, hptr, hnone, _⟩ := h
  exact ⟨himages, fun _ => hptr, fun h => absurd hnone h, fun hkept => absurd hnone hkept.1,
    fun h => absurd hnone h, fun h => absurd hnone h, fun h => absurd hnone h⟩

theorem next_reuses_iff (h : FrameInv setup s) (hreuses : s.ReusesLastFrame) (out : GrabOutcome) :
    (s.next setup out).ReusesLastFrame ↔ s.ReuseSafe setup out := by
  cases out with
  | success data =>
    refine ⟨fun _ => trivial, fun _ => ?_⟩
    unfold LinuxFrames.ReusesLastFrame
    rw [reused_success]
    exact hreuses
  | grabFails => exact reuse_iff h hreuses
  | wrongDepth data => exact wrongDepth_iff h hreuses data

theorem frameInv_next (h : FrameInv setup s) {out : GrabOutcome} (hok : s.ReuseSafe setup out) :
    FrameInv setup (s.next setup out) := by
  cases out with
  | success data => exact frameInv_success h.images data
  | grabFails => exact frameInv_reuseLastFrame h
  | wrongDepth data =>
    apply frameInv_reuseLastFrame
    apply frameInv_wrongDepth h
    intro _
    rcases hok with hnull | hok
    · -- nothing has been captured yet
      refine Or.inr (Or.inr ?_)
      by_contra hcaptured
      exact h.assigned hcaptured hnull
    · exact hok.2.imp id Or.inl

end Calls

/-- **Which runs reuse only the last captured frame**: from a fresh recorder, with either
    capture path and any rotation, every failing capture that pushes a frame pushes the one
    of the most recent success, from a buffer that still exists, exactly when each failing
    capture meets its condition. -/
theorem reusesLastFrame_iff (setup : LinuxSetup) (s : LinuxFrames) (hfresh : s.Fresh)
    (outcomes : List GrabOutcome) :
    Along (linuxFrames setup) LinuxFrames.ReusesLastFrame s outcomes ↔
      Guarded (linuxFrames setup) (LinuxFrames.ReuseSafe setup) s outcomes := by
  have hreuses : s.ReusesLastFrame := by
    unfold LinuxFrames.ReusesLastFrame
    rw [hfresh.2.2.2]
    exact nofun
  have hinv : ∀ (s : LinuxFrames) (out : GrabOutcome),
      FrameInv setup s ∧ s.ReusesLastFrame → True → s.ReuseSafe setup out →
      FrameInv setup (s.next setup out) ∧ (s.next setup out).ReusesLastFrame :=
    fun s out hI _ hok => ⟨frameInv_next hI.1 hok, (next_reuses_iff hI.1 hI.2 out).mpr hok⟩
  have hstep : ∀ (s : LinuxFrames) (out : GrabOutcome),
      FrameInv setup s ∧ s.ReusesLastFrame → True →
      ((s.next setup out).ReusesLastFrame ↔ s.ReuseSafe setup out) :=
    fun s out hI _ => next_reuses_iff hI.1 hI.2 out
  exact along_iff_guarded_ofCommands hinv hstep ⟨frameInv_fresh hfresh, hreuses⟩ hreuses outcomes

/-- One pixel, without shared memory, with four bytes in its row. -/
def oneOffSetup (rotation : RotationType) : LinuxSetup :=
  { screen :=
      { width := 1, height := 1, rotation := rotation, width_pos := by decide
        height_pos := by decide }
    useShm := false
    bytesPerLine := 4 }

/-- The witness: a turned frame is kept over a failed grab. -/
theorem reusesLastFrame_iff_turned :
    Along (linuxFrames (oneOffSetup .rotate180)) LinuxFrames.ReusesLastFrame
      { lastFrame := .null } [.grabFails, .success [1, 2, 3, 4], .grabFails] := by
  refine (reusesLastFrame_iff _ _ ⟨rfl, Or.inl rfl, rfl, rfl⟩ _).mpr ?_
  intro s₁ h₁
  obtain rfl := Option.some.inj h₁
  refine ⟨Or.inl rfl, fun s₂ h₂ => ⟨trivial, ?_⟩⟩
  obtain rfl := Option.some.inj h₂
  exact fun _ _ => ⟨Or.inr ⟨nofun, Or.inl (by decide)⟩, trivial⟩

/-- An upright frame without shared memory: the grab that fails after it pushes the data of
    an image that was destroyed. -/
theorem destroyedImage_reused :
    ∃ s', run (linuxFrames (oneOffSetup .identity)) anyStep { lastFrame := .null }
        [.success [1, 2, 3, 4], .grabFails] = some s' ∧
      s'.reused = [({ data := none, stride := 4 },
        some { data := some [1, 2, 3, 4], stride := 4 })] ∧
      ¬ s'.ReusesLastFrame :=
  ⟨_, rfl, rfl, by decide⟩

end AVCapture.Platform
