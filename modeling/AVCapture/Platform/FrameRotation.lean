import AVCapture.Core.RecordingConfig
import AVCapture.Lib.Raster

/-!
# Screen Rotation

Model of `ScreenRecorderBase::prepare_frame_data` (`core/video/ScreenRecorderBase.cpp`),
on buffers of bytes. A frame of a turned screen is copied into `rotation_buffer_`, pixel by
pixel; each branch of the function is a loop over the source with its own formula for the
offset it writes. A frame of an upright screen is passed on as it is.

## Main results

- `turned_spec`: a branch whose formula follows a bijection of the pixels is exact
- `prepareFrameData_turns`: the three branches are one, two and three quarter turns
-/

namespace AVCapture.Platform

open AVCapture.Core Raster

/-! ## The screen -/

/-- What `init_platform` has found: `width_`, `height_` and `rotation_`. -/
structure Screen where
  width : ℕ
  height : ℕ
  rotation : RotationType
  width_pos : 1 ≤ width
  height_pos : 1 ≤ height

/-- The encoder's frames lie across those of the screen. -/
def QuarterTurned (rotation : RotationType) : Prop :=
  rotation = .rotate90 ∨ rotation = .rotate270

instance (rotation : RotationType) : Decidable (QuarterTurned rotation) :=
  inferInstanceAs (Decidable (_ ∨ _))

/-- The height in the encoder queue's configuration. -/
def Screen.encoderHeight (screen : Screen) : ℕ :=
  if QuarterTurned screen.rotation then screen.width else screen.height

/-! ## The function -/

/-- The rotations for which `prepare_frame_data` makes a copy. -/
def Turned (rotation : RotationType) : Prop :=
  rotation = .rotate90 ∨ rotation = .rotate180 ∨ rotation = .rotate270

instance (rotation : RotationType) : Decidable (Turned rotation) :=
  inferInstanceAs (Decidable (_ ∨ _ ∨ _))

/-- `rotation_buffer_.resize(size)`, made only when the size differs. -/
def resize (size : ℕ) (bytes : List UInt8) : List UInt8 :=
  if bytes.length ≠ size then bytes.take size ++ List.replicate (size - bytes.length) 0 else bytes

@[simp] theorem length_resize (size : ℕ) (bytes : List UInt8) :
    (resize size bytes).length = size := by
  unfold resize
  split
  · simp
    omega
  · rename_i h
    exact not_not.mp h

/-- `x * height_ * 4 + (height_ - 1 - y) * 4` -/
def rotate90Offset (height y x : ℕ) : ℕ := x * height * 4 + (height - 1 - y) * 4

/-- `(height_ - 1 - y) * width_ * 4 + (width_ - 1 - x) * 4` -/
def rotate180Offset (width height y x : ℕ) : ℕ :=
  (height - 1 - y) * width * 4 + (width - 1 - x) * 4

/-- `(width_ - 1 - x) * height_ * 4 + y * 4` -/
def rotate270Offset (width height y x : ℕ) : ℕ := (width - 1 - x) * height * 4 + y * 4

/-- The pixel copies of the branch for a rotation, in the order of its loops. -/
def rotationCopies (rotation : RotationType) (width height srcStride : ℕ) : List (ℕ × ℕ) :=
  match rotation with
  | .unspecified | .identity => []
  | .rotate90 => copyLoop height width srcStride (rotate90Offset height)
  | .rotate180 => copyLoop height width srcStride (rotate180Offset width height)
  | .rotate270 => copyLoop height width srcStride (rotate270Offset width height)

/-- What a call leaves: whether the pointer it returns is that of `rotation_buffer_` or
    `src_data` itself, the stride it has stored, and the rotation buffer. -/
structure PreparedFrame where
  inRotationBuffer : Bool
  outStride : ℕ
  rotationBuffer : List UInt8
  deriving DecidableEq, Repr

def prepareFrameData (rotation : RotationType) (width height : ℕ) (rotationBuffer src : List UInt8)
    (srcStride : ℕ) : PreparedFrame :=
  let copied (outStride : ℕ) : PreparedFrame :=
    { inRotationBuffer := true
      outStride := outStride
      rotationBuffer := copyPixels (resize (width * height * 4) rotationBuffer) src
        (rotationCopies rotation width height srcStride) }
  match rotation with
  | .unspecified | .identity =>
    { inRotationBuffer := false, outStride := srcStride, rotationBuffer := rotationBuffer }
  | .rotate90 => copied (height * 4)
  | .rotate180 => copied (width * 4)
  | .rotate270 => copied (height * 4)

/-- The bytes that the returned pointer points to. -/
def PreparedFrame.data (frame : PreparedFrame) (src : List UInt8) : List UInt8 :=
  if frame.inRotationBuffer then frame.rotationBuffer else src

theorem prepareFrameData_of_not_turned {rotation : RotationType} (h : ¬ Turned rotation)
    (width height : ℕ) (rotationBuffer src : List UInt8) (srcStride : ℕ) :
    prepareFrameData rotation width height rotationBuffer src srcStride =
      { inRotationBuffer := false, outStride := srcStride, rotationBuffer := rotationBuffer } := by
  -- `src_data` is returned at once, without a copy
  cases rotation with
  | unspecified => rfl
  | identity => rfl
  | rotate90 => exact absurd (Or.inl rfl) h
  | rotate180 => exact absurd (Or.inr (Or.inl rfl)) h
  | rotate270 => exact absurd (Or.inr (Or.inr rfl)) h

theorem inRotationBuffer_of_turned {rotation : RotationType} (h : Turned rotation)
    (width height : ℕ) (rotationBuffer src : List UInt8) (srcStride : ℕ) :
    (prepareFrameData rotation width height rotationBuffer src srcStride).inRotationBuffer =
      true := by
  rcases h with rfl | rfl | rfl <;> rfl

theorem rotationBuffer_of_turned {rotation : RotationType} (h : Turned rotation)
    (width height : ℕ) (rotationBuffer src : List UInt8) (srcStride : ℕ) :
    (prepareFrameData rotation width height rotationBuffer src srcStride).rotationBuffer =
      copyPixels (resize (width * height * 4) rotationBuffer) src
        (rotationCopies rotation width height srcStride) := by
  rcases h with rfl | rfl | rfl <;> rfl

theorem length_rotationBuffer_of_turned {rotation : RotationType} (h : Turned rotation)
    (width height : ℕ) (rotationBuffer src : List UInt8) (srcStride : ℕ) :
    (prepareFrameData rotation width height rotationBuffer src srcStride).rotationBuffer.length =
      width * height * 4 := by
  rw [rotationBuffer_of_turned h, length_copyPixels, length_resize]

/-- The stride of a turned frame does not depend on the source. -/
def turnedStride (rotation : RotationType) (width height : ℕ) : ℕ :=
  if QuarterTurned rotation then height * 4 else width * 4

theorem outStride_of_turned {rotation : RotationType} (h : Turned rotation)
    (width height : ℕ) (rotationBuffer src : List UInt8) (srcStride : ℕ) :
    (prepareFrameData rotation width height rotationBuffer src srcStride).outStride =
      turnedStride rotation width height := by
  rcases h with rfl | rfl | rfl <;> rfl

/-! ## Where each pixel goes -/

/-- A quarter turn sends `(y, x)` to row `x` and column `height - 1 - y`. -/
def turn90 (rows cols : ℕ) : Fin rows × Fin cols ≃ Fin cols × Fin rows where
  toFun p := (p.2, p.1.rev)
  invFun q := (q.2.rev, q.1)
  left_inv p := by simp
  right_inv q := by simp

def turn180 (rows cols : ℕ) : Fin rows × Fin cols ≃ Fin rows × Fin cols where
  toFun p := (p.1.rev, p.2.rev)
  invFun q := (q.1.rev, q.2.rev)
  left_inv p := by simp
  right_inv q := by simp

def turn270 (rows cols : ℕ) : Fin rows × Fin cols ≃ Fin cols × Fin rows where
  toFun p := (p.2.rev, p.1)
  invFun q := (q.2, q.1.rev)
  left_inv p := by simp
  right_inv q := by simp

theorem rotate90Offset_follows (width height : ℕ) :
    Follows (rotate90Offset height) (turn90 height width) := by
  intro p
  -- the loop never takes the subtraction below 0
  have hrev : height - 1 - p.1 = height - (p.1 + 1) := by omega
  show p.2 * height * 4 + (height - 1 - p.1) * 4 = p.2 * (height * 4) + p.1.rev * 4
  rw [Fin.val_rev, hrev, Nat.mul_assoc]

theorem rotate180Offset_follows (width height : ℕ) :
    Follows (rotate180Offset width height) (turn180 height width) := by
  intro p
  have hrow : height - 1 - p.1 = height - (p.1 + 1) := by omega
  have hcol : width - 1 - p.2 = width - (p.2 + 1) := by omega
  show (height - 1 - p.1) * width * 4 + (width - 1 - p.2) * 4 =
    p.1.rev * (width * 4) + p.2.rev * 4
  rw [Fin.val_rev, Fin.val_rev, hrow, hcol, Nat.mul_assoc]

theorem rotate270Offset_follows (width height : ℕ) :
    Follows (rotate270Offset width height) (turn270 height width) := by
  intro p
  have hrev : width - 1 - p.2 = width - (p.2 + 1) := by omega
  show (width - 1 - p.2) * height * 4 + p.1 * 4 = p.2.rev * (height * 4) + p.1 * 4
  rw [Fin.val_rev, hrev, Nat.mul_assoc]

/-! ## The frame that comes out -/

/-- A call makes an exact copy: it reads inside the rows of the source and writes each pixel
    of an image of `rows` by `cols` once, into a buffer of the size of the image; and that
    image is `target`. -/
structure CopiesExactly (rotation : RotationType) (width height : ℕ)
    (rotationBuffer src : List UInt8) (srcStride rows cols : ℕ)
    (target : Image (Fin 4 → UInt8) rows cols) : Prop where
  outStride : (prepareFrameData rotation width height rotationBuffer src srcStride).outStride =
    4 * cols
  returned :
    (prepareFrameData rotation width height rotationBuffer src srcStride).inRotationBuffer = true
  size :
    (prepareFrameData rotation width height rotationBuffer src srcStride).rotationBuffer.length =
      width * height * 4
  reads : ∀ c ∈ rotationCopies rotation width height srcStride,
    ∃ y < height, y * srcStride ≤ c.2 ∧ c.2 + 4 ≤ y * srcStride + 4 * width
  writesOnce : ∀ (r : Fin rows) (c : Fin cols),
    ((rotationCopies rotation width height srcStride).map Prod.fst).count
      (r * (4 * cols) + c * 4) = 1
  writesInside : ∀ c ∈ rotationCopies rotation width height srcStride, c.1 + 4 ≤ width * height * 4
  pixels :
    imageAt (prepareFrameData rotation width height rotationBuffer src srcStride).rotationBuffer
      (4 * cols) rows cols = target

/-- **Spec of a branch**: a turned frame whose loop follows a bijection of the pixels is an
    exact copy, of the image that the bijection gives. -/
theorem turned_spec {rotation : RotationType} {width height rows cols srcStride : ℕ}
    {dst : ℕ → ℕ → ℕ} {e : Fin height × Fin width ≃ Fin rows × Fin cols}
    {rotationBuffer src : List UInt8} {target : Image (Fin 4 → UInt8) rows cols}
    (hturned : Turned rotation)
    (hcopies : rotationCopies rotation width height srcStride =
      copyLoop height width srcStride dst)
    (hfollows : Follows dst e) (hsize : rows * cols = width * height)
    (hstride : turnedStride rotation width height = 4 * cols)
    (htarget : ∀ r c, target r c =
      imageAt src srcStride height width (e.symm (r, c)).1 (e.symm (r, c)).2) :
    CopiesExactly rotation width height rotationBuffer src srcStride rows cols target := by
  refine ⟨?_, inRotationBuffer_of_turned hturned .., length_rotationBuffer_of_turned hturned ..,
    ?_, ?_, ?_, ?_⟩
  · rw [outStride_of_turned hturned, hstride]
  · -- what is read lies in a row of the source
    intro c hc
    rw [hcopies] at hc
    obtain ⟨y, hy, x, hx, rfl⟩ := mem_copyLoop.mp hc
    exact ⟨y, hy, Nat.le_add_right _ _, by show y * srcStride + x * 4 + 4 ≤ _; omega⟩
  · -- the bijection meets each pixel once
    intro r c
    rw [hcopies, Nat.mul_comm 4 cols]
    exact count_dst_copyLoop hfollows srcStride (r, c)
  · -- and none lies outside of the image
    intro c hc
    rw [hcopies] at hc
    obtain ⟨y, hy, x, hx, rfl⟩ := mem_copyLoop.mp hc
    rw [← hsize]
    exact hfollows.le (⟨y, hy⟩, ⟨x, hx⟩)
  · -- so each pixel is the one that the bijection comes from
    funext r c
    rw [rotationBuffer_of_turned hturned, hcopies, Nat.mul_comm 4 cols, htarget]
    exact imageAt_copyLoop hfollows src (by rw [length_resize, hsize]) r c

/-- **Screen rotation is exact**: the three branches of `prepare_frame_data` are one, two and
    three clockwise quarter turns of the source without its row padding. -/
theorem prepareFrameData_turns (width height srcStride : ℕ) (rotationBuffer src : List UInt8) :
    CopiesExactly .rotate90 width height rotationBuffer src srcStride width height
        (quarterTurn (imageAt src srcStride height width)) ∧
      CopiesExactly .rotate180 width height rotationBuffer src srcStride height width
        (quarterTurn (quarterTurn (imageAt src srcStride height width))) ∧
      CopiesExactly .rotate270 width height rotationBuffer src srcStride width height
        (quarterTurn (quarterTurn (quarterTurn (imageAt src srcStride height width)))) := by
  -- one branch after the other; the turns are composed of quarter turns
  refine ⟨?_, ?_, ?_⟩
  · apply turned_spec (Or.inl rfl) rfl (rotate90Offset_follows width height) rfl
    · exact Nat.mul_comm height 4
    · exact fun _ _ => rfl
  · apply turned_spec (Or.inr (Or.inl rfl)) rfl (rotate180Offset_follows width height)
    · exact Nat.mul_comm height width
    · exact Nat.mul_comm width 4
    · exact fun r c => quarterTurn_quarterTurn _ r c
  · apply turned_spec (Or.inr (Or.inr rfl)) rfl (rotate270Offset_follows width height) rfl
    · exact Nat.mul_comm height 4
    · exact fun r c => quarterTurn_thrice _ r c

end AVCapture.Platform
