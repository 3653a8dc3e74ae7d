import Mathlib.Data.Fintype.Prod
import Mathlib.Logic.Equiv.Fin.Basic
import Mathlib.Tactic.Ring

/-!
# Images in Byte Buffers

Images as functions of row and column, and their pixels of four bytes each in a buffer with
a row stride. A loop that copies an image pixel by pixel is given by where it puts each
pixel; it is correct when that is a bijection between the two images.

## Main results

- `quarterTurn_quarterTurn`, `quarterTurn_thrice`: the compositions of the quarter turn
- `pixelAt_copyPixels_of_mem`: what a sequence of pixel copies leaves at a destination
- `count_dst_copyLoop`, `imageAt_copyLoop`: a loop that follows a bijection writes each
  pixel of the target once, with the pixel of the source that belongs there
-/

namespace Raster

/-! ## Images and turns -/

abbrev Image (α : Type*) (rows cols : ℕ) := Fin rows → Fin cols → α

section Turns

variable {α : Type*} {rows cols : ℕ}

/-- The clockwise quarter turn. -/
def quarterTurn (img : Image α rows cols) : Image α cols rows := fun r c => img c.rev r

theorem quarterTurn_quarterTurn (img : Image α rows cols) (r : Fin rows) (c : Fin cols) :
    quarterTurn (quarterTurn img) r c = img r.rev c.rev := rfl

theorem quarterTurn_thrice (img : Image α rows cols) (r : Fin cols) (c : Fin rows) :
    quarterTurn (quarterTurn (quarterTurn img)) r c = img c r.rev := by
  unfold quarterTurn
  rw [Fin.rev_rev]

end Turns

/-! ## Pixels in a buffer -/

section Pixels

variable {β : Type*}

def putPixel (bytes : List β) (offset : ℕ) (px : Fin 4 → β) : List β :=
  (((bytes.set offset (px 0)).set (offset + 1) (px 1)).set (offset + 2) (px 2)).set
    (offset + 3) (px 3)

@[simp] theorem length_putPixel (bytes : List β) (offset : ℕ) (px : Fin 4 → β) :
    (putPixel bytes offset px).length = bytes.length := by
  simp [putPixel]

variable [Inhabited β]

/-- The pixel of four bytes at a byte offset. -/
def pixelAt (bytes : List β) (offset : ℕ) : Fin 4 → β := fun k => bytes.getD (offset + k) default

/-- Two pixels share no byte. -/
def Apart (o d : ℕ) : Prop := o + 4 ≤ d ∨ d + 4 ≤ o

theorem pixelAt_putPixel {bytes : List β} {offset : ℕ} (px : Fin 4 → β)
    (h : offset + 4 ≤ bytes.length) : pixelAt (putPixel bytes offset px) offset = px := by
  funext k
  unfold pixelAt putPixel
  match k with
  | 0 => simp [show offset < bytes.length by omega]
  | 1 => simp [show offset + 1 < bytes.length by omega]
  | 2 => simp [show offset + 2 < bytes.length by omega]
  | 3 => simp [show offset + 3 < bytes.length by omega]

theorem pixelAt_putPixel_of_apart (bytes : List β) {o d : ℕ} (px : Fin 4 → β) (h : Apart o d) :
    pixelAt (putPixel bytes d px) o = pixelAt bytes o := by
  funext k
  have hk := k.isLt
  rcases h with h | h
  · simp [pixelAt, putPixel, show d ≠ o + k by omega,
      show d + 1 ≠ o + k by omega, show d + 2 ≠ o + k by omega, show d + 3 ≠ o + k by omega]
  · simp [pixelAt, putPixel, show d ≠ o + k by omega,
      show d + 1 ≠ o + k by omega, show d + 2 ≠ o + k by omega, show d + 3 ≠ o + k by omega]

/-- Copy pixels one after the other; each is given by the offset to write and the offset
    to read. -/
def copyPixels (dst src : List β) (copies : List (ℕ × ℕ)) : List β :=
  copies.foldl (fun dst c => putPixel dst c.1 (pixelAt src c.2)) dst

@[simp] theorem length_copyPixels (dst src : List β) (copies : List (ℕ × ℕ)) :
    (copyPixels dst src copies).length = dst.length := by
  induction copies generalizing dst with
  | nil => rfl
  | cons c copies ih => simpa [copyPixels] using ih (putPixel dst c.1 (pixelAt src c.2))

theorem pixelAt_copyPixels_of_apart (dst src : List β) {copies : List (ℕ × ℕ)} {o : ℕ}
    (h : ∀ c ∈ copies, Apart o c.1) : pixelAt (copyPixels dst src copies) o = pixelAt dst o := by
  induction copies generalizing dst with
  | nil => rfl
  | cons c copies ih =>
    -- the first copy is apart, and so are the others
    have hrest := ih (putPixel dst c.1 (pixelAt src c.2)) fun c' hc' =>
      h c' (List.mem_cons_of_mem c hc')
    rw [← pixelAt_putPixel_of_apart dst (pixelAt src c.2) (h c List.mem_cons_self), ← hrest]
    rfl

/-- **Copying to places apart**: each destination holds the pixel that was copied to it. -/
theorem pixelAt_copyPixels_of_mem {dst src : List β} {copies : List (ℕ × ℕ)} {d s : ℕ}
    (hapart : copies.Pairwise fun c c' => Apart c.1 c'.1) (hmem : (d, s) ∈ copies)
    (hd : d + 4 ≤ dst.length) : pixelAt (copyPixels dst src copies) d = pixelAt src s := by
  induction copies generalizing dst with
  | nil => cases hmem
  | cons c copies ih =>
    obtain ⟨hc, hrest⟩ := List.pairwise_cons.mp hapart
    show pixelAt (copyPixels (putPixel dst c.1 (pixelAt src c.2)) src copies) d = _
    rcases List.mem_cons.mp hmem with rfl | hmem
    · -- the copy itself, which no later one touches
      rw [pixelAt_copyPixels_of_apart _ _ hc, pixelAt_putPixel _ hd]
    · exact ih hrest hmem (by rw [length_putPixel]; exact hd)

/-- The image of the given size whose rows start `stride` bytes apart. -/
def imageAt (bytes : List β) (stride rows cols : ℕ) : Image (Fin 4 → β) rows cols :=
  fun r c => pixelAt bytes (r * stride + c * 4)

end Pixels

/-! ## Copying an image -/

/-- The loop over the rows and columns of an image, which copies the pixel at `(y, x)` to
    the offset `dst y x`. -/
def copyLoop (rows cols stride : ℕ) (dst : ℕ → ℕ → ℕ) : List (ℕ × ℕ) :=
  (List.range rows).flatMap fun y =>
    (List.range cols).map fun x => (dst y x, y * stride + x * 4)

theorem mem_copyLoop {rows cols stride : ℕ} {dst : ℕ → ℕ → ℕ} {c : ℕ × ℕ} :
    c ∈ copyLoop rows cols stride dst ↔
      ∃ y < rows, ∃ x < cols, c = (dst y x, y * stride + x * 4) := by
  simp [copyLoop, eq_comm]

theorem mem_copyLoop_of_pixel {rows cols : ℕ} (stride : ℕ) (dst : ℕ → ℕ → ℕ)
    (p : Fin rows × Fin cols) :
    (dst p.1 p.2, p.1 * stride + p.2 * 4) ∈ copyLoop rows cols stride dst :=
  mem_copyLoop.mpr ⟨p.1, p.1.isLt, p.2, p.2.isLt, rfl⟩

/-- `dst` puts the pixel at `p` to the place `e p` of an image without padding. -/
def Follows {rows cols rows' cols' : ℕ} (dst : ℕ → ℕ → ℕ)
    (e : Fin rows × Fin cols ≃ Fin rows' × Fin cols') : Prop :=
  ∀ p : Fin rows × Fin cols, dst p.1 p.2 = (e p).1 * (cols' * 4) + (e p).2 * 4

section CopyLoop

variable {β : Type*} {rows cols rows' cols' stride : ℕ} {dst : ℕ → ℕ → ℕ}
  {e : Fin rows × Fin cols ≃ Fin rows' × Fin cols'}

/-- Two pixels of an image without padding share a byte only if they are the same pixel. -/
theorem apart_of_ne {q q' : Fin rows' × Fin cols'} (h : q ≠ q') :
    Apart (q.1 * (cols' * 4) + q.2 * 4) (q'.1 * (cols' * 4) + q'.2 * 4) := by
  -- pixels are numbered row by row, and their offsets are four times the numbers
  have hne : (finProdFinEquiv q : ℕ) ≠ finProdFinEquiv q' := fun heq =>
    h (finProdFinEquiv.injective (Fin.ext heq))
  have hq : (q.1 : ℕ) * (cols' * 4) = cols' * q.1 * 4 := by ring
  have hq' : (q'.1 : ℕ) * (cols' * 4) = cols' * q'.1 * 4 := by ring
  simp only [finProdFinEquiv_apply_val] at hne
  unfold Apart
  omega

theorem Follows.apart (h : Follows dst e) (p p' : Fin rows × Fin cols) (hne : p ≠ p') :
    Apart (dst p.1 p.2) (dst p'.1 p'.2) := by
  rw [h p, h p']
  exact apart_of_ne fun heq => hne (e.injective heq)

/-- Every write is inside the buffer of the target image. -/
theorem Follows.le (h : Follows dst e) (p : Fin rows × Fin cols) :
    dst p.1 p.2 + 4 ≤ rows' * cols' * 4 := by
  have hlt : (finProdFinEquiv (e p) : ℕ) < rows' * cols' := (finProdFinEquiv (e p)).isLt
  have heq : ((e p).1 : ℕ) * (cols' * 4) = cols' * (e p).1 * 4 := by ring
  simp only [finProdFinEquiv_apply_val] at hlt
  rw [h p]
  omega

theorem Follows.pairwise_copyLoop (h : Follows dst e) (stride : ℕ) :
    (copyLoop rows cols stride dst).Pairwise fun c c' => Apart c.1 c'.1 := by
  refine List.pairwise_flatMap.mpr ⟨?_, ?_⟩
  · -- two pixels of one row
    intro y hy
    refine List.pairwise_map.mpr (List.nodup_range.imp_of_mem ?_)
    intro x x' hx hx' hne
    have hy := List.mem_range.mp hy
    exact h.apart (⟨y, hy⟩, ⟨x, List.mem_range.mp hx⟩) (⟨y, hy⟩, ⟨x', List.mem_range.mp hx'⟩)
      (by simpa using hne)
  · -- two pixels of different rows
    refine List.nodup_range.imp_of_mem ?_
    intro y y' hy hy' hne c hc c' hc'
    obtain ⟨x, hx, rfl⟩ := List.mem_map.mp hc
    obtain ⟨x', hx', rfl⟩ := List.mem_map.mp hc'
    exact h.apart (⟨y, List.mem_range.mp hy⟩, ⟨x, List.mem_range.mp hx⟩)
      (⟨y', List.mem_range.mp hy'⟩, ⟨x', List.mem_range.mp hx'⟩) (by simp [hne])

/-- **Each pixel once**: a loop that follows a bijection writes every pixel of the target
    exactly once. -/
theorem count_dst_copyLoop (h : Follows dst e) (stride : ℕ) (q : Fin rows' × Fin cols') :
    ((copyLoop rows cols stride dst).map Prod.fst).count (q.1 * (cols' * 4) + q.2 * 4) = 1 := by
  apply List.count_eq_one_of_mem
  · -- no place twice, since writes to one place share bytes
    refine List.pairwise_map.mpr ((h.pairwise_copyLoop stride).imp fun {c c'} hapart heq => ?_)
    unfold Apart at hapart
    omega
  · have hq := h (e.symm q)
    rw [Equiv.apply_symm_apply] at hq
    rw [← hq]
    exact List.mem_map_of_mem (mem_copyLoop_of_pixel stride dst (e.symm q))

/-- **The copied image**: a loop that follows a bijection leaves, at each place, the pixel
    of the source that belongs there. -/
theorem imageAt_copyLoop [Inhabited β] (h : Follows dst e) {buf : List β} (src : List β)
    (hbuf : buf.length = rows' * cols' * 4) (r : Fin rows') (c : Fin cols') :
    imageAt (copyPixels buf src (copyLoop rows cols stride dst)) (cols' * 4) rows' cols' r c =
      imageAt src stride rows cols (e.symm (r, c)).1 (e.symm (r, c)).2 := by
  have hdst := h (e.symm (r, c))
  have hle := h.le (e.symm (r, c))
  rw [Equiv.apply_symm_apply] at hdst
  have hmem := mem_copyLoop_of_pixel stride dst (e.symm (r, c))
  unfold imageAt
  rw [← hdst]
  exact pixelAt_copyPixels_of_mem (h.pairwise_copyLoop stride) hmem (by rw [hbuf]; exact hle)

end CopyLoop

end Raster
