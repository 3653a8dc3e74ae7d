import AVCapture.Core.MediaRecorder
import AVCapture.Lib.Transition
import AVCapture.Platform.FrameRotation

/-!
# The Buffers behind a Windows Frame

Model of what `ScreenRecorderWindows::capture_frame` and `push_black_frame`
(`platform/ScreenRecorderWindows.cpp`) give to `VideoEncoderQueue::push_frame`. The queue
copies `stride * config_.height_` bytes, with the height of its own configuration, from a
buffer that the recorder has measured out: the mapped texture, the rotation buffer, or the
black frame, which is allocated once, for the stride of that moment and the height of the
screen.

## Main results

- `receive_fits`: a fresh frame is always long enough
- `buffersFit_iff`: the runs in which every buffer is
-/

namespace AVCapture.Platform

open AVCapture.Core Transition

/-! ## The machine -/

/-- What a successful `Map` gives: the rows of the texture, `RowPitch` bytes apart. -/
structure MappedFrame (screen : Screen) where
  pixels : List UInt8
  rowPitch : ℕ
  pitch_le : 4 * screen.width ≤ rowPitch
  length_eq : pixels.length = rowPitch * screen.height

/-- What a call of `capture_frame` comes to. `black` stands for each path that ends in
    `push_black_frame`: the forced black frame, a re-initialisation, a missing resource, and
    each failure from `AcquireNextFrame` to `Map` other than a timeout. -/
inductive CaptureCall (screen : Screen) where
  | captured (frame : MappedFrame screen)
  | timeout
  | black

inductive FrameBuffer where
  | mapped
  | rotation
  | black
  deriving DecidableEq, Repr

/-- A call of `push_frame`: how long its buffer is, and the stride it is given. -/
structure PushCall where
  length : ℕ
  stride : ℕ
  deriving DecidableEq, Repr

/-- The recorder's buffers; `lastFrame` is the one that `last_frame_` points to. The calls
    of `push_frame` are recorded. -/
structure WindowsFrames where
  mapped : List UInt8 := []
  rotationBuffer : List UInt8 := []
  blackFrame : List UInt8 := []
  lastFrame : Option FrameBuffer := none
  finalStride : ℕ := 0
  pushes : List PushCall := []

namespace WindowsFrames

def buffer (s : WindowsFrames) : FrameBuffer → List UInt8
  | .mapped => s.mapped
  | .rotation => s.rotationBuffer
  | .black => s.blackFrame

/-- `last_frame_ = buffer`, and the push that follows. -/
def push (s : WindowsFrames) (b : FrameBuffer) : WindowsFrames :=
  { s with
    lastFrame := some b
    pushes := s.pushes ++ [{ length := (s.buffer b).length, stride := s.finalStride }] }

def ensureBlackFrame (screen : Screen) (s : WindowsFrames) : WindowsFrames :=
  if s.blackFrame ≠ [] then s
  else { s with blackFrame := List.replicate (s.finalStride * screen.height) 0 }

def pushBlackFrame (screen : Screen) (s : WindowsFrames) : WindowsFrames :=
  (s.ensureBlackFrame screen).push .black

/-- `prepare_frame_data` on the mapped texture. -/
def prepared (screen : Screen) (s : WindowsFrames) (frame : MappedFrame screen) : PreparedFrame :=
  prepareFrameData screen.rotation screen.width screen.height s.rotationBuffer frame.pixels
    frame.rowPitch

/-- The texture is mapped, and `prepare_frame_data` has stored its results. -/
def receive (screen : Screen) (s : WindowsFrames) (frame : MappedFrame screen) : WindowsFrames :=
  { s with
    mapped := frame.pixels
    rotationBuffer := (s.prepared screen frame).rotationBuffer
    finalStride := (s.prepared screen frame).outStride }

def captured (screen : Screen) (s : WindowsFrames) (frame : MappedFrame screen) : WindowsFrames :=
  (s.receive screen frame).push
    (if (s.prepared screen frame).inRotationBuffer then .rotation else .mapped)

def next (screen : Screen) (s : WindowsFrames) : CaptureCall screen → WindowsFrames
  | .captured frame => s.captured screen frame
  | .timeout =>
    match s.lastFrame with
    | some b => s.push b
    | none => s.pushBlackFrame screen
  | .black => s.pushBlackFrame screen

/-- A recorder before its first frame; `last_frame_` and `final_stride_` have no
    initialiser. -/
def Fresh (s : WindowsFrames) : Prop := s.blackFrame = [] ∧ s.pushes = []

/-- Every buffer that was pushed held the bytes that `push_frame` reads, and the black frame
    holds those of the next push. -/
def BuffersFit (screen : Screen) (s : WindowsFrames) : Prop :=
  (∀ p ∈ s.pushes, p.stride * screen.encoderHeight ≤ p.length) ∧
    (s.blackFrame ≠ [] → s.finalStride * screen.encoderHeight ≤ s.blackFrame.length)

instance (screen : Screen) (s : WindowsFrames) : Decidable (s.BuffersFit screen) :=
  inferInstanceAs (Decidable (_ ∧ (_ → _)))

/-- The condition on a call: a black frame of a screen turned by a quarter is pushed only if
    the screen is not wider than high; and no row of an upright frame is longer than the
    rows the black frame was allocated for. -/
def FitsAfter (screen : Screen) (s : WindowsFrames) : CaptureCall screen → Prop
  | .captured frame => ¬ Turned screen.rotation → s.blackFrame ≠ [] →
      frame.rowPitch * screen.height ≤ s.blackFrame.length
  | .timeout => True
  | .black => QuarterTurned screen.rotation → screen.width ≤ screen.height

end WindowsFrames

def windowsFrames (screen : Screen) : System WindowsFrames (CaptureCall screen) :=
  System.ofCommands WindowsFrames.Fresh (fun _ _ => True) (WindowsFrames.next screen)

/-- The height is that of the configuration which `initialize` gives to the queue. -/
theorem encoderHeight_eq (screen : Screen) (config : VideoConfig) :
    (encoderConfig
      { width := screen.width, height := screen.height, rotation := screen.rotation }
      config).height = screen.encoderHeight := by
  unfold Screen.encoderHeight
  rw [Nat.cast_ite]
  rfl

/-! ## A fresh frame -/

section Fresh

variable {screen : Screen} (s : WindowsFrames) (frame : MappedFrame screen)

theorem turned_of_quarterTurned {rotation : RotationType} (h : QuarterTurned rotation) :
    Turned rotation := by
  rcases h with h | h
  · exact Or.inl h
  · exact Or.inr (Or.inr h)

theorem prepared_of_not_turned (h : ¬ Turned screen.rotation) :
    s.prepared screen frame =
      { inRotationBuffer := false, outStride := frame.rowPitch
        rotationBuffer := s.rotationBuffer } :=
  prepareFrameData_of_not_turned h ..

theorem finalStride_receive_of_turned (h : Turned screen.rotation) :
    (s.receive screen frame).finalStride =
      turnedStride screen.rotation screen.width screen.height :=
  outStride_of_turned h ..

theorem finalStride_receive_of_not_turned (h : ¬ Turned screen.rotation) :
    (s.receive screen frame).finalStride = frame.rowPitch := by
  unfold WindowsFrames.receive
  rw [prepared_of_not_turned s frame h]

theorem finalStride_receive_pos : 0 < (s.receive screen frame).finalStride := by
  have hw := screen.width_pos
  have hh := screen.height_pos
  have hpitch := frame.pitch_le
  by_cases hturned : Turned screen.rotation
  · rw [finalStride_receive_of_turned s frame hturned, turnedStride]
    split <;> omega
  · rw [finalStride_receive_of_not_turned s frame hturned]
    omega

/-- **A fresh frame is long enough**, whatever the rotation and the row pitch. -/
theorem receive_fits :
    (s.receive screen frame).finalStride * screen.encoderHeight ≤
      ((s.receive screen frame).buffer
        (if (s.prepared screen frame).inRotationBuffer then .rotation else .mapped)).length := by
  by_cases hturned : Turned screen.rotation
  · have hin : (s.prepared screen frame).inRotationBuffer = true :=
      inRotationBuffer_of_turned hturned ..
    have hlen : (s.receive screen frame).rotationBuffer.length =
        screen.width * screen.height * 4 := length_rotationBuffer_of_turned hturned ..
    rw [finalStride_receive_of_turned s frame hturned, hin, if_pos rfl]
    show _ ≤ (s.receive screen frame).rotationBuffer.length
    rw [hlen]
    -- the stride of the rotation buffer times its rows is its size
    unfold turnedStride Screen.encoderHeight
    split
    · exact le_of_eq (by ring)
    · exact le_of_eq (by ring)
  · have hheight : screen.encoderHeight = screen.height :=
      if_neg fun h => hturned (turned_of_quarterTurned h)
    rw [finalStride_receive_of_not_turned s frame hturned, prepared_of_not_turned s frame hturned,
      hheight]
    exact le_of_eq frame.length_eq.symm

end Fresh

/-! ## Every run -/

/-- After the first capture: what the guard needs of the buffers. -/
structure FramesInv (screen : Screen) (s : WindowsFrames) : Prop where
  fit : s.BuffersFit screen
  stride_pos : 0 < s.finalStride
  last : ∃ b, s.lastFrame = some b ∧ s.finalStride * screen.encoderHeight ≤ (s.buffer b).length
  turned : Turned screen.rotation →
    s.finalStride = turnedStride screen.rotation screen.width screen.height
  black : QuarterTurned screen.rotation → s.blackFrame ≠ [] → screen.width ≤ screen.height

section Runs

variable {screen : Screen} {s : WindowsFrames}

/-- A push of a buffer that is long enough. -/
theorem buffersFit_push (h : s.BuffersFit screen) {b : FrameBuffer}
    (hb : s.finalStride * screen.encoderHeight ≤ (s.buffer b).length) :
    (s.push b).BuffersFit screen := by
  refine ⟨?_, h.2⟩
  intro p hp
  rcases List.mem_append.mp hp with hp | hp
  · exact h.1 p hp
  · obtain rfl := List.mem_singleton.mp hp
    exact hb

/-- Every pushed buffer was long enough only if the last one was. -/
theorem le_of_buffersFit_push {b : FrameBuffer} (h : (s.push b).BuffersFit screen) :
    s.finalStride * screen.encoderHeight ≤ (s.buffer b).length :=
  h.1 { length := (s.buffer b).length, stride := s.finalStride }
    (List.mem_append_right _ List.mem_cons_self)

/-- **Spec of a successful capture**: the pushed frame fits, and the black frame fits the new
    stride exactly when the guard is met. -/
theorem captured_fits_iff (hpushes : ∀ p ∈ s.pushes, p.stride * screen.encoderHeight ≤ p.length)
    (hblack : Turned screen.rotation → s.blackFrame ≠ [] →
      turnedStride screen.rotation screen.width screen.height * screen.encoderHeight ≤
        s.blackFrame.length) (frame : MappedFrame screen) :
    (s.captured screen frame).BuffersFit screen ↔ s.FitsAfter screen (.captured frame) := by
  by_cases hturned : Turned screen.rotation
  · refine ⟨fun _ hnot => absurd hturned hnot, fun _ => ?_⟩
    apply buffersFit_push _ (receive_fits s frame)
    refine ⟨hpushes, ?_⟩
    rw [finalStride_receive_of_turned s frame hturned]
    exact hblack hturned
  · have hheight : screen.encoderHeight = screen.height :=
      if_neg fun h => hturned (turned_of_quarterTurned h)
    have hstride := finalStride_receive_of_not_turned s frame hturned
    refine ⟨fun h _ hne => ?_, fun h => ?_⟩
    · -- the black frame has to hold rows of the new pitch
      have hfit : (s.receive screen frame).finalStride * screen.encoderHeight ≤
          s.blackFrame.length := h.2 hne
      rwa [hstride, hheight] at hfit
    · apply buffersFit_push _ (receive_fits s frame)
      refine ⟨hpushes, fun hne => ?_⟩
      rw [hstride, hheight]
      exact h hturned hne

/-- A successful capture that meets the guard establishes the invariant. -/
theorem framesInv_captured
    (hpushes : ∀ p ∈ s.pushes, p.stride * screen.encoderHeight ≤ p.length)
    (hfit : Turned screen.rotation → s.blackFrame ≠ [] →
      turnedStride screen.rotation screen.width screen.height * screen.encoderHeight ≤
        s.blackFrame.length)
    (hblack : QuarterTurned screen.rotation → s.blackFrame ≠ [] → screen.width ≤ screen.height)
    {frame : MappedFrame screen} (hok : s.FitsAfter screen (.captured frame)) :
    FramesInv screen (s.captured screen frame) where
  fit := (captured_fits_iff hpushes hfit frame).mpr hok
  stride_pos := finalStride_receive_pos s frame
  last := ⟨_, rfl, receive_fits s frame⟩
  turned h := finalStride_receive_of_turned s frame h
  black := hblack

theorem finalStride_ensureBlackFrame (screen : Screen) (s : WindowsFrames) :
    (s.ensureBlackFrame screen).finalStride = s.finalStride := by
  unfold WindowsFrames.ensureBlackFrame
  split <;> rfl

theorem pushes_ensureBlackFrame : (s.ensureBlackFrame screen).pushes = s.pushes := by
  unfold WindowsFrames.ensureBlackFrame
  split <;> rfl

/-- **The size of the black frame**: it is enough exactly when the screen is not turned by a
    quarter, or not wider than high. -/
theorem ensureBlackFrame_fits_iff (h : FramesInv screen s) :
    s.finalStride * screen.encoderHeight ≤ (s.ensureBlackFrame screen).blackFrame.length ↔
      (QuarterTurned screen.rotation → screen.width ≤ screen.height) := by
  unfold WindowsFrames.ensureBlackFrame
  by_cases hne : s.blackFrame ≠ []
  · rw [if_pos hne]
    exact ⟨fun _ hq => h.black hq hne, fun _ => h.fit.2 hne⟩
  · rw [if_neg hne, List.length_replicate, Screen.encoderHeight]
    split
    · rename_i hq
      -- one stride on both sides: the rows that are read, and those that are allocated
      rw [Nat.mul_le_mul_left_iff h.stride_pos]
      exact ⟨fun hle _ => hle, fun hle => hle hq⟩
    · rename_i hq
      exact ⟨fun _ hq' => absurd hq' hq, fun _ => le_rfl⟩

/-- **Spec of a black frame**: it fits exactly when the guard is met. -/
theorem pushBlackFrame_fits_iff (h : FramesInv screen s) :
    (s.pushBlackFrame screen).BuffersFit screen ↔ s.FitsAfter screen .black := by
  refine Iff.trans ⟨fun hfit => ?_, fun hfits => ?_⟩ (ensureBlackFrame_fits_iff h)
  · rw [← finalStride_ensureBlackFrame screen]
    exact le_of_buffersFit_push hfit
  · rw [← finalStride_ensureBlackFrame screen] at hfits
    apply buffersFit_push _ hfits
    exact ⟨by rw [pushes_ensureBlackFrame]; exact h.fit.1, fun _ => hfits⟩

theorem framesInv_pushBlackFrame (h : FramesInv screen s) (hok : s.FitsAfter screen .black) :
    FramesInv screen (s.pushBlackFrame screen) := by
  have hfits := (ensureBlackFrame_fits_iff h).mpr hok
  have hstride : (s.pushBlackFrame screen).finalStride = s.finalStride :=
    finalStride_ensureBlackFrame screen s
  refine ⟨(pushBlackFrame_fits_iff h).mpr hok, ?_, ⟨.black, rfl, ?_⟩, ?_, fun hq _ => hok hq⟩
  · rw [hstride]
    exact h.stride_pos
  · rw [hstride]
    exact hfits
  · rw [hstride]
    exact h.turned

/-- The black frame holds the rows of a turned frame. -/
theorem FramesInv.blackFrame_fits (h : FramesInv screen s) (hturned : Turned screen.rotation)
    (hne : s.blackFrame ≠ []) :
    turnedStride screen.rotation screen.width screen.height * screen.encoderHeight ≤
      s.blackFrame.length := by
  rw [← h.turned hturned]
  exact h.fit.2 hne

theorem next_timeout {b : FrameBuffer} (hlast : s.lastFrame = some b) :
    s.next screen .timeout = s.push b := by
  unfold WindowsFrames.next
  rw [hlast]

/-- What one call does, after the first capture: the buffers still fit exactly when it meets
    the guard. -/
theorem next_fits_iff (h : FramesInv screen s) (call : CaptureCall screen) :
    (s.next screen call).BuffersFit screen ↔ s.FitsAfter screen call := by
  cases call with
  | captured frame => exact captured_fits_iff h.fit.1 h.blackFrame_fits frame
  | timeout =>
    obtain ⟨b, hlast, hb⟩ := h.last
    rw [next_timeout hlast]
    exact ⟨fun _ => trivial, fun _ => buffersFit_push h.fit hb⟩
  | black => exact pushBlackFrame_fits_iff h

theorem framesInv_next (h : FramesInv screen s) {call : CaptureCall screen}
    (hok : s.FitsAfter screen call) : FramesInv screen (s.next screen call) := by
  cases call with
  | captured frame => exact framesInv_captured h.fit.1 h.blackFrame_fits h.black hok
  | timeout =>
    obtain ⟨b, hlast, hb⟩ := h.last
    rw [next_timeout hlast]
    exact ⟨buffersFit_push h.fit hb, h.stride_pos, ⟨b, rfl, hb⟩, h.turned, h.black⟩
  | black => exact framesInv_pushBlackFrame h hok

end Runs

/-- **Which runs push only buffers that are long enough**: in a run that begins with a
    successful capture every pushed buffer fits, and the black frame stays long enough,
    exactly when each call meets its condition. -/
theorem buffersFit_iff (screen : Screen) (s : WindowsFrames) (hfresh : s.Fresh)
    (frame : MappedFrame screen) (calls : List (CaptureCall screen)) :
    Along (windowsFrames screen) (WindowsFrames.BuffersFit screen) s (.captured frame :: calls) ↔
      Guarded (windowsFrames screen) (WindowsFrames.FitsAfter screen) s
        (.captured frame :: calls) := by
  have hpushes : ∀ p ∈ s.pushes, p.stride * screen.encoderHeight ≤ p.length := by
    rw [hfresh.2]
    exact nofun
  have hblack : ¬ s.blackFrame ≠ [] := not_not.mpr hfresh.1
  have hok : s.FitsAfter screen (.captured frame) := fun _ hne => absurd hne hblack
  have hinv : FramesInv screen (s.captured screen frame) :=
    framesInv_captured hpushes (fun _ hne => absurd hne hblack) (fun _ hne => absurd hne hblack) hok
  have hrest : Along (windowsFrames screen) (WindowsFrames.BuffersFit screen)
      (s.captured screen frame) calls ↔
      Guarded (windowsFrames screen) (WindowsFrames.FitsAfter screen)
        (s.captured screen frame) calls := by
    have hnext : ∀ (s : WindowsFrames) (call : CaptureCall screen),
        FramesInv screen s → True → s.FitsAfter screen call →
        FramesInv screen (s.next screen call) := fun s call hI _ hok => framesInv_next hI hok
    have hexact : ∀ (s : WindowsFrames) (call : CaptureCall screen), FramesInv screen s → True →
        ((s.next screen call).BuffersFit screen ↔ s.FitsAfter screen call) :=
      fun s call hI _ => next_fits_iff hI call
    exact along_iff_guarded_ofCommands hnext hexact hinv hinv.fit calls
  have hstep : (windowsFrames screen).step s (.captured frame) =
      some (s.captured screen frame) := rfl
  -- the first capture meets its condition, since no black frame is there yet
  refine ⟨fun h s' hs' => ?_, fun h => ⟨⟨hpushes, fun hne => absurd hne hblack⟩, fun s' hs' => ?_⟩⟩
  · have heq : s.captured screen frame = s' := Option.some.inj (hstep.symm.trans hs')
    refine ⟨hok, ?_⟩
    rw [← heq]
    exact hrest.mp (h.2 _ hstep)
  · have heq : s.captured screen frame = s' := Option.some.inj (hstep.symm.trans hs')
    rw [← heq]
    exact hrest.mpr (h _ hstep).2

/-- The smallest wide screen, turned by a quarter. -/
def wideScreen : Screen :=
  { width := 2, height := 1, rotation := .rotate90, width_pos := Nat.two_pos
    height_pos := Nat.one_pos }

def wideFrame : MappedFrame wideScreen :=
  { pixels := List.replicate 8 255, rowPitch := 8, pitch_le := by decide, length_eq := rfl }

/-- The witness: on that screen a fresh frame fits, and no black frame may follow it. -/
theorem buffersFit_iff_wideScreen :
    Along (windowsFrames wideScreen) (WindowsFrames.BuffersFit wideScreen) {}
        [.captured wideFrame, .timeout] ∧
      ¬ Along (windowsFrames wideScreen) (WindowsFrames.BuffersFit wideScreen) {}
        [.captured wideFrame, .black] := by
  refine ⟨(buffersFit_iff wideScreen {} ⟨rfl, rfl⟩ wideFrame [.timeout]).mpr ?_, fun h => ?_⟩
  · exact fun s₁ _ => ⟨fun _ hne => absurd rfl hne, fun s₂ _ => ⟨trivial, trivial⟩⟩
  · have hguard := (buffersFit_iff wideScreen {} ⟨rfl, rfl⟩ wideFrame [.black]).mp h
    have hwide := ((hguard _ rfl).2 _ rfl).1 (Or.inl rfl)
    revert hwide
    decide

/-- A lock of the session after one frame: the black frame holds 4 bytes, and 8 are read. -/
theorem blackFrame_overrun :
    ∃ s', run (windowsFrames wideScreen) anyStep {} [.captured wideFrame, .black] = some s' ∧
      s'.pushes.getLast? = some { length := 4, stride := 4 } ∧ wideScreen.encoderHeight = 2 ∧
      ¬ s'.BuffersFit wideScreen :=
  ⟨_, rfl, rfl, rfl, by decide⟩

end AVCapture.Platform
