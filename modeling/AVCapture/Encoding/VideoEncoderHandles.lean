import AVCapture.Core.Frames
import AVCapture.Core.RecordingConfig
import AVCapture.Lib.Ownership
import AVCapture.Lib.Transition

/-!
# The Handles of the Video Encoder

Model of the life of `VideoEncoder` objects (`core/video/VideoEncoder.cpp`): `create` with
`initialize` and `try_open_encoder`, the two moves, `cleanup`, and what `encode_frame` uses.
An object holds a codec context, a frame, a packet and a scaler, which FFmpeg has given it.
What `encode_frame` makes of timestamps is in `Encoding.VideoEncoderQueue`.

Any number of objects is made, moved and destroyed, in any order. Which of FFmpeg's calls
succeed is up to each call of `create`.

## Main results

- `create_eq`: the encoder that is opened, and the errors
- `encodersInv_of_reach`: nothing leaks, is freed twice or is used afterwards; every object is
  either empty or open, with formats that agree
-/

namespace AVCapture.Encoding

open AVCapture.Utils AVCapture.Core Ownership Transition

/-! ## Objects -/

inductive PixelFormat where
  | bgra
  | yuv420p
  | nv12
  deriving DecidableEq, Repr

/-- An `AVCodecContext` with the fields that `try_open_encoder` sets, but for `codec_id` and
    `codec_type`, which are the same for all encoders. `privData` are the options of the encoder
    itself, in the order in which they are set. -/
structure OpenContext where
  id : ℕ
  encoder : String
  width : Int
  height : Int
  timeBase : AVRational
  framerate : AVRational
  gopSize : Int
  bitRate : Int
  maxBFrames : Int
  pixFmt : PixelFormat
  privData : List (String × String)

/-- The reusable `AVFrame`. -/
structure EncoderFrame where
  id : ℕ
  format : PixelFormat
  width : Int
  height : Int

/-- An `SwsContext`: from the size of the source to the same size. -/
structure Scaler where
  id : ℕ
  width : Int
  height : Int
  srcFormat : PixelFormat
  dstFormat : PixelFormat

/-- The members of `VideoEncoder`. -/
structure EncoderObject where
  codecCtx : Option OpenContext := none
  frame : Option EncoderFrame := none
  packet : Option ℕ := none
  swsCtx : Option Scaler := none
  height : Int := 0

namespace EncoderObject

/-- What an object holds besides the codec context. -/
def attached (o : EncoderObject) : List (AvKind × ℕ) :=
  ptr .swsContext (o.swsCtx.map Scaler.id) ++ (ptr .frame (o.frame.map EncoderFrame.id) ++
    ptr .packet o.packet)

/-- What an object holds. -/
def handles (o : EncoderObject) : List (AvKind × ℕ) :=
  o.attached ++ ptr .codecContext (o.codecCtx.map OpenContext.id)

def cleanup (o : EncoderObject) (L : Ledger AvKind) : EncoderObject × Ledger AvKind :=
  let L := L.releasePtr .swsContext (o.swsCtx.map Scaler.id)
  let L := L.releasePtr .frame (o.frame.map EncoderFrame.id)
  let L := L.releasePtr .packet o.packet
  let L := L.releasePtr .codecContext (o.codecCtx.map OpenContext.id)
  ({ o with swsCtx := none, frame := none, packet := none, codecCtx := none }, L)

/-- `operator=` for two different objects: the target and the source afterwards. The move
    constructor is this for an empty target. -/
def moveAssign (o other : EncoderObject) (L : Ledger AvKind) :
    EncoderObject × EncoderObject × Ledger AvKind :=
  (other, {}, (o.cleanup L).2)

/-! ## Opening an encoder -/

/-- What FFmpeg answers when an encoder is tried: whether there is one of that name and a
    context for it, whether some options are left over, and what `avcodec_open2` returns. -/
structure TryOutcome where
  found : Bool
  allocated : Bool
  leftOver : Bool
  err : Int
  errText : String

/-- The encoder can be opened. -/
def TryOutcome.opens (out : TryOutcome) : Bool :=
  out.found && out.allocated && !decide (out.err < 0)

/-- The format that an encoder is opened with. -/
def pixelFormat (encoderName : String) : PixelFormat :=
  if encoderName = "h264_qsv" then .nv12 else .yuv420p

/-- The options that an encoder is opened with. The headers are repeated for all of them. -/
def privateOptions (encoderName : String) : List (String × String) :=
  ("repeat-headers", "1") ::
    if encoderName = "h264_nvenc" then
      [("preset", "p1"), ("rc", "cbr"), ("rc-lookahead", "0"), ("zerolatency", "1")]
    else if encoderName = "h264_qsv" then
      [("preset", "veryfast"), ("async_depth", "1"), ("look_ahead", "0"), ("low_power", "1")]
    else if encoderName = "h264_amf" then [("usage", "lowlatency"), ("rc", "cbr")]
    else if encoderName = "libx264" then [("preset", "veryfast"), ("tune", "zerolatency")]
    else []

def tryOpenEncoder (o : EncoderObject) (encoderName : String) (config : VideoConfig)
    (out : TryOutcome) (L : Ledger AvKind) : VoidResult × EncoderObject × Ledger AvKind :=
  if !out.found then
    -- an unknown name leaves the context of the encoder before it where it is
    (.error (makeError.withContext ("Could not find encoder: " ++ encoderName)), o, L)
  else
    let L := L.releasePtr .codecContext (o.codecCtx.map OpenContext.id)
    if !out.allocated then
      (.error (makeError.withContext ("Could not allocate encoder context for " ++ encoderName)),
        { o with codecCtx := none }, L)
    else
      let ctx : OpenContext :=
        { id := L.next, encoder := encoderName, width := config.width, height := config.height
          timeBase := { num := 1, den := config.fps }
          framerate := { num := config.fps, den := 1 }
          gopSize := config.fps
          bitRate := config.bitrate
          maxBFrames := 0
          pixFmt := pixelFormat encoderName
          privData := privateOptions encoderName }
      let L := L.acquire .codecContext
      let o := { o with codecCtx := some ctx }
      -- the options that the encoder has not used come back in a dictionary
      let L := if out.leftOver then (L.acquire .dictionary).release (.dictionary, L.next) else L
      if out.err < 0 then
        -- the context that could not be opened stays in the object
        (.error (makeError.withContext
          ("Failed to open encoder " ++ encoderName ++ " : " ++ out.errText)), o, L)
      else (.ok (), o, L)

/-- The names in the order in which they are tried. -/
def encoders : List String := ["h264_nvenc", "h264_qsv", "h264_amf", "libx264"]

/-- What FFmpeg answers to one `create`. -/
structure CreateCalls where
  tries : String → TryOutcome
  frame : Bool
  frameBuffer : Bool
  packet : Bool
  scaler : Bool

/-- The parts that follow the encoder can be made. -/
def CreateCalls.sets (out : CreateCalls) : Bool :=
  out.frame && out.frameBuffer && out.packet && out.scaler

/-- The branch of `initialize` for an encoder that has been opened. -/
def setUp (o : EncoderObject) (ctx : OpenContext) (config : VideoConfig) (out : CreateCalls)
    (L : Ledger AvKind) : VoidResult × EncoderObject × Ledger AvKind :=
  if !out.frame then
    (.error (makeError.withContext "Failed to allocate frame for video encoder"),
      { o with frame := none }, L)
  else
    let frame : EncoderFrame :=
      { id := L.next, format := ctx.pixFmt, width := ctx.width, height := ctx.height }
    let L := L.acquire .frame
    let o := { o with frame := some frame }
    if !out.frameBuffer then
      -- the frame stays in the object, which `create` then destroys
      (.error (makeError.withContext "Failed to allocate frame buffer for video encoder"), o, L)
    else if !out.packet then
      (.error (makeError.withContext "Failed to allocate packet for video encoder"),
        { o with packet := none }, L)
    else
      let o := { o with packet := some L.next }
      let L := L.acquire .packet
      if !out.scaler then
        (.error (makeError.withContext "Failed to initialize scaler for video encoder"),
          { o with swsCtx := none }, L)
      else
        let scaler : Scaler :=
          { id := L.next, width := config.width, height := config.height, srcFormat := .bgra
            dstFormat := ctx.pixFmt }
        (.ok (), { o with swsCtx := some scaler }, L.acquire .swsContext)

/-- The loop of `initialize` over the encoders. -/
def openFirst (o : EncoderObject) (config : VideoConfig) (out : CreateCalls)
    (L : Ledger AvKind) : List String → VoidResult × EncoderObject × Ledger AvKind
  | [] => (.error (makeError.withContext "No H.264 encoder could be opened"), o, L)
  | encoder :: rest =>
    match o.tryOpenEncoder encoder config (out.tries encoder) L with
    | (.error _, o, L) => openFirst o config out L rest
    | (.ok (), o, L) =>
      match o.codecCtx with
      -- an encoder that opens leaves a context
      | none => (.ok (), o, L)
      | some ctx => o.setUp ctx config out L

end EncoderObject

def EncoderObject.initialize (o : EncoderObject) (config : VideoConfig) (out : CreateCalls)
    (L : Ledger AvKind) : VoidResult × EncoderObject × Ledger AvKind :=
  openFirst { o with height := config.height } config out L encoders

/-- `create`: the local object is moved into the result, or destroyed with the error. -/
def EncoderObject.create (config : VideoConfig) (out : CreateCalls) (L : Ledger AvKind) :
    Result EncoderObject × Ledger AvKind :=
  match EncoderObject.initialize {} config out L with
  | (.error e, o, L) =>
    (.error (e.withContext "Failed initializing video encoder"), (o.cleanup L).2)
  | (.ok (), o, L) =>
    let (result, left, L) := moveAssign {} o L
    (.ok result, (left.cleanup L).2)

/-- What `encode_frame` uses. -/
def EncoderObject.encodeFrame (o : EncoderObject) (L : Ledger AvKind) : Ledger AvKind :=
  o.handles.foldl Ledger.use L

/-! ## What the functions do to the handles -/

namespace EncoderObject

variable {o : EncoderObject} {config : VideoConfig} {L : Ledger AvKind}

theorem turns_cleanup (o : EncoderObject) (L : Ledger AvKind) :
    Turns L o.handles (o.cleanup L).2 [] := by
  have hhandles : o.handles = ptr .swsContext (o.swsCtx.map Scaler.id) ++
      (ptr .frame (o.frame.map EncoderFrame.id) ++ (ptr .packet o.packet ++
        (ptr .codecContext (o.codecCtx.map OpenContext.id) ++ []))) := by
    simp only [handles, attached, List.append_assoc, List.append_nil]
  rw [hhandles]
  exact (((turns_releasePtr L _ _ _).trans (turns_releasePtr _ _ _ _)).trans
    (turns_releasePtr _ _ _ _)).trans (turns_releasePtr _ _ _ _)

/-- Trying an encoder frees the context of the encoder tried before. -/
theorem turns_tryOpenEncoder (o : EncoderObject) (encoderName : String) (config : VideoConfig)
    (out : TryOutcome) (L : Ledger AvKind) :
    Turns L o.handles (o.tryOpenEncoder encoderName config out L).2.2
      (o.tryOpenEncoder encoderName config out L).2.1.handles := by
  -- the context of the encoder before is freed, and the other parts are still there
  have hfree : Turns L o.handles (L.releasePtr .codecContext (o.codecCtx.map OpenContext.id))
      o.attached := turns_releasePtr_of_perm List.perm_append_comm L
  unfold tryOpenEncoder
  dsimp only
  split
  case isTrue => exact .refl L o.handles
  case isFalse =>
    split
    case isTrue =>
      refine hfree.perm ?_
      simp only [handles, attached, Option.map_none, ptr_none, List.append_nil]
      exact .refl _
    case isFalse =>
      generalize L.releasePtr .codecContext (o.codecCtx.map OpenContext.id) = L₁ at hfree ⊢
      have hacquire := hfree.trans (turns_acquire L₁ .codecContext o.attached)
      -- a dictionary is acquired and freed in one go
      have hdict (L : Ledger AvKind) (xs : List (AvKind × ℕ)) :
          Turns L xs (if out.leftOver then
            (L.acquire .dictionary).release (.dictionary, L.next) else L) xs := by
        split
        · exact (turns_acquire L .dictionary xs).trans (turns_release _ _ xs)
        · exact .refl L xs
      have hopen := (hacquire.trans (hdict _ _)).perm
        (List.perm_append_singleton (AvKind.codecContext, L₁.next) o.attached).symm
      split <;> exact hopen

/-- No frame, packet or scaler yet. -/
structure Bare (o : EncoderObject) : Prop where
  frame : o.frame = none
  packet : o.packet = none
  swsCtx : o.swsCtx = none

/-- An open object: everything is there, and the frame and the scaler are made for the context. -/
def IsOpen (o : EncoderObject) : Prop :=
  ∃ ctx frame packet scaler, o.codecCtx = some ctx ∧ o.frame = some frame ∧
    o.packet = some packet ∧ o.swsCtx = some scaler ∧
    (frame.format = ctx.pixFmt ∧ frame.width = ctx.width ∧ frame.height = ctx.height) ∧
    (scaler.dstFormat = ctx.pixFmt ∧ scaler.width = ctx.width ∧ scaler.height = ctx.height) ∧
    o.height = ctx.height ∧ ctx.pixFmt = pixelFormat ctx.encoder

theorem bare_tryOpenEncoder (h : o.Bare) (encoderName : String) (config : VideoConfig)
    (out : TryOutcome) (L : Ledger AvKind) :
    (o.tryOpenEncoder encoderName config out L).2.1.Bare := by
  unfold tryOpenEncoder
  dsimp only
  split_ifs <;> exact ⟨h.frame, h.packet, h.swsCtx⟩

theorem height_tryOpenEncoder (o : EncoderObject) (encoderName : String) (config : VideoConfig)
    (out : TryOutcome) (L : Ledger AvKind) :
    (o.tryOpenEncoder encoderName config out L).2.1.height = o.height := by
  unfold tryOpenEncoder
  dsimp only
  split_ifs <;> rfl

/-- What a context is opened with: the size and the rates of `config`, with a keyframe every
    second and no B-frames, and what its encoder wants. -/
structure MadeFor (ctx : OpenContext) (encoderName : String) (config : VideoConfig) : Prop where
  encoder : ctx.encoder = encoderName
  width : ctx.width = config.width
  height : ctx.height = config.height
  timeBase : ctx.timeBase = { num := 1, den := config.fps }
  framerate : ctx.framerate = { num := config.fps, den := 1 }
  gopSize : ctx.gopSize = config.fps
  bitRate : ctx.bitRate = config.bitrate
  maxBFrames : ctx.maxBFrames = 0
  pixFmt : ctx.pixFmt = pixelFormat encoderName
  privData : ctx.privData = privateOptions encoderName

theorem tryOpenEncoder_error {out : TryOutcome} (h : out.opens = false) (o : EncoderObject)
    (encoderName : String) (config : VideoConfig) (L : Ledger AvKind) :
    ∃ e, (o.tryOpenEncoder encoderName config out L).1 = .error e := by
  unfold tryOpenEncoder
  -- what is missing is the first of the three
  by_cases hfound : out.found
  · by_cases hallocated : out.allocated
    · have herr : out.err < 0 := by simpa [TryOutcome.opens, hfound, hallocated] using h
      simp [hfound, hallocated, herr]
    · simp [hfound, hallocated]
  · simp [hfound]

theorem tryOpenEncoder_ok {out : TryOutcome} (h : out.opens = true) (o : EncoderObject)
    (encoderName : String) (config : VideoConfig) (L : Ledger AvKind) :
    (o.tryOpenEncoder encoderName config out L).1 = .ok () ∧
      ∃ ctx, (o.tryOpenEncoder encoderName config out L).2.1.codecCtx = some ctx ∧
        MadeFor ctx encoderName config := by
  simp only [TryOutcome.opens, Bool.and_eq_true, Bool.not_eq_true', decide_eq_false_iff_not] at h
  obtain ⟨⟨hfound, hallocated⟩, herr⟩ := h
  unfold tryOpenEncoder
  simp only [hfound, hallocated, herr, Bool.not_true, Bool.false_eq_true, if_false, true_and]
  exact ⟨_, rfl, ⟨rfl, rfl, rfl, rfl, rfl, rfl, rfl, rfl, rfl, rfl⟩⟩

theorem turns_setUp (h : o.Bare) {ctx : OpenContext} (hctx : o.codecCtx = some ctx)
    (config : VideoConfig) (out : CreateCalls) (L : Ledger AvKind) :
    Turns L o.handles (o.setUp ctx config out L).2.2 (o.setUp ctx config out L).2.1.handles := by
  have hhandles : o.handles = [(.codecContext, ctx.id)] := by
    simp [handles, attached, h.frame, h.packet, h.swsCtx, hctx]
  have hframe := turns_acquire L .frame [(.codecContext, ctx.id)]
  have hpacket := hframe.trans (turns_acquire _ .packet _)
  have hscaler := hpacket.trans (turns_acquire _ .swsContext _)
  rw [hhandles]
  unfold setUp
  dsimp only
  split_ifs
  · -- the cases are the calls that fail, in their order, and the one without a failure
    simpa [handles, attached, h.packet, h.swsCtx, hctx] using Turns.refl L _
  · simpa [handles, attached, h.packet, h.swsCtx, hctx] using hframe
  · simpa [handles, attached, h.packet, h.swsCtx, hctx] using hframe
  · refine hpacket.perm ?_
    simpa [handles, attached, h.swsCtx, hctx] using List.Perm.swap _ _ _
  · refine hscaler.perm ?_
    simpa [handles, attached, hctx] using List.Perm.swap _ _ _

theorem setUp_ok {ctx : OpenContext} {encoderName : String} (hctx : o.codecCtx = some ctx)
    (hheight : o.height = config.height) (hmade : MadeFor ctx encoderName config)
    {out : CreateCalls} (hsets : out.sets = true) (L : Ledger AvKind) :
    (o.setUp ctx config out L).1 = .ok () ∧
      (o.setUp ctx config out L).2.1.codecCtx = some ctx ∧
        (o.setUp ctx config out L).2.1.IsOpen := by
  simp only [CreateCalls.sets, Bool.and_eq_true] at hsets
  obtain ⟨⟨⟨hframe, hbuffer⟩, hpacket⟩, hscaler⟩ := hsets
  unfold setUp
  rw [hframe, hbuffer, hpacket, hscaler]
  refine ⟨rfl, hctx, ctx, _, _, _, hctx, rfl, rfl, rfl, ⟨rfl, rfl, rfl⟩, ⟨rfl, ?_, ?_⟩, ?_, ?_⟩
  · exact hmade.width.symm
  · exact hmade.height.symm
  · exact hheight.trans hmade.height.symm
  · rw [hmade.pixFmt, hmade.encoder]

theorem setUp_error {out : CreateCalls} (hsets : out.sets = false) (o : EncoderObject)
    (ctx : OpenContext) (config : VideoConfig) (L : Ledger AvKind) :
    ∃ e, (o.setUp ctx config out L).1 = .error e := by
  unfold setUp
  dsimp only
  split_ifs with hframe hbuffer hpacket hscaler
  · exact ⟨_, rfl⟩
  · exact ⟨_, rfl⟩
  · exact ⟨_, rfl⟩
  · exact ⟨_, rfl⟩
  · -- the fourth call was the last that could fail
    have hset : out.sets = true := by simp_all [CreateCalls.sets]
    rw [hset] at hsets
    cases hsets

/-- The loop keeps account of what it makes, whichever encoders fail. -/
theorem turns_openFirst (config : VideoConfig) (out : CreateCalls) (names : List String)
    (h : o.Bare) (L : Ledger AvKind) :
    Turns L o.handles (openFirst o config out L names).2.2
      (openFirst o config out L names).2.1.handles := by
  induction names generalizing o L with
  | nil => exact .refl L o.handles
  | cons encoder rest ih =>
    have htry := turns_tryOpenEncoder o encoder config (out.tries encoder) L
    have hbare := bare_tryOpenEncoder h encoder config (out.tries encoder) L
    simp only [openFirst]
    rcases hres : o.tryOpenEncoder encoder config (out.tries encoder) L with ⟨r | ⟨⟩, o', L'⟩
    · rw [hres] at htry hbare
      -- the encoder has failed, and the loop goes on with the object as it is
      exact htry.trans (ih hbare L')
    · rw [hres] at htry hbare
      dsimp only
      -- an encoder was opened, and nothing is tried behind it
      cases hctx : o'.codecCtx with
      | none => exact htry
      | some ctx => exact htry.trans (turns_setUp hbare hctx config out L')

/-- The first encoder that can be opened is the one that is used. When it cannot be set up,
    those after it are not tried. -/
theorem openFirst_eq (config : VideoConfig) (out : CreateCalls) (names : List String)
    (hheight : o.height = config.height) (L : Ledger AvKind) :
    match names.find? fun name => (out.tries name).opens with
    | none => ∃ e, (openFirst o config out L names).1 = .error e
    | some encoder =>
      if out.sets then
        (openFirst o config out L names).1 = .ok () ∧
          (openFirst o config out L names).2.1.IsOpen ∧
            ∃ ctx, (openFirst o config out L names).2.1.codecCtx = some ctx ∧
              MadeFor ctx encoder config
      else ∃ e, (openFirst o config out L names).1 = .error e := by
  induction names generalizing o L with
  | nil => exact ⟨_, rfl⟩
  | cons encoder rest ih =>
    have hkept := height_tryOpenEncoder o encoder config (out.tries encoder) L
    rw [List.find?_cons]
    simp only [openFirst]
    cases hopens : (out.tries encoder).opens with
    -- the encoder cannot be opened, and is not the first one that can be
    | false =>
      obtain ⟨e, he⟩ := tryOpenEncoder_error hopens o encoder config L
      rcases hres : o.tryOpenEncoder encoder config (out.tries encoder) L with ⟨r, o', L'⟩
      rw [hres] at he hkept
      obtain rfl : r = .error e := he
      exact ih (hkept.trans hheight) L'
    | true =>
      obtain ⟨hok, ctx, hctx, hmade⟩ := tryOpenEncoder_ok hopens o encoder config L
      rcases hres : o.tryOpenEncoder encoder config (out.tries encoder) L with ⟨r, o', L'⟩
      rw [hres] at hok hctx hkept
      obtain rfl : r = .ok () := hok
      simp only at hctx hkept ⊢
      rw [hctx]
      -- it is the first; whether the parts behind it can be made decides
      split_ifs with hsets
      · obtain ⟨hdone, hsame, hopen⟩ := setUp_ok hctx (hkept.trans hheight) hmade hsets L'
        exact ⟨hdone, hopen, ctx, hsame, hmade⟩
      · exact setUp_error (by simpa using hsets) o' ctx config L'

theorem isOpen_openFirst {out : CreateCalls} {names : List String}
    (hheight : o.height = config.height) (hok : (openFirst o config out L names).1 = .ok ()) :
    (openFirst o config out L names).2.1.IsOpen := by
  have heq := openFirst_eq config out names hheight L
  rw [hok] at heq
  cases hfind : names.find? fun name => (out.tries name).opens with
  | none => simp [hfind] at heq
  | some encoder =>
    rw [hfind] at heq
    by_cases hsets : out.sets
    · simp only [hsets, if_true] at heq
      exact heq.2.1
    · simp [hsets] at heq

theorem turns_initialize (config : VideoConfig) (out : CreateCalls) (L : Ledger AvKind) :
    Turns L [] ( EncoderObject.initialize {} config out L).2.2
      ( EncoderObject.initialize {} config out L).2.1.handles :=
  turns_openFirst (o := { height := config.height }) config out encoders ⟨rfl, rfl, rfl⟩ L

/-- A failed `create` gives back what it took. -/
theorem turns_create (config : VideoConfig) (out : CreateCalls) (L : Ledger AvKind) :
    Turns L [] (create config out L).2 (match (create config out L).1 with
      | .error _ => []
      | .ok o => o.handles) := by
  have hinit := turns_initialize config out L
  unfold create
  rcases hres : EncoderObject.initialize {} config out L with ⟨e | ⟨⟩, o, L'⟩ <;>
    rw [hres] at hinit
  · -- the object of the failed `create` is destroyed on the way out
    exact hinit.trans (turns_cleanup o L')
  · -- the object is moved into the result, and an empty one is destroyed
    exact hinit

theorem isOpen_create {out : CreateCalls} (hok : (create config out L).1 = .ok o) : o.IsOpen := by
  have hopen : (openFirst { height := config.height } config out L encoders).1 = .ok () →
      (openFirst { height := config.height } config out L encoders).2.1.IsOpen :=
    isOpen_openFirst rfl
  unfold create EncoderObject.initialize at hok
  rcases hres : openFirst { height := config.height } config out L encoders with ⟨e | ⟨⟩, o', L'⟩
  · -- a failed `initialize` gives no object
    rw [hres] at hok
    cases hok
  · rw [hres] at hok hopen
    cases hok
    exact hopen rfl

end EncoderObject

/-! ## Encoders over time -/

/-- Encoders and the ledger of what they hold. -/
abbrev VideoEncoders := Store EncoderObject AvKind

inductive EncoderAction where
  /-- `create` in an empty place; no object is there when it fails -/
  | create (i : ℕ) (config : VideoConfig) (out : EncoderObject.CreateCalls)
  /-- a new object in place `j` from the one in place `i` -/
  | moveConstruct (i j : ℕ)
  /-- the object in place `i` is assigned to the one in place `j` -/
  | moveAssign (i j : ℕ)
  | encodeFrame (i : ℕ)
  | destroy (i : ℕ)

namespace VideoEncoders

/-- The object in place `i` is moved to place `j`, where `o` is. -/
def moveTo (s : VideoEncoders) (i j : ℕ) (other o : EncoderObject) : VideoEncoders :=
  let (target, left, L) := o.moveAssign other s.ledger
  s.moved i j target left L

def enabled (s : VideoEncoders) : EncoderAction → Prop
  | .create i _ _ => (s.object i).isNone
  | .moveConstruct i j => (s.object i).isSome ∧ (s.object j).isNone
  | .moveAssign i j => (s.object i).isSome ∧ (s.object j).isSome
  -- only an object with an open context is used
  | .encodeFrame i => (s.object i).any fun o => o.codecCtx.isSome
  | .destroy i => (s.object i).isSome

def next (s : VideoEncoders) : EncoderAction → VideoEncoders
  | .create i config out =>
    match EncoderObject.create config out s.ledger with
    | (.error _, L) => { s with ledger := L }
    | (.ok o, L) => { s with object := Function.update s.object i (some o), ledger := L }
  | .moveConstruct i j =>
    match s.object i with
    | none => s
    | some other => s.moveTo i j other {}
  | .moveAssign i j =>
    -- a self-assignment does nothing
    if i = j then s
    else
      match s.object i, s.object j with
      | some other, some o => s.moveTo i j other o
      | _, _ => s
  | .encodeFrame i =>
    match s.object i with
    | none => s
    | some o => { s with ledger := o.encodeFrame s.ledger }
  | .destroy i =>
    match s.object i with
    | none => s
    | some o =>
      { s with object := Function.update s.object i none, ledger := (o.cleanup s.ledger).2 }

end VideoEncoders

instance (s : VideoEncoders) (a : EncoderAction) : Decidable (s.enabled a) := by
  cases a <;> unfold VideoEncoders.enabled <;> infer_instance

def videoEncoders : System VideoEncoders EncoderAction :=
  .ofCommands (fun s => s = {}) VideoEncoders.enabled VideoEncoders.next

/-- Everything that is out is held by one object, and an object is either empty or open. -/
structure EncodersInv (s : VideoEncoders) : Prop where
  owns : s.Owns EncoderObject.handles
  lost : s.lost = []
  object : ∀ i o, s.object i = some o → o = {} ∨ o.IsOpen

namespace EncodersInv

variable {s : VideoEncoders} {i j : ℕ} {o other : EncoderObject}

theorem create (h : EncodersInv s) (hi : s.object i = none) (config : VideoConfig)
    (out : EncoderObject.CreateCalls) : EncodersInv (s.next (.create i config out)) := by
  have hturns := EncoderObject.turns_create config out s.ledger
  have hheld : held EncoderObject.handles (s.object i) = [] := by rw [hi]; rfl
  simp only [VideoEncoders.next]
  rcases hres : EncoderObject.create config out s.ledger with ⟨e | o, L⟩ <;>
    rw [hres] at hturns
  · -- no object is made
    have howns := h.owns.turn_nil i none (by rw [hheld]; exact hturns)
    rw [← hi, Function.update_eq_self] at howns
    exact ⟨howns, h.lost, h.object⟩
  · -- an object that has been made is open
    have hopen : o.IsOpen := EncoderObject.isOpen_create (by rw [hres])
    refine ⟨h.owns.turn_nil i (some o) (by rw [hheld]; exact hturns), h.lost, ?_⟩
    exact all_update h.object (fun o' ho' => Or.inr (Option.some.inj ho' ▸ hopen)) i

/-- An assignment cleans up the target, and takes what the source has. -/
theorem moveTo (h : EncodersInv s) (hne : i ≠ j) (hi : s.object i = some other)
    (hj : held EncoderObject.handles (s.object j) = o.handles) :
    EncodersInv (s.moveTo i j other o) := by
  refine ⟨h.owns.moved hne hi ?_ rfl, h.lost, all_moved h.object hi (Or.inl rfl) j _⟩
  rw [hj]
  exact EncoderObject.turns_cleanup o _

theorem encodeFrame (h : EncodersInv s) (i : ℕ) : EncodersInv (s.next (.encodeFrame i)) := by
  simp only [VideoEncoders.next]
  cases hi : s.object i with
  | none => exact h
  | some o =>
    -- what an object holds is out, so that its use is no misuse
    have huses : o.encodeFrame s.ledger = s.ledger :=
      h.owns.uses (i := some i) fun x hx => by
        simp only [Store.owners, hi]
        exact hx
    simp only [huses]
    exact h

theorem destroy (h : EncodersInv s) (i : ℕ) : EncodersInv (s.next (.destroy i)) := by
  simp only [VideoEncoders.next]
  cases hi : s.object i with
  | none => exact h
  | some o =>
    refine ⟨h.owns.turn_nil i none (by rw [hi]; exact EncoderObject.turns_cleanup o _), h.lost, ?_⟩
    exact all_update h.object (fun o' ho' => absurd ho' (by simp)) i

end EncodersInv

theorem encodersInv_next {s : VideoEncoders} {a : EncoderAction} (h : EncodersInv s)
    (hen : s.enabled a) : EncodersInv (s.next a) := by
  cases a with
  | create i config out => exact h.create (by simpa [VideoEncoders.enabled] using hen) config out
  | moveConstruct i j =>
    obtain ⟨hi, hj⟩ := hen
    obtain ⟨other, hi⟩ := Option.isSome_iff_exists.mp hi
    rw [Option.isNone_iff_eq_none] at hj
    -- one of the two places is empty and the other is not
    have hne : i ≠ j := by
      rintro rfl
      rw [hi] at hj
      cases hj
    simp only [VideoEncoders.next, hi]
    exact h.moveTo hne hi (by rw [hj]; rfl)
  | moveAssign i j =>
    obtain ⟨hi, hj⟩ := hen
    obtain ⟨other, hi⟩ := Option.isSome_iff_exists.mp hi
    obtain ⟨o, hj⟩ := Option.isSome_iff_exists.mp hj
    simp only [VideoEncoders.next]
    split_ifs with hij
    · exact h
    · simp only [hi, hj]
      exact h.moveTo hij hi (by rw [hj]; rfl)
  | encodeFrame i => exact h.encodeFrame i
  | destroy i => exact h.destroy i

theorem encodersInv_of_reach {s : VideoEncoders} (h : Reachable videoEncoders s) :
    EncodersInv s := by
  refine h.invariant_ofCommands (fun s hs => ?_) fun s a hI _ hen => ?_
  · rw [hs]
    exact ⟨Store.owns_empty, rfl, fun i o ho => by simp at ho⟩
  · exact encodersInv_next hI hen

/-- **What encoders hold.** However encoders are made, moved, assigned, used and destroyed, and
    whichever of FFmpeg's calls fail, nothing is freed twice or used after it was freed, and
    what is out is what the objects hold, each handle in one object. An object is either empty
    or open, with a frame and a scaler of its context's format and size. -/
theorem videoEncoders_hold {s : VideoEncoders} (h : Reachable videoEncoders s) :
    s.ledger.misused = false ∧
      (∀ x, x ∈ s.ledger.live ↔ ∃! i, ∃ o, s.object i = some o ∧ x ∈ o.handles) ∧
      (∀ i o, s.object i = some o → o = {} ∨ o.IsOpen) ∧
      ((∀ i, s.object i = none) → s.ledger.live = ∅) := by
  obtain ⟨howns, hlost, hobject⟩ := encodersInv_of_reach h
  refine ⟨howns.sound, fun x => ?_, hobject, fun hnone => ?_⟩
  · -- nothing is lost, so what is out is what some object holds
    simpa [hlost] using howns.mem_live_iff x
  · have hcard := howns.card_lost hnone
    rw [hlost] at hcard
    exact Finset.card_eq_zero.mp hcard

/-- Everything succeeds. -/
def EncoderObject.CreateCalls.allSucceed : EncoderObject.CreateCalls where
  tries _ := { found := true, allocated := true, leftOver := true, err := 0, errText := "" }
  frame := true
  frameBuffer := true
  packet := true
  scaler := true

/-- A second encoder takes the place of the first one. -/
theorem videoEncoders_hold_replaced :
    ∃ s, Reachable videoEncoders s ∧ s.ledger.next = 10 ∧ s.ledger.misused = false := by
  let actions : List EncoderAction :=
    [.create 0 {} .allSucceed, .create 1 {} .allSucceed, .encodeFrame 0, .moveAssign 1 0,
      .destroy 1, .encodeFrame 0]
  have hinit : Reachable videoEncoders {} := .init rfl
  obtain ⟨s, hreach, hnext⟩ := hinit.exists_of_run actions (fun s => s.ledger.next = 10) (by decide)
  exact ⟨s, hreach, by simpa using hnext, (videoEncoders_hold hreach).1⟩

end AVCapture.Encoding
