import AVCapture.Encoding.AudioMixer
import AVCapture.Encoding.VideoEncoderHandles

/-!
# The Handles of the Audio Encoder

Model of the life of `AudioEncoder` objects (`core/audio/AudioEncoder.cpp`): `create` with
`initialize`, the two moves, `cleanup` with `drain`, and `encode_frame`. An object holds a codec
context and a resampler. `encode_frame` takes a frame and a packet for itself, and returns from
some of its branches without giving the frame back.

The machine records what the calls of `encode_frame` have returned, so that the frames that are
lost can be counted by what the caller has seen.

## Main results

- `encodeFrame_eq`: what `encode_frame` returns is what the model of the mixer has
- `audioEncodersInv_of_reach`: what is out in every state of every run
- `audioEncoders_hold`: nothing is freed twice or used afterwards, and the lost frames are
  counted by the errors
-/

namespace AVCapture.Encoding

open AVCapture.Utils AVCapture.Core Ownership Transition

/-! ## Objects -/

/-- The `AVCodecContext` of an audio encoder, without its frame size, which FFmpeg sets. -/
structure AudioContext where
  id : ℕ
  sampleRate : Int
  channels : Int
  bitRate : Int
  timeBase : AVRational

structure Resampler where
  id : ℕ
  inChannels : Int
  outChannels : Int
  sampleRate : Int

/-- The members of `AudioEncoder`; `codec` says that `codec_` is not null. -/
structure AudioEncoderObject where
  codec : Bool := false
  codecCtx : Option AudioContext := none
  swrCtx : Option Resampler := none
  config : AudioConfig := {}

/-- What FFmpeg does in one `drain`: the packets that it still gives, and how it ends. -/
inductive DrainOutcome where
  | sendFails
  | packetAllocFails
  | drained (packets : ℕ)
  | receiveFails (packets : ℕ)

namespace AudioEncoderObject

def handles (o : AudioEncoderObject) : List (AvKind × ℕ) :=
  ptr .swrContext (o.swrCtx.map Resampler.id) ++ ptr .codecContext (o.codecCtx.map AudioContext.id)

/-- The loop of `drain`: the packets, and the call that ends it. -/
def receiveAll (ctx pkt : AvKind × ℕ) : ℕ → Ledger AvKind → Ledger AvKind
  | 0, L => (L.use ctx).use pkt
  | packets + 1, L => receiveAll ctx pkt packets ((L.use ctx).use pkt)

def drain (ctx : AvKind × ℕ) (out : DrainOutcome) (L : Ledger AvKind) :
    VoidResult × Ledger AvKind :=
  let L := L.use ctx
  let pkt := (AvKind.packet, L.next)
  match out with
  | .sendFails => (.error (makeError.withContext "Failed sending nullptr frame to encoder"), L)
  | .packetAllocFails => (.error (makeError.withContext "Failed allocating new packet"), L)
  | .drained packets => (.ok (), (receiveAll ctx pkt packets (L.acquire .packet)).release pkt)
  | .receiveFails packets =>
    (.error (makeError.withContext "Failed receiving packet from encoder"),
      (receiveAll ctx pkt packets (L.acquire .packet)).release pkt)

/-- The codec context is drained, and freed whether or not that has worked. -/
def cleanup (o : AudioEncoderObject) (out : DrainOutcome) (L : Ledger AvKind) :
    AudioEncoderObject × Ledger AvKind :=
  let L := L.releasePtr .swrContext (o.swrCtx.map Resampler.id)
  let L := match o.codecCtx with
    -- a context is drained before it is freed, and the result is not looked at
    | none => L
    | some ctx => (drain (.codecContext, ctx.id) out L).2.release (.codecContext, ctx.id)
  ({ o with swrCtx := none, codecCtx := none, codec := false }, L)

/-- `operator=` for two different objects: the target and the source afterwards. The source
    keeps its configuration. -/
def moveAssign (o other : AudioEncoderObject) (out : DrainOutcome) (L : Ledger AvKind) :
    AudioEncoderObject × AudioEncoderObject × Ledger AvKind :=
  (other, { other with codec := false, codecCtx := none, swrCtx := none }, (o.cleanup out L).2)

/-! ## Opening the encoder -/

/-- What FFmpeg does in one `initialize`. `swrAlloc` says whether there is a resampler after
    `swr_alloc_set_opts2`, and `swrRet` whether its result is not negative. -/
structure CreateCalls where
  found : Bool
  allocated : Bool
  opens : Bool
  swrAlloc : Bool
  swrRet : Bool
  swrInit : Bool
  drain : DrainOutcome

/-- All the calls succeed. -/
def CreateCalls.succeeds (out : CreateCalls) : Bool :=
  out.found && out.allocated && out.opens && out.swrAlloc && out.swrRet && out.swrInit

/-- The rest of `initialize` from the resampler on. -/
def setUp (o : AudioEncoderObject) (ctx : AudioContext) (out : CreateCalls) (L : Ledger AvKind) :
    VoidResult × AudioEncoderObject × Ledger AvKind :=
  let swr : Resampler :=
    { id := L.next, inChannels := o.config.channels, outChannels := ctx.channels
      sampleRate := ctx.sampleRate }
  let (o, L) :=
    if out.swrAlloc then ({ o with swrCtx := some swr }, L.acquire .swrContext)
    else ({ o with swrCtx := none }, L)
  -- `swr_alloc_set_opts2` may leave a resampler and report an error
  if !out.swrRet || !out.swrAlloc then
    let (o, L) := o.cleanup out.drain L
    (.error (makeError.withContext "Failed to allocated audio resampler"), o, L)
  else if !out.swrInit then
    let (o, L) := o.cleanup out.drain L
    (.error (makeError.withContext "Failed to initialize audio resampler"), o, L)
  else (.ok (), o, L)

end AudioEncoderObject

def AudioEncoderObject.initialize (o : AudioEncoderObject) (config : AudioConfig)
    (out : AudioEncoderObject.CreateCalls) (L : Ledger AvKind) :
    VoidResult × AudioEncoderObject × Ledger AvKind :=
  let o := { o with config := config, codec := out.found }
  if !out.found then (.error (makeError.withContext "AAC codec not found"), o, L)
  else if !out.allocated then
    (.error (makeError.withContext "Could not allocate codec context"),
      { o with codecCtx := none }, L)
  else
    let ctx : AudioContext :=
      { id := L.next, sampleRate := config.sampleRate
        -- two channels are made of two, and one of any other number
        channels := if config.channels = 2 then 2 else 1, bitRate := config.bitrate
        timeBase := { num := 1, den := config.sampleRate } }
    let o := { o with codecCtx := some ctx }
    let L := L.acquire .codecContext
    -- from here on `initialize` cleans up by itself
    if !out.opens then
      let (o, L) := o.cleanup out.drain L
      (.error (makeError.withContext "Failed to open audio codec"), o, L)
    else o.setUp ctx out L

/-- `create`: the local object is moved into the result, or destroyed with the error. -/
def AudioEncoderObject.create (config : AudioConfig) (out : AudioEncoderObject.CreateCalls)
    (L : Ledger AvKind) : Result AudioEncoderObject × Ledger AvKind :=
  match AudioEncoderObject.initialize {} config out L with
  -- the second cleanup finds nothing
  | (.error e, o, L) =>
    (.error (e.withContext "Failed initializing audio encoder"), (o.cleanup out.drain L).2)
  | (.ok (), o, L) =>
    let (result, left, L) := moveAssign {} o out.drain L
    (.ok result, (left.cleanup out.drain L).2)

/-! ## Encoding a frame -/

namespace AudioEncoderObject

/-- What a call of `encode_frame` leaves: what it returns, the object, the ledger, and the
    handles that it has taken and that nobody knows any more. -/
structure Encoded where
  result : Result Bool
  object : AudioEncoderObject
  ledger : Ledger AvKind
  lost : List (AvKind × ℕ) := []

/-- From `av_packet_alloc` on: the packet and the frame are given back in every branch. `sent`
    says that `avcodec_send_frame` has succeeded, so that a packet is asked for. -/
def sendFrame (o : AudioEncoderObject) (ctx frame : AvKind × ℕ) (sent : Bool)
    (L : Ledger AvKind) (result : Result Bool) : Encoded :=
  let pkt := (AvKind.packet, L.next)
  -- `avcodec_send_frame`, and then `avcodec_receive_packet`
  let L := ((L.acquire .packet).use ctx).use frame
  let L := if sent then (L.use ctx).use pkt else L
  { result := result, object := o, ledger := (L.release pkt).release frame }

def encodeFrame (o : AudioEncoderObject) (out : AudioEncodeOutcome) (drainOut : DrainOutcome)
    (L : Ledger AvKind) : Encoded :=
  let failed (text : String) : Result Bool := .error (makeError.withContext text)
  match o.codecCtx with
  | none => { result := failed "codec was not initialized", object := o, ledger := L }
  | some ctx =>
    match o.swrCtx with
    | none => { result := failed "swr was not initialized", object := o, ledger := L }
    | some swr =>
      let ctx := (AvKind.codecContext, ctx.id)
      let frame := (AvKind.frame, L.next)
      let filled := ((L.acquire .frame).use ctx).use frame
      let converted := (filled.use (.swrContext, swr.id)).use frame
      match out with
      | .frameAllocFails =>
        { result := failed "Failed allocating frame", object := o, ledger := L }
      | .frameBufferFails =>
        -- the encoder is freed, and the frame is not
        let (o, L) := o.cleanup drainOut filled
        { result := failed "Failed to allocated audio frame buffer"
          object := o, ledger := L, lost := [frame] }
      -- in these three the encoder stays as it was, and the frame is lost
      | .convertFails =>
        { result := failed "Audio resampling failed"
          object := o, ledger := converted, lost := [frame] }
      | .convertsNothing =>
        { result := failed "Could not convert samples"
          object := o, ledger := converted, lost := [frame] }
      | .packetAllocFails =>
        { result := failed "ffmpeg packet was not initialized"
          object := o, ledger := converted, lost := [frame] }
      | .sendFails =>
        o.sendFrame ctx frame false converted (failed "Failed to send audio frame to encoder")
      | .again | .eof => o.sendFrame ctx frame true converted (.ok false)
      | .receiveFails =>
        o.sendFrame ctx frame true converted (failed "Failed to recieve audio packet")
      | .packet .. => o.sendFrame ctx frame true converted (.ok true)

/-- **The mixer's encoder**: what `encode_frame` returns, and whether the encoder is there
    afterwards, is what the model of the mixer says. -/
theorem encodeFrame_eq (o : AudioEncoderObject) (hboth : o.codecCtx.isSome = o.swrCtx.isSome)
    (out : AudioEncodeOutcome) (drainOut : DrainOutcome) (L : Ledger AvKind) (enc : AudioEncoder)
    (henc : enc.initialized = o.codecCtx.isSome) (pcmData : List Int) (sampleCount pts : Int) :
    (o.encodeFrame out drainOut L).result =
        ((enc.encodeFrame pcmData sampleCount pts out).1.map Option.isSome) ∧
      (o.encodeFrame out drainOut L).object.codecCtx.isSome =
        (enc.encodeFrame pcmData sampleCount pts out).2.initialized := by
  unfold encodeFrame AudioEncoder.encodeFrame
  -- the object has both the context and the resampler, or neither
  cases hctx : o.codecCtx with
  | none => simp [henc, hctx, Except.map]
  | some ctx =>
    cases hswr : o.swrCtx with
    | none => simp [hctx, hswr] at hboth
    | some swr =>
      cases out <;> simp [henc, hctx, Except.map, sendFrame, cleanup]

/-! ## What the functions do to the handles -/

variable {o : AudioEncoderObject} {L : Ledger AvKind} {ctx pkt : AvKind × ℕ}
  {xs : List (AvKind × ℕ)}

theorem turns_receiveAll (hctx : ctx ∈ xs) (hpkt : pkt ∈ xs) (packets : ℕ) (L : Ledger AvKind) :
    Turns L xs (receiveAll ctx pkt packets L) xs := by
  -- each packet is one more use of the context and of the packet
  induction packets generalizing L with
  | zero => exact (turns_use hctx L).trans (turns_use hpkt _)
  | succ packets ih => exact ((turns_use hctx L).trans (turns_use hpkt _)).trans (ih _)

theorem turns_drain (hctx : ctx ∈ xs) (out : DrainOutcome) (L : Ledger AvKind) :
    Turns L xs (drain ctx out L).2 xs := by
  have huse := turns_use hctx L
  have hloop (packets : ℕ) := (huse.trans (turns_acquire _ .packet xs)).trans
    ((turns_receiveAll (List.mem_cons_of_mem _ hctx) List.mem_cons_self packets _).trans
      (turns_release _ _ xs))
  -- the packet is there in the two cases that have allocated it
  cases out with
  | sendFails => exact huse
  | packetAllocFails => exact huse
  | drained packets => exact hloop packets
  | receiveFails packets => exact hloop packets

theorem turns_cleanup (o : AudioEncoderObject) (out : DrainOutcome) (L : Ledger AvKind) :
    Turns L o.handles (o.cleanup out L).2 [] := by
  have hswr := turns_releasePtr L .swrContext (o.swrCtx.map Resampler.id)
    (ptr .codecContext (o.codecCtx.map AudioContext.id))
  unfold cleanup handles
  cases hctx : o.codecCtx with
  -- without a context there is nothing to drain
  | none =>
    rw [hctx] at hswr
    exact hswr
  | some ctx =>
    rw [hctx] at hswr
    exact (hswr.trans (turns_drain List.mem_cons_self out _)).trans (turns_release _ _ [])

theorem turns_sendFrame (o : AudioEncoderObject) (sent : Bool) (result : Result Bool)
    {frame : AvKind × ℕ} (hctx : ctx ∈ xs) (L : Ledger AvKind) :
    Turns L (frame :: xs) (o.sendFrame ctx frame sent L result).ledger xs := by
  -- `turns_use` asks that the context is still among what is held
  have hcopy : (frame :: xs) ⊆ (AvKind.packet, L.next) :: frame :: xs := List.subset_cons_self _ _
  have hin : ctx ∈ (AvKind.packet, L.next) :: frame :: xs := hcopy (List.mem_cons_of_mem _ hctx)
  have hsend := ((turns_acquire L .packet (frame :: xs)).trans (turns_use hin _)).trans
    (turns_use (hcopy List.mem_cons_self) _)
  have hreceive (L' : Ledger AvKind) := (turns_use hin L').trans (turns_use List.mem_cons_self _)
  have hfree (L' : Ledger AvKind) :=
    (turns_release L' (AvKind.packet, L.next) (frame :: xs)).trans (turns_release _ frame xs)
  unfold sendFrame
  dsimp only
  split_ifs
  · exact (hsend.trans (hreceive _)).trans (hfree _)
  · exact hsend.trans (hfree _)

theorem handles_cleanup (o : AudioEncoderObject) (out : DrainOutcome) (L : Ledger AvKind) :
    (o.cleanup out L).1.handles = [] := rfl

theorem turns_setUp (hswr : o.swrCtx = none) (ctx : AudioContext) (out : CreateCalls)
    (L : Ledger AvKind) :
    Turns L o.handles (o.setUp ctx out L).2.2 (o.setUp ctx out L).2.1.handles := by
  -- both failures of `setUp` end in the cleanup of what it has
  have hclean (o' : AudioEncoderObject) (L' : Ledger AvKind)
      (h : Turns L o.handles L' o'.handles) :
      Turns L o.handles (o'.cleanup out.drain L').2 (o'.cleanup out.drain L').1.handles := by
    rw [handles_cleanup]
    exact h.trans (turns_cleanup o' out.drain L')
  unfold setUp
  dsimp only
  cases out.swrAlloc with
  -- no resampler: the object is cleaned up with its context alone
  | false =>
    have hsame : Turns L o.handles L ({ o with swrCtx := none } : AudioEncoderObject).handles := by
      simpa only [handles, hswr] using Turns.refl L o.handles
    simp only [Bool.not_false, Bool.or_true, if_true, Bool.false_eq_true, if_false]
    exact hclean _ _ hsame
  | true =>
    have hacquire := turns_acquire L .swrContext o.handles
    simp only [handles, hswr, Option.map_none, ptr_none, List.nil_append] at hacquire hclean ⊢
    simp only [Bool.not_true, Bool.or_false, if_true]
    split_ifs
    · exact hclean _ _ hacquire
    · exact hclean _ _ hacquire
    · exact hacquire

theorem turns_initialize (config : AudioConfig) (out : CreateCalls) (L : Ledger AvKind) :
    Turns L [] ( AudioEncoderObject.initialize {} config out L).2.2
      ( AudioEncoderObject.initialize {} config out L).2.1.handles := by
  have hacquire (o : AudioEncoderObject) (hctx : o.codecCtx.map AudioContext.id = some L.next)
      (hswr : o.swrCtx = none) : Turns L [] (L.acquire .codecContext) o.handles := by
    simpa [handles, hctx, hswr] using turns_acquire L .codecContext []
  unfold AudioEncoderObject.initialize
  dsimp only
  -- the codec is not found, no context is allocated, the codec does not open, or the rest decides
  split
  · exact .refl L []
  split
  · exact .refl L []
  split
  · exact (hacquire _ rfl rfl).trans (turns_cleanup _ _ _)
  · exact (hacquire _ rfl rfl).trans (turns_setUp rfl _ _ _)

/-- A failed `create` gives back what it took. -/
theorem turns_create (config : AudioConfig) (out : CreateCalls) (L : Ledger AvKind) :
    Turns L [] (create config out L).2 (match (create config out L).1 with
      | .error _ => []
      | .ok o => o.handles) := by
  have hinit := turns_initialize config out L
  unfold create
  rcases hres : AudioEncoderObject.initialize {} config out L with ⟨e | ⟨⟩, o, L'⟩ <;>
    rw [hres] at hinit
  · -- what the local object still holds is freed by its destructor
    exact hinit.trans (turns_cleanup o out.drain L')
  · -- the handles go over to the result
    exact hinit

/-- Nothing is held, as after `cleanup`. -/
def IsClosed (o : AudioEncoderObject) : Prop :=
  o.codec = false ∧ o.codecCtx = none ∧ o.swrCtx = none

/-- An open object: the resampler leads from the channels of the configuration to those of the
    context, at the rate of both. -/
def IsOpen (o : AudioEncoderObject) : Prop :=
  ∃ ctx swr, o.codec = true ∧ o.codecCtx = some ctx ∧ o.swrCtx = some swr ∧
    ctx.sampleRate = o.config.sampleRate ∧ swr.sampleRate = o.config.sampleRate ∧
    swr.inChannels = o.config.channels ∧ swr.outChannels = ctx.channels ∧
    (ctx.channels = 1 ∨ ctx.channels = 2)

theorem setUp_cases (o : AudioEncoderObject) (ctx : AudioContext) (out : CreateCalls)
    (L : Ledger AvKind) :
    if out.swrAlloc && out.swrRet && out.swrInit then
      (o.setUp ctx out L).1 = .ok () ∧ (o.setUp ctx out L).2.1 =
        { o with swrCtx := some { id := L.next, inChannels := o.config.channels
                                  outChannels := ctx.channels, sampleRate := ctx.sampleRate } }
    else ∃ e, (o.setUp ctx out L).1 = .error e := by
  unfold setUp
  cases out.swrAlloc <;> cases out.swrRet <;> cases out.swrInit <;> simp

theorem initialize_cases (config : AudioConfig) (out : CreateCalls) (L : Ledger AvKind) :
    if out.succeeds then
      ( AudioEncoderObject.initialize {} config out L).1 = .ok () ∧
        ( AudioEncoderObject.initialize {} config out L).2.1.IsOpen ∧
          ( AudioEncoderObject.initialize {} config out L).2.1.config = config
    else ∃ e, ( AudioEncoderObject.initialize {} config out L).1 = .error e := by
  have hchannels : (if config.channels = 2 then (2 : Int) else 1) = 1 ∨
      (if config.channels = 2 then (2 : Int) else 1) = 2 := by
    split_ifs <;> simp
  unfold AudioEncoderObject.initialize CreateCalls.succeeds
  -- the calls in their order, up to the first one that fails
  cases hfound : out.found
  · simp
  cases out.allocated
  · simp
  cases out.opens
  · simp
  generalize (if config.channels = 2 then (2 : Int) else 1) = channels at hchannels ⊢
  have hset (o : AudioEncoderObject) (ctx : AudioContext) (L' : Ledger AvKind) :=
    setUp_cases o ctx out L'
  simp only [Bool.true_and, Bool.not_true, Bool.false_eq_true, if_false]
  by_cases hsets : out.swrAlloc && out.swrRet && out.swrInit
  · simp only [hsets, if_true] at hset ⊢
    obtain ⟨hok, heq⟩ := hset _ _ _
    rw [heq]
    exact ⟨hok, ⟨_, _, rfl, rfl, rfl, rfl, rfl, rfl, rfl, hchannels⟩, rfl⟩
  · simp only [hsets, Bool.false_eq_true, if_false] at hset ⊢
    exact hset _ _ _

/-- `create` succeeds exactly when every call does. -/
theorem create_cases (config : AudioConfig) (out : CreateCalls) (L : Ledger AvKind) :
    if out.succeeds then ∃ o, (create config out L).1 = .ok o ∧ o.IsOpen ∧ o.config = config
    else ∃ e, (create config out L).1 = .error e := by
  have hinit := initialize_cases config out L
  unfold create
  rcases hres : AudioEncoderObject.initialize {} config out L with ⟨r, o, L'⟩
  rw [hres] at hinit
  by_cases hsucceeds : out.succeeds
  · simp only [hsucceeds, if_true] at hinit ⊢
    obtain ⟨rfl, hopen, hconfig⟩ := hinit
    exact ⟨o, rfl, hopen, hconfig⟩
  · simp only [hsucceeds, Bool.false_eq_true, if_false] at hinit ⊢
    obtain ⟨e, rfl⟩ := hinit
    exact ⟨_, rfl⟩

theorem turns_encodeFrame (o : AudioEncoderObject) (out : AudioEncodeOutcome)
    (drainOut : DrainOutcome) (L : Ledger AvKind) :
    Turns L o.handles (o.encodeFrame out drainOut L).ledger
      ((o.encodeFrame out drainOut L).object.handles ++ (o.encodeFrame out drainOut L).lost) := by
  unfold encodeFrame
  cases hctx : o.codecCtx with
  -- `codec_ctx_` is null: an error, and nothing is touched
  | none => simpa using Turns.refl L o.handles
  | some ctx =>
    cases hswr : o.swrCtx with
    | none => simpa using Turns.refl L o.handles
    | some swr =>
      have hin : (AvKind.codecContext, ctx.id) ∈ o.handles := by simp [handles, hctx]
      have hswrin : (AvKind.swrContext, swr.id) ∈ o.handles := by simp [handles, hswr]
      -- the frame with its buffer, and then with the samples of the resampler
      have hfilled := ((turns_acquire L .frame o.handles).trans
        (turns_use (List.mem_cons_of_mem _ hin) _)).trans (turns_use List.mem_cons_self _)
      have hconverted := (hfilled.trans (turns_use (List.mem_cons_of_mem _ hswrin) _)).trans
        (turns_use List.mem_cons_self _)
      -- a lost frame is behind what the object holds
      have hlost : ((AvKind.frame, L.next) :: o.handles).Perm (o.handles ++ [(.frame, L.next)]) :=
        (List.perm_append_singleton _ _).symm
      have hsend (sent : Bool) (result : Result Bool) := hconverted.trans
        (turns_sendFrame o sent result hin _)
      have hsent (sent : Bool) (result : Result Bool) (L' : Ledger AvKind) :
          (o.sendFrame (.codecContext, ctx.id) (.frame, L.next) sent L' result).object.handles ++
            (o.sendFrame (.codecContext, ctx.id) (.frame, L.next) sent L' result).lost =
              o.handles := List.append_nil _
      have hleaked := hconverted.perm hlost
      cases out with
      | frameAllocFails => simpa using Turns.refl L o.handles
      -- the cleanup leaves the frame alone
      | frameBufferFails => exact (hfilled.perm hlost).trans ((turns_cleanup o drainOut _).frame _)
      -- the object keeps what it had, and the frame is out besides
      | convertFails | convertsNothing | packetAllocFails =>
        dsimp only
        exact hleaked
      -- the frame is given back with the packet
      | sendFails | again | eof | receiveFails | packet =>
        dsimp only
        rw [hsent]
        exact hsend _ _

/-- The errors after which a frame is lost. -/
def leakTexts : List String :=
  ["Failed to allocated audio frame buffer", "Audio resampling failed",
    "Could not convert samples", "ffmpeg packet was not initialized"]

/-- The call has lost its frame, by what it returned. -/
def leaks : Result Bool → Bool
  | .ok _ => false
  | .error e => e.contextStack.any fun text => leakTexts.contains text

theorem lost_encodeFrame (o : AudioEncoderObject) (out : AudioEncodeOutcome)
    (drainOut : DrainOutcome) (L : Ledger AvKind) :
    (o.encodeFrame out drainOut L).lost =
      if leaks (o.encodeFrame out drainOut L).result then [(.frame, L.next)] else [] := by
  unfold encodeFrame
  cases o.codecCtx with
  | none => rfl
  | some ctx =>
    cases o.swrCtx with
    | none => rfl
    | some swr => cases out <;> rfl

/-- An object that has a context has a resampler. -/
theorem result_encodeFrame (h : o.IsClosed ∨ o.IsOpen) (out : AudioEncodeOutcome)
    (drainOut : DrainOutcome) (L : Ledger AvKind) :
    (o.encodeFrame out drainOut L).result ≠
      .error (makeError.withContext "swr was not initialized") := by
  unfold encodeFrame
  rcases h with ⟨-, hctx, hswr⟩ | ⟨ctx, swr, -, hctx, hswr, -⟩
  · simp [hctx, makeError, Error.withContext]
  · -- both parts are there, and none of the outcomes has this text
    cases out <;> simp [hctx, hswr, sendFrame, makeError, Error.withContext]

theorem object_encodeFrame (o : AudioEncoderObject) (out : AudioEncodeOutcome)
    (drainOut : DrainOutcome) (L : Ledger AvKind) :
    (o.encodeFrame out drainOut L).object = o ∨
      (o.encodeFrame out drainOut L).object.IsClosed := by
  unfold encodeFrame
  cases hctx : o.codecCtx with
  | none => exact Or.inl rfl
  | some ctx =>
    cases hswr : o.swrCtx with
    | none => exact Or.inl rfl
    | some swr =>
      cases out with
      -- the only outcome that cleans the object up
      | frameBufferFails => exact Or.inr ⟨rfl, rfl, rfl⟩
      | _ => exact Or.inl rfl

end AudioEncoderObject

/-! ## Encoders over time -/

/-- Encoders and the ledger of what they hold. Recorded besides: what the calls of
    `encode_frame` have returned. -/
structure AudioEncoders where
  store : Store AudioEncoderObject AvKind := {}
  results : List (Result Bool) := []

inductive AudioEncoderAction where
  /-- `create` in an empty place; no object is there when it fails -/
  | create (i : ℕ) (config : AudioConfig) (out : AudioEncoderObject.CreateCalls)
  /-- a new object in place `j` from the one in place `i` -/
  | moveConstruct (i j : ℕ)
  /-- the object in place `i` is assigned to the one in place `j` -/
  | moveAssign (i j : ℕ) (drain : DrainOutcome)
  | encodeFrame (i : ℕ) (out : AudioEncodeOutcome) (drain : DrainOutcome)
  | destroy (i : ℕ) (drain : DrainOutcome)

namespace AudioEncoders

/-- The object in place `i` is moved to place `j`, where `o` is. -/
def moveTo (s : AudioEncoders) (i j : ℕ) (other o : AudioEncoderObject) (drain : DrainOutcome) :
    AudioEncoders :=
  let (target, left, L) := o.moveAssign other drain s.store.ledger
  { s with store := s.store.moved i j target left L }

def enabled (s : AudioEncoders) : AudioEncoderAction → Prop
  | .create i _ _ => (s.store.object i).isNone
  | .moveConstruct i j => (s.store.object i).isSome ∧ (s.store.object j).isNone
  | .moveAssign i j _ => (s.store.object i).isSome ∧ (s.store.object j).isSome
  | .encodeFrame i _ _ | .destroy i _ => (s.store.object i).isSome

instance decidableEnabled (s : AudioEncoders) (a : AudioEncoderAction) :
    Decidable (s.enabled a) := by
  cases a <;> unfold enabled <;> infer_instance

def next (s : AudioEncoders) : AudioEncoderAction → AudioEncoders
  | .create i config out =>
    match AudioEncoderObject.create config out s.store.ledger with
    | (.error _, L) => { s with store := { s.store with ledger := L } }
    | (.ok o, L) =>
      { s with
        store :=
          { s.store with object := Function.update s.store.object i (some o), ledger := L } }
  | .moveConstruct i j =>
    match s.store.object i with
    | none => s
    | some other => s.moveTo i j other {} .sendFails -- the new object has nothing to drain
  | .moveAssign i j drain =>
    -- a self-assignment does nothing
    if i = j then s
    else
      match s.store.object i, s.store.object j with
      | some other, some o => s.moveTo i j other o drain
      | _, _ => s
  | .encodeFrame i out drain =>
    match s.store.object i with
    | none => s
    | some o =>
      let e := o.encodeFrame out drain s.store.ledger
      { store :=
          { object := Function.update s.store.object i (some e.object)
            ledger := e.ledger
            lost := e.lost ++ s.store.lost }
        results := e.result :: s.results }
  | .destroy i drain =>
    match s.store.object i with
    | none => s
    | some o =>
      { s with
        store :=
          { s.store with
            object := Function.update s.store.object i none
            ledger := (o.cleanup drain s.store.ledger).2 } }

end AudioEncoders

def audioEncoders : System AudioEncoders AudioEncoderAction :=
  .ofCommands (fun s => s = {}) AudioEncoders.enabled AudioEncoders.next

/-- Everything that is out is held by one object, or is a lost frame. -/
structure AudioEncodersInv (s : AudioEncoders) : Prop where
  owns : s.store.Owns AudioEncoderObject.handles
  lost : s.store.lost.length = s.results.countP AudioEncoderObject.leaks
  frame : ∀ x ∈ s.store.lost, x.1 = .frame
  swr : .error (makeError.withContext "swr was not initialized") ∉ s.results
  object : ∀ i o, s.store.object i = some o → o.IsClosed ∨ o.IsOpen

namespace AudioEncodersInv

open AudioEncoderObject

variable {s : AudioEncoders} {i j : ℕ} {o other : AudioEncoderObject}

theorem create (h : AudioEncodersInv s) (hi : s.store.object i = none) (config : AudioConfig)
    (out : CreateCalls) : AudioEncodersInv (s.next (.create i config out)) := by
  have hturns := turns_create config out s.store.ledger
  have hcases := create_cases config out s.store.ledger
  have hheld : held handles (s.store.object i) = [] := by rw [hi]; rfl
  simp only [AudioEncoders.next]
  rcases hres : AudioEncoderObject.create config out s.store.ledger with ⟨e | o, L⟩ <;>
    rw [hres] at hturns hcases
  · -- no object is made
    have howns := h.owns.turn_nil i none (by rw [hheld]; exact hturns)
    rw [← hi, Function.update_eq_self] at howns
    exact ⟨howns, h.lost, h.frame, h.swr, h.object⟩
  · -- only a successful `create` makes an object
    have hopen : o.IsOpen := by
      split at hcases
      · obtain ⟨_, hok, hopen, _⟩ := hcases
        cases hok
        exact hopen
      · obtain ⟨_, he⟩ := hcases
        cases he
    refine ⟨h.owns.turn_nil i (some o) (by rw [hheld]; exact hturns), h.lost, h.frame, h.swr, ?_⟩
    exact all_update h.object (fun o' ho' => Or.inr (Option.some.inj ho' ▸ hopen)) i

theorem moveTo (h : AudioEncodersInv s) (hne : i ≠ j) (hi : s.store.object i = some other)
    (hj : held handles (s.store.object j) = o.handles) (drain : DrainOutcome) :
    AudioEncodersInv (s.moveTo i j other o drain) := by
  refine ⟨h.owns.moved hne hi ?_ rfl, h.lost, h.frame, h.swr,
    all_moved h.object hi (Or.inl ⟨rfl, rfl, rfl⟩) j _⟩
  rw [hj]
  exact turns_cleanup o drain _

/-- The frame of a call is lost, or given back. -/
theorem encodeFrame (h : AudioEncodersInv s) (i : ℕ) (out : AudioEncodeOutcome)
    (drain : DrainOutcome) : AudioEncodersInv (s.next (.encodeFrame i out drain)) := by
  simp only [AudioEncoders.next]
  cases hi : s.store.object i with
  | none => exact h
  | some o =>
    have hlost := lost_encodeFrame o out drain s.store.ledger
    have howns := h.owns.turn i (some (o.encodeFrame out drain s.store.ledger).object)
      (by rw [hi]; exact turns_encodeFrame o out drain s.store.ledger)
    have hswr := result_encodeFrame (h.object i o hi) out drain s.store.ledger
    refine ⟨howns, ?_, fun x hx => ?_, ?_, all_update h.object (fun o' ho' => ?_) i⟩
    · -- the call has lost a frame exactly if its result says so
      simp only [hlost, List.length_append, List.countP_cons, h.lost]
      split_ifs <;> simp [Nat.add_comm]
    · rcases List.mem_append.mp hx with hnew | hold
      · simp only [hlost] at hnew
        split_ifs at hnew
        · rw [List.mem_singleton.mp hnew]
        · cases hnew
      · exact h.frame x hold
    · exact List.not_mem_cons_of_ne_of_not_mem hswr.symm h.swr
    · cases ho'
      -- the object is what it was, or closed
      rcases object_encodeFrame o out drain s.store.ledger with hsame | hclosed
      · rw [hsame]
        exact h.object i o hi
      · exact Or.inl hclosed

theorem destroy (h : AudioEncodersInv s) (i : ℕ) (drain : DrainOutcome) :
    AudioEncodersInv (s.next (.destroy i drain)) := by
  simp only [AudioEncoders.next]
  cases hi : s.store.object i with
  | none => exact h
  | some o =>
    refine ⟨h.owns.turn_nil i none (by rw [hi]; exact turns_cleanup o drain _), h.lost,
      h.frame, h.swr, ?_⟩
    exact all_update h.object (fun o' ho' => absurd ho' (by simp)) i

end AudioEncodersInv

theorem audioEncodersInv_next {s : AudioEncoders} {a : AudioEncoderAction}
    (h : AudioEncodersInv s) (hen : s.enabled a) : AudioEncodersInv (s.next a) := by
  cases a with
  | create i config out => exact h.create (by simpa [AudioEncoders.enabled] using hen) config out
  | moveConstruct i j =>
    obtain ⟨hi, hj⟩ := hen
    obtain ⟨other, hi⟩ := Option.isSome_iff_exists.mp hi
    rw [Option.isNone_iff_eq_none] at hj
    -- one of the two places is empty and the other is not
    have hne : i ≠ j := by
      rintro rfl
      rw [hi] at hj
      cases hj
    simp only [AudioEncoders.next, hi]
    exact h.moveTo hne hi (by rw [hj]; rfl) _
  | moveAssign i j drain =>
    obtain ⟨hi, hj⟩ := hen
    obtain ⟨other, hi⟩ := Option.isSome_iff_exists.mp hi
    obtain ⟨o, hj⟩ := Option.isSome_iff_exists.mp hj
    simp only [AudioEncoders.next]
    split_ifs with hij
    · exact h
    · simp only [hi, hj]
      exact h.moveTo hij hi (by rw [hj]; rfl) drain
  | encodeFrame i out drain => exact h.encodeFrame i out drain
  | destroy i drain => exact h.destroy i drain

theorem audioEncodersInv_of_reach {s : AudioEncoders} (h : Reachable audioEncoders s) :
    AudioEncodersInv s := by
  refine h.invariant_ofCommands (fun s hs => ?_) fun s a hI _ hen => ?_
  · rw [hs]
    exact ⟨Store.owns_empty, rfl, by simp, by simp, fun i o ho => by simp at ho⟩
  · exact audioEncodersInv_next hI hen

/-- **What audio encoders hold.** However encoders are made, moved, assigned, used and
    destroyed, and whichever of FFmpeg's calls fail, nothing is freed twice or used after it was
    freed. What is out is held by one object, or is a frame that `encode_frame` has lost, and
    there are as many of these as calls that have returned one of four errors; they are all
    that is left when the objects are destroyed. An object is closed or open, so that
    `encode_frame` never finds a context without a resampler. -/
theorem audioEncoders_hold {s : AudioEncoders} (h : Reachable audioEncoders s) :
    s.store.ledger.misused = false ∧
      (∀ x, x ∈ s.store.ledger.live ↔
        x ∈ s.store.lost ∨ ∃! i, ∃ o, s.store.object i = some o ∧ x ∈ o.handles) ∧
      ((∀ x ∈ s.store.lost, x.1 = .frame) ∧ s.store.lost.Nodup ∧
        s.store.lost.length = s.results.countP AudioEncoderObject.leaks) ∧
      (∀ i o, s.store.object i = some o → o.IsClosed ∨ o.IsOpen) ∧
      .error (makeError.withContext "swr was not initialized") ∉ s.results ∧
      ((∀ i, s.store.object i = none) →
        s.store.ledger.live.card = s.results.countP AudioEncoderObject.leaks) := by
  obtain ⟨howns, hlost, hframe, hswr, hobject⟩ := audioEncodersInv_of_reach h
  refine ⟨howns.sound, howns.mem_live_iff, ⟨hframe, howns.nodup none, hlost⟩, hobject, hswr,
    fun hnone => ?_⟩
  rw [howns.card_lost hnone, hlost]

/-- Two frames are lost before the encoder is destroyed. -/
theorem audioEncoders_hold_lost :
    ∃ s, Reachable audioEncoders s ∧ s.results.length = 3 ∧ s.store.lost.length = 2 ∧
      s.store.ledger.misused = false := by
  let out : AudioEncoderObject.CreateCalls :=
    { found := true, allocated := true, opens := true, swrAlloc := true, swrRet := true
      swrInit := true, drain := .drained 1 }
  let actions : List AudioEncoderAction :=
    [.create 0 {} out, .encodeFrame 0 (.packet [] 0 0 true) (.drained 0),
      .encodeFrame 0 .convertsNothing (.drained 0),
      .encodeFrame 0 .frameBufferFails (.receiveFails 1), .destroy 0 (.drained 0)]
  have hinit : Reachable audioEncoders {} := .init rfl
  obtain ⟨s, hreach, hend⟩ := hinit.exists_of_run actions
    (fun s => s.results.length = 3 && s.store.lost.length = 2) (by decide)
  simp only [Bool.and_eq_true, decide_eq_true_eq] at hend
  exact ⟨s, hreach, hend.1, hend.2, (audioEncoders_hold hreach).1⟩

end AVCapture.Encoding
