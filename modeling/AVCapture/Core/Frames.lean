import Mathlib.Data.List.Basic

/-!
# Frames

The frame records of `types.hpp`, and the parts of FFmpeg's data types that the
segment writer reads from the encoders.
-/

namespace AVCapture.Core

structure RawVideoFrame where
  data : List UInt8
  stride : Int
  pts : Int
  width : Int
  height : Int
  deriving DecidableEq, Repr

structure EncodedVideoFrame where
  data : List UInt8
  pts : Int
  dts : Int
  flags : BitVec 32
  deriving DecidableEq, Repr

structure EncodedAudioFrame where
  data : List UInt8
  pts : Int
  dts : Int
  isKeyFrame : Bool := true
  deriving DecidableEq, Repr

structure AVRational where
  num : Int
  den : Int
  deriving DecidableEq, Repr

/-- What the segment writer reads of an `AVCodecContext`. -/
structure AVCodecContext where
  timeBase : AVRational
  frameSize : Int := 0
  deriving DecidableEq, Repr

/-- What FFmpeg allocates, and has to get back. -/
inductive AvKind where
  | codecContext
  | dictionary
  | frame
  | packet
  | swsContext
  | swrContext
  | formatContext
  | ioContext
  deriving DecidableEq, Repr

def avPktFlagKey : BitVec 32 := 1

/-- `(frame.flags_ & AV_PKT_FLAG_KEY) != 0` -/
def EncodedVideoFrame.isKeyFrame (frame : EncodedVideoFrame) : Bool :=
  frame.flags &&& avPktFlagKey != 0

end AVCapture.Core
