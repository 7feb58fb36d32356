import MediaRelay.Rtp.Packet
import MediaRelay.Numeric.Rounding

/-!
# RTCP packets

Three kinds of control packet: a request for a keyframe (picture loss indication), an announcement of the bitrate
that the receiver can take, and any other packet as its raw bytes. `Packet.destinations` names the sources that a
packet is addressed to.
-/

namespace MediaRelay.Rtcp

/-- Why a datagram is no list of packets, or a raw packet cannot be written. -/
inductive Fault where
  | empty
  | tooShort
  | version
  | mediaSsrc
  | noIdentifier
deriving DecidableEq, Repr

/-- The wording of a fault. -/
def Fault.message : Fault → String
  | .empty => "Invalid header"
  | .tooShort => "Packet status chunk must be 2 bytes"
  | .version => "Invalid packet version"
  | .mediaSsrc => "Media SSRC must be 0"
  | .noIdentifier => "Missing REMB identifier"

/-- A control packet. A bitrate is a whole number of bits per second. -/
inductive Packet where
  | pictureLoss (sender media : Ssrc)
  | maximumBitrate (sender : Ssrc) (bitrate : Nat) (ssrcs : List Ssrc)
  | raw (bytes : List UInt8)
deriving DecidableEq, Repr

/-- The sources that a packet is addressed to. -/
def Packet.destinations : Packet → List Ssrc
  | .pictureLoss _ media => [media]
  | .maximumBitrate _ _ ssrcs => ssrcs
  | .raw _ => []

/-- The bitrate in single precision: 24 significant bits, a half going to the even neighbour. -/
def singlePrecision (bitrate : Nat) : Nat :=
  Numeric.roundBits 24 bitrate

end MediaRelay.Rtcp
