import MediaRelay.Rtcp.Packet

/-!
# RTCP packets on the wire

* `Packet.encode` and `encode` write one packet and a list of packets, one after the other. Every packet takes whole
  words: a raw one that does not is filled up.
* `decode` reads packets until the datagram ends. Packets of unknown kind stay raw; a type outside 200..207 becomes
  0.
* A bitrate is written as an 18-bit mantissa and a 6-bit exponent (`mantissa`, `exponent`, `bitrateOf`).
-/

namespace MediaRelay.Rtcp

open Bytes

/-! ## Bitrates -/

/-- The number of halvings that bring a bitrate below `2 ^ 18`. -/
def exponent (bitrate : Nat) : Nat :=
  Numeric.bits bitrate - 18

/-- What is left of a bitrate after the halvings, rounded down. -/
def mantissa (bitrate : Nat) : Nat :=
  bitrate >>> exponent bitrate

/-- The bitrate of a mantissa and an exponent. A zero mantissa stands for `2 ^ 23`. -/
def bitrateOf (mantissa exponent : Nat) : Nat :=
  (if mantissa = 0 then 0x800000 else mantissa) <<< exponent

/-! ## Writing -/

/-- The letters that mark a bitrate announcement. -/
def identifier : List UInt8 :=
  [0x52, 0x45, 0x4D, 0x42]

/-- The four bytes that begin a packet: version 2 with a count of up to 31, type, and length in further words. -/
def header (count type : UInt8) (words : Nat) : List UInt8 :=
  (0x80 ||| count) :: type :: ofWord16 (UInt16.ofNat words)

/-- Whether bytes begin with the header of a packet of version 2. -/
def checkHeader : List UInt8 → Except Fault Unit
  | b :: _ :: _ :: _ :: _ => if b >>> 6 = 2 then .ok () else .error .version
  | _ => .error .tooShort

/-- The bytes that fill up the last word of a raw packet with the first byte `b` and `n` bytes in all: zeros, and
their number last if the packet says that it is padded. -/
def filling (b : UInt8) (n : Nat) : List UInt8 :=
  match roundUp4 n - n with
  | 0 => []
  | k + 1 => List.replicate k 0 ++ [if b &&& 0x20 = 0 then 0 else UInt8.ofNat (k + 1)]

/-- A raw packet that is filled up takes whole words. -/
theorem length_filling (b : UInt8) (n : Nat) : n + (filling b n).length = roundUp4 n := by
  unfold filling
  have : n ≤ roundUp4 n := by unfold roundUp4; omega
  split <;> simp <;> omega

/-- The bytes of a packet. -/
def Packet.encode : Packet → Except Fault (List UInt8)
  | .pictureLoss sender media => .ok (header 1 206 2 ++ ofWord32 sender ++ ofWord32 media)
  | .maximumBitrate sender bitrate ssrcs =>
    let m := mantissa bitrate
    .ok (header 15 206 (4 + ssrcs.length) ++ ofWord32 sender ++ ofWord32 0 ++ identifier
      ++ [UInt8.ofNat ssrcs.length, UInt8.ofNat (exponent bitrate * 4 + m / 0x10000), UInt8.ofNat (m / 0x100),
        UInt8.ofNat m]
      ++ ssrcs.flatMap ofWord32)
  | .raw bytes => (checkHeader bytes).map fun _ => bytes ++ filling (bytes.headD 0) bytes.length

/-- The datagram of a list of packets. -/
def encode : List Packet → Except Fault Datagram
  | [] => .ok []
  | p :: ps =>
    match p.encode, encode ps with
    | .error f, _ => .error f
    | .ok _, .error f => .error f
    | .ok b, .ok bs => .ok (b ++ bs)

/-! ## Reading -/

/-- Reads a picture loss indication off the bytes after its header. -/
def decodePictureLoss : List UInt8 → Except Fault Packet
  | s₃ :: s₂ :: s₁ :: s₀ :: m₃ :: m₂ :: m₁ :: m₀ :: _ =>
    .ok (.pictureLoss (word32 s₃ s₂ s₁ s₀) (word32 m₃ m₂ m₁ m₀))
  | _ => .error .tooShort

/-- Reads a bitrate announcement off the bytes after its header. -/
def decodeMaximumBitrate : List UInt8 → Except Fault Packet
  | s₃ :: s₂ :: s₁ :: s₀ :: m₃ :: m₂ :: m₁ :: m₀ :: i₃ :: i₂ :: i₁ :: i₀ :: n :: x₂ :: x₁ :: x₀ :: rest =>
    if word32 m₃ m₂ m₁ m₀ ≠ 0 then .error .mediaSsrc
    else if [i₃, i₂, i₁, i₀] ≠ identifier then .error .noIdentifier
    else if rest.length < 4 * n.toNat then .error .tooShort
    else
      let m := (x₂ &&& 3).toNat * 0x10000 + x₁.toNat * 0x100 + x₀.toNat
      .ok (.maximumBitrate (word32 s₃ s₂ s₁ s₀) (bitrateOf m (x₂ >>> 2).toNat) (words32 (rest.take (4 * n.toNat))))
  | _ => .error .tooShort

/-- The type under which a raw packet is kept. -/
def knownType (type : UInt8) : UInt8 :=
  if 200 ≤ type ∧ type ≤ 207 then type else 0

/-- Reads the packet with the first byte `b`, the type `type` and the body `body`. -/
def decodeBody (b type n₁ n₀ : UInt8) (body : List UInt8) : Except Fault Packet :=
  if type = 206 ∧ b &&& 0x1F = 1 then decodePictureLoss body
  else if type = 206 ∧ b &&& 0x1F = 15 then decodeMaximumBitrate body
  else .ok (.raw (b :: knownType type :: n₁ :: n₀ :: body))

/-- Reads packets until no byte is left. -/
def decodeAll : List UInt8 → Except Fault (List Packet)
  | [] => .ok []
  | b :: type :: n₁ :: n₀ :: rest =>
    let n := (word16 n₁ n₀).toNat * 4
    if b >>> 6 ≠ 2 then .error .version
    else if rest.length < n then .error .tooShort
    else
      match decodeBody b type n₁ n₀ (rest.take n) with
      | .error f => .error f
      | .ok p => (decodeAll (rest.drop n)).map (p :: ·)
  | _ => .error .tooShort
termination_by bytes => bytes.length
decreasing_by simp only [List.length_drop, List.length_cons]; omega

/-- The packets of a datagram, of which there is at least one. -/
def decode (d : Datagram) : Except Fault (List Packet) :=
  if d.isEmpty then .error .empty else decodeAll d

end MediaRelay.Rtcp
