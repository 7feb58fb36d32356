import MediaRelay.Bytes

/-!
# RTP packets

A packet is its header fields, its header extensions and its payload. `Packet.size` is the number of bytes that the
packet takes on the wire; it is defined for every packet, also for one that cannot be written.
-/

namespace MediaRelay

/-- A synchronization source: the number that names one stream of packets. -/
abbrev Ssrc := UInt32

namespace Rtp

/-- Why a datagram is no packet, or a packet cannot be written. -/
inductive Fault where
  | headerShort
  | extensionShort
  | tooShort
  | extensionNotWords
  | extensionIdNotZero
  /-- The datagram would have `written` bytes, though the packet's size is `expected`. -/
  | sizeMismatch (written expected : Nat)
deriving DecidableEq, Repr

/-- The wording of a fault. -/
def Fault.message : Fault → String
  | .headerShort => "RTP header size insufficient"
  | .extensionShort => "RTP header size insufficient for extension"
  | .tooShort => "packet is not large enough"
  | .extensionNotWords => "extension_payload must be in 32-bit words"
  | .extensionIdNotZero => "header extension id must be 0 for none RFC 5285 extensions"
  | .sizeMismatch written expected => s!"marshal_to output size {written}, but expect {expected}"

/-- One header extension element. -/
structure Extension where
  id : UInt8
  payload : List UInt8
deriving DecidableEq, Repr

/-- A packet. `blankExtensionBytes` counts the padding bytes met between extension elements when it was read. -/
structure Packet where
  version : UInt8 := 2
  padded : Bool := false
  extended : Bool := false
  marker : Bool := false
  payloadType : UInt8 := 96
  sequence : UInt16 := 0
  timestamp : UInt32 := 0
  ssrc : Ssrc := 0
  csrcs : List Ssrc := []
  profile : UInt16 := 0
  extensions : List Extension := []
  blankExtensionBytes : Nat := 0
  payload : List UInt8 := []
deriving DecidableEq, Repr

/-! ## Sizes -/

/-- How the elements of an extension block are laid out. -/
inductive Layout where
  /-- One byte holds the id and the length. -/
  | oneByte
  /-- One byte for the id and one for the length. -/
  | twoBytes
  /-- A single element without id or length. -/
  | whole
deriving DecidableEq, Repr

/-- The layout that a profile number asks for. -/
def layout (profile : UInt16) : Layout :=
  if profile = 0xBEDE then .oneByte else if profile = 0x1000 then .twoBytes else .whole

/-- The bytes that an element takes beyond its payload. -/
def Layout.overhead : Layout → Nat
  | .oneByte => 1
  | .twoBytes => 2
  | .whole => 0

/-- The bytes that the elements take, without padding. -/
def Layout.length (l : Layout) (es : List Extension) : Nat :=
  es.foldr (fun e n => e.payload.length + l.overhead + n) 0

/-- The bytes of padding after a payload of `n` bytes: up to the next multiple of four, and never none. -/
def paddingLength (n : Nat) : Nat :=
  4 - n % 4

/-- The bytes of the extension block, its own four-byte header included. -/
def Packet.extensionSize (p : Packet) : Nat :=
  if p.extended then
    4 + Bytes.roundUp4 ((layout p.profile).length p.extensions + p.blankExtensionBytes)
  else 0

/-- The bytes that the packet takes on the wire. -/
def Packet.size (p : Packet) : Nat :=
  12 + 4 * p.csrcs.length + p.extensionSize + p.payload.length
    + (if p.padded then paddingLength p.payload.length else 0)

end Rtp

end MediaRelay
