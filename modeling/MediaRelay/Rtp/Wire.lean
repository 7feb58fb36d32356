import MediaRelay.Rtp.Packet

/-!
# RTP packets on the wire

* `encode` lays a packet out: a fixed header, the contributing sources, the extension block, the payload, the
  padding.
* `decode` reads a packet off a datagram. It never looks at the version, skips blank bytes between extension
  elements, and stops reading elements at the reserved id 15.

The flags share one byte with the version and the number of contributing sources (`flags`), the marker one with the
payload type (`kindByte`).
-/

namespace MediaRelay.Rtp

open Bytes

/-- The first byte: version, padding flag, extension flag, number of contributing sources. -/
def flags (version : UInt8) (padded extended : Bool) (sources : Nat) : UInt8 :=
  version <<< 6 ||| (if padded then 0x20 else 0) ||| (if extended then 0x10 else 0) ||| UInt8.ofNat sources

/-- The second byte: marker and payload type. -/
def kindByte (marker : Bool) (payloadType : UInt8) : UInt8 :=
  if marker then payloadType ||| 0x80 else payloadType

/-! ## Writing -/

/-- The bytes of one extension element. -/
def Layout.encodeElement : Layout → Extension → List UInt8
  | .oneByte, e => (e.id <<< 4 ||| (UInt8.ofNat e.payload.length - 1)) :: e.payload
  | .twoBytes, e => e.id :: UInt8.ofNat e.payload.length :: e.payload
  | .whole, e => e.payload

/-- The words that a block of `n` bytes is said to have. Only the low 16 bits of the number of bytes are counted. -/
def extensionWords (n : Nat) : UInt16 :=
  (UInt16.ofNat n + 3) / 4

/-- The extension block: profile, length in words, elements, zeros up to the length. Blank bytes that the packet was
read with count toward the length, but are not written. -/
def Packet.encodeExtensions (p : Packet) : Except Fault (List UInt8) :=
  let l := layout p.profile
  let n := l.length p.extensions + p.blankExtensionBytes
  if ¬ p.extended then .ok []
  else if l = .whole ∧ n % 4 ≠ 0 then .error .extensionNotWords
  else if l = .whole ∧ p.extensions.length ≠ 1 then .error .extensionIdNotZero
  else
    .ok (ofWord16 p.profile ++ ofWord16 (extensionWords n) ++ p.extensions.flatMap l.encodeElement
      ++ List.replicate ((extensionWords n).toNat * 4 - n) 0)

/-- The padding after a payload of `n` bytes: zeros, and its own length last. -/
def padding (n : Nat) : List UInt8 :=
  List.replicate (paddingLength n - 1) 0 ++ [UInt8.ofNat (paddingLength n)]

/-- The bytes of a packet whose extension block is given. -/
def Packet.layOut (p : Packet) (block : List UInt8) : Datagram :=
  flags p.version p.padded p.extended p.csrcs.length :: kindByte p.marker p.payloadType
    :: (ofWord16 p.sequence ++ ofWord32 p.timestamp ++ ofWord32 p.ssrc ++ p.csrcs.flatMap ofWord32 ++ block
      ++ p.payload ++ (if p.padded then padding p.payload.length else []))

/-- The datagram of a packet. It must have the size of the packet: a packet whose extension block comes out shorter,
because its length field is too small or blank bytes are missing, cannot be written. -/
def encode (p : Packet) : Except Fault Datagram :=
  match p.encodeExtensions with
  | .error f => .error f
  | .ok block =>
    let d := p.layOut block
    if d.length = p.size then .ok d else .error (.sizeMismatch d.length p.size)

/-! ## Reading -/

/-- What reading an extension block gives: the elements, the blank bytes among them, and the bytes after them. -/
structure Block where
  extensions : List Extension
  blank : Nat
  rest : List UInt8
deriving DecidableEq, Repr

/-- Puts an element in front of the elements of a block. -/
def Block.cons (e : Extension) (b : Block) : Block :=
  { b with extensions := e :: b.extensions }

/-- Reads one-byte elements while `room` bytes of the block are left, off the bytes from there to the end of the
datagram. An element may reach beyond the block as long as the datagram holds it. -/
def decodeOneByte (room : Nat) (bytes : List UInt8) : Except Fault Block :=
  if room = 0 then .ok ⟨[], 0, bytes⟩
  else
    match bytes with
    | [] => .error .extensionShort
    | b :: rest =>
      if b = 0 then (decodeOneByte (room - 1) rest).map fun k => { k with blank := k.blank + 1 }
      else if b >>> 4 = 15 then .ok ⟨[], 0, rest⟩
      else
        let n := (b &&& 0x0F).toNat + 1
        if rest.length < n then .error .extensionShort
        else (decodeOneByte (room - 1 - n) (rest.drop n)).map (.cons ⟨b >>> 4, rest.take n⟩)
termination_by room

/-- Reads two-byte elements in the same way. -/
def decodeTwoBytes (room : Nat) (bytes : List UInt8) : Except Fault Block :=
  if room = 0 then .ok ⟨[], 0, bytes⟩
  else
    match bytes with
    | [] => .error .extensionShort
    | b :: rest =>
      if b = 0 then (decodeTwoBytes (room - 1) rest).map fun k => { k with blank := k.blank + 1 }
      else
        match rest with
        | [] => .error .extensionShort
        | n :: rest =>
          if rest.length < n.toNat then .error .extensionShort
          else (decodeTwoBytes (room - 2 - n.toNat) (rest.drop n.toNat)).map (.cons ⟨b, rest.take n.toNat⟩)
termination_by room

/-- Reads the `room` bytes of a block off the bytes from there to the end of the datagram. -/
def Layout.decodeElements : Layout → (room : Nat) → List UInt8 → Except Fault Block
  | .oneByte, room, bytes => decodeOneByte room bytes
  | .twoBytes, room, bytes => decodeTwoBytes room bytes
  | .whole, room, bytes => .ok ⟨[⟨0, bytes.take room⟩], 0, bytes.drop room⟩

/-- Reads an extension block: profile, length in words, elements. -/
def decodeExtensions : List UInt8 → Except Fault (UInt16 × Block)
  | p₁ :: p₀ :: n₁ :: n₀ :: rest =>
    let profile := word16 p₁ p₀
    let room := (word16 n₁ n₀).toNat * 4
    if rest.length < room then .error .extensionShort
    else ((layout profile).decodeElements room rest).map fun b => (profile, b)
  | _ => .error .extensionShort

/-- Cuts the padding, whose length is the last byte. -/
def unpad (payload : List UInt8) : Except Fault (List UInt8) :=
  match payload.getLast? with
  | none => .error .tooShort
  | some n =>
    if n.toNat ≤ payload.length then .ok (payload.take (payload.length - n.toNat)) else .error .tooShort

/-- Reads the header; the payload of the result is all that follows the header, padding included. -/
def decodeHeader : Datagram → Except Fault Packet
  | b₀ :: b₁ :: s₁ :: s₀ :: rest =>
    let sources := 4 * (b₀ &&& 0x0F).toNat
    match rest with
    | t₃ :: t₂ :: t₁ :: t₀ :: r₃ :: r₂ :: r₁ :: r₀ :: rest =>
      if rest.length < sources then .error .headerShort
      else
        let p : Packet :=
          { version := b₀ >>> 6
            padded := b₀ &&& 0x20 ≠ 0
            extended := b₀ &&& 0x10 ≠ 0
            marker := b₁ &&& 0x80 ≠ 0
            payloadType := b₁ &&& 0x7F
            sequence := word16 s₁ s₀
            timestamp := word32 t₃ t₂ t₁ t₀
            ssrc := word32 r₃ r₂ r₁ r₀
            csrcs := words32 (rest.take sources)
            payload := rest.drop sources }
        if p.extended then
          (decodeExtensions p.payload).map fun (profile, b) =>
            { p with
              profile := profile, extensions := b.extensions, blankExtensionBytes := b.blank, payload := b.rest }
        else .ok p
    | _ => .error .headerShort
  | _ => .error .headerShort

/-- The packet of a datagram. -/
def decode (d : Datagram) : Except Fault Packet :=
  match decodeHeader d with
  | .error f => .error f
  | .ok p => if p.padded then (unpad p.payload).map fun payload => { p with payload := payload } else .ok p

end MediaRelay.Rtp
