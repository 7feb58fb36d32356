import MediaRelay.Secure.Inbox

/-!
# A secure link

Two secure transports with the same keys, joined by connections in memory: what one side writes arrives at the
inboxes of the other, without loss and in order, as long as the connection is up. A link is the transport of a
receiver on the far side.
-/

namespace MediaRelay

/-- The state of the connection. -/
inductive Wire where
  | up
  | closed
  | timeout
deriving DecidableEq, Repr

/-- The inboxes of the reading side, the connection to them, and the indices of the last media packets that were
protected for it, also of those that the connection did not take. -/
structure SecureLink where
  media : Inbox := { channel := .media }
  control : Inbox := { channel := .control }
  wire : Wire := .up
  indices : Table Ssrc PacketIndex := {}

namespace SecureLink

/-- The longest datagram that the reading side takes off the wire. -/
def longest : Nat := 8192

/-- The bytes that protection adds to a datagram. -/
def overhead : Channel → Nat
  | .media => 10
  | .control => 14

/-- One of the inboxes. -/
def inbox (l : SecureLink) : Channel → Inbox
  | .media => l.media
  | .control => l.control

/-- Stores one of the inboxes. -/
def setInbox (l : SecureLink) (ch : Channel) (b : Inbox) : SecureLink :=
  match ch with
  | .media => { l with media := b }
  | .control => { l with control := b }

/-! ## Writing -/

/-- Puts a datagram on the wire; the result is the number of bytes that takes. -/
def send (l : SecureLink) (ch : Channel) (m : Protected) : SecureLink × Except Error Nat :=
  match l.wire with
  | .closed => (l, .error .closedPipe)
  | .timeout => (l, .error (.srtp (.buffer .timeout)))
  | .up =>
    let n := m.datagram.length + overhead ch
    (if n ≤ longest then l.setInbox ch ((l.inbox ch).arrive m) else l, .ok n)

/-- Protects the datagram of a media packet with a readable header. -/
def protect (l : SecureLink) (p : Rtp.Packet) : Except Rtp.Fault (SecureLink × Protected) := do
  let d ← Rtp.encode p
  let header ← Rtp.decodeHeader d
  let index := PacketIndex.next (l.indices.find? header.ssrc) header.sequence
  .ok ({ l with indices := l.indices.insert header.ssrc index }, ⟨d, index.wraps⟩)

/-- Writes a media packet. -/
def writeMedia (l : SecureLink) (p : Rtp.Packet) : SecureLink × Except Error Nat :=
  match l.protect p with
  | .error f => (l, .error (.srtp (.rtp f)))
  | .ok (l, m) => l.send .media m

/-- The fewest bytes that control packets can be protected with: a header and an SSRC. -/
def shortest : Nat := 8

/-- Writes control packets, each as a datagram of its own, up to the first that cannot be written. -/
def writeControl (l : SecureLink) : List Rtcp.Packet → SecureLink × Except Error Nat
  | [] => (l, .ok 0)
  | p :: ps =>
    match p.encode with
    | .error f => (l, .error (.srtp (.rtcp f)))
    | .ok d =>
      if d.length < shortest then (l, .error (.srtp .controlTooShort))
      else
        match l.send .control ⟨d, 0⟩ with
        | (l, .error e) => (l, .error e)
        | (l, .ok n) =>
          let (l, rest) := writeControl l ps
          (l, rest.map (n + ·))

/-! ## Reading -/

/-- Opens the stream of an SSRC, which never fails. -/
def openStream (l : SecureLink) (ch : Channel) (ssrc : Ssrc) : SecureLink × Except Error Nat :=
  let (b, id) := (l.inbox ch).openStream ssrc
  (l.setInbox ch b, .ok id)

/-- Closes a stream, which never fails. -/
def closeStream (l : SecureLink) (ch : Channel) (id : Nat) : SecureLink × Except Error Unit :=
  (l.setInbox ch ((l.inbox ch).closeStream id), .ok ())

/-- Reads from a stream. -/
def readStream (l : SecureLink) (ch : Channel) (id buffer : Nat) : SecureLink × Attempt Datagram :=
  let (b, attempt) := (l.inbox ch).readStream id buffer
  (l.setInbox ch b, attempt)

instance : Transport SecureLink Nat where
  openStream := openStream
  closeStream := closeStream
  readStream := readStream

end SecureLink

end MediaRelay
