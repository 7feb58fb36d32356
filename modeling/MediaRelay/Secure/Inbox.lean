import MediaRelay.Rtcp.Wire
import MediaRelay.Rtp.Wire
import MediaRelay.Secure.Index
import MediaRelay.Secure.Window
import MediaRelay.Table
import MediaRelay.Transport

/-!
# The receiving side of a secure session

An inbox sorts the datagrams that arrive on one channel into streams, by SSRC. A stream comes to be when it is
opened or when its first datagram arrives. A stream that came to be by arrival also stands in a queue of new
streams that nobody takes from: when the queue is full, the inbox stalls, and what arrives waits until some stream
is closed.

* `Inbox.arrive` takes a datagram in.
* `Inbox.openStream`, `Inbox.readStream` and `Inbox.closeStream` are what a reader does.
* `Inbox.finish` ends the inbox: nothing arrives any more.
-/

namespace MediaRelay

/-! ## Streams -/

/-- A buffer of datagrams: all that it ever took in, and how many of them were read. -/
structure SecureStream where
  ssrc : Ssrc
  accepted : List Datagram := []
  taken : Nat := 0
  closed : Bool := false
deriving DecidableEq, Repr

namespace SecureStream

/-- The datagrams that wait to be read. -/
def queued (s : SecureStream) : List Datagram :=
  s.accepted.drop s.taken

/-- The bytes that the waiting datagrams take, each with two bytes for its length. -/
def size (s : SecureStream) : Nat :=
  s.queued.foldr (fun d n => d.length + 2 + n) 0

/-- Takes a datagram in, if the stream is open and has room for it. -/
def write (s : SecureStream) (capacity : Nat) (d : Datagram) : Except BufferFault SecureStream :=
  if s.closed then .error .closed
  else if capacity < s.size + d.length + 2 then .error .full
  else .ok { s with accepted := s.accepted ++ [d] }

/-- Takes the first datagram. One that does not fit the buffer is lost. A closed stream gives what it holds. -/
def read (s : SecureStream) (buffer : Nat) : SecureStream × Attempt Datagram :=
  match s.queued with
  | [] => (s, if s.closed then .done (.error .closedPipe) else .waiting)
  | d :: _ =>
    ({ s with taken := s.taken + 1 },
      .done (if buffer < d.length then .error (.srtp (.buffer .short)) else .ok d))

end SecureStream

/-! ## Inboxes -/

/-- A datagram on the wire. The wraps that the writer counted before a media packet are not on the wire, but its
protection depends on them: a reader that counts others cannot authenticate the packet. -/
structure Protected where
  datagram : Datagram
  wraps : Nat := 0
deriving DecidableEq, Repr

/-- The receiving side of a channel. Streams are numbered; `registered` gives the stream that datagrams of an SSRC
go to. -/
structure Inbox where
  channel : Channel
  streams : List SecureStream := []
  registered : Table Ssrc Nat := {}
  windows : Table Ssrc ReplayWindow := {}
  indices : Table Ssrc PacketIndex := {}
  unclaimed : Nat := 0
  stalled : Bool := false
  backlog : List Protected := []
  finished : Bool := false

namespace Inbox

/-- The number of new streams that can wait to be taken notice of. -/
def claimLimit : Nat := 8

/-- The bytes that a stream can hold. -/
def capacity (b : Inbox) : Nat :=
  match b.channel with
  | .media => 1000000
  | .control => 100000

/-- The number of an SSRC's stream, which is made if there is none; the flag tells whether it was. -/
def streamOf (b : Inbox) (ssrc : Ssrc) : Inbox × Nat × Bool :=
  match b.registered.find? ssrc with
  | some id => (b, id, false)
  | none =>
    let id := b.streams.length
    ({ b with streams := b.streams ++ [{ ssrc }], registered := b.registered.insert ssrc id }, id, true)

/-! ## Arrival -/

/-- Takes notice of a new stream; if there is no room for that the inbox stalls. -/
def claim (b : Inbox) : Inbox :=
  if b.unclaimed < claimLimit then { b with unclaimed := b.unclaimed + 1 } else { b with stalled := true }

/-- Gives a datagram to the streams of SSRCs; one that has no room for it is passed over. -/
def deliver (b : Inbox) (d : Datagram) : List Ssrc → Inbox
  | [] => b
  | ssrc :: ssrcs =>
    let (b, id, isNew) := b.streamOf ssrc
    let b := if isNew then b.claim else b
    if b.stalled then b
    else
      match b.streams[id]? with
      | none => b
      | some s =>
        match s.write b.capacity d with
        | .error _ => deliver b d ssrcs
        | .ok s => deliver { b with streams := b.streams.set id s } d ssrcs

/-- Judges a media packet by its SSRC, its sequence number and the writer's count of wraps. The window notes even a
first packet that cannot be authenticated. The result tells whether the packet is good. -/
def authenticate (b : Inbox) (ssrc : Ssrc) (seq : UInt16) (wraps : Nat) : Inbox × Bool :=
  let w := (b.windows.find? ssrc).getD (.before seq)
  let index := PacketIndex.next (b.indices.find? ssrc) seq
  if ¬ w.admits seq then (b, false)
  else if index.wraps ≠ wraps then ({ b with windows := b.windows.insert ssrc w }, false)
  else
    ({ b with windows := b.windows.insert ssrc (w.accept seq), indices := b.indices.insert ssrc index }, true)

/-- Judges a datagram: the SSRCs that it goes to, none if it is dropped. A media packet goes to its own SSRC if it is
good, control packets go to the sources that they are addressed to. -/
def judge (b : Inbox) (m : Protected) : Inbox × List Ssrc :=
  match b.channel with
  | .media =>
    match Rtp.decodeHeader m.datagram with
    | .error _ => (b, [])
    | .ok p =>
      match b.authenticate p.ssrc p.sequence m.wraps with
      | (b, true) => (b, [p.ssrc])
      | (b, false) => (b, [])
  | .control =>
    match Rtcp.decode m.datagram with
    | .error _ => (b, [])
    | .ok ps => (b, (ps.flatMap Rtcp.Packet.destinations).eraseDups)

/-- Takes datagrams in, in order; when the inbox stalls the others wait. -/
def take (b : Inbox) : List Protected → Inbox
  | [] => b
  | m :: ms =>
    if b.stalled then { b with backlog := b.backlog ++ m :: ms }
    else
      let (b, ssrcs) := b.judge m
      take (b.deliver m.datagram ssrcs) ms

/-- Takes a datagram in. -/
def arrive (b : Inbox) (m : Protected) : Inbox :=
  if b.finished then b else b.take [m]

/-! ## Readers -/

/-- Opens the stream of an SSRC: the one that is registered, or a new one. -/
def openStream (b : Inbox) (ssrc : Ssrc) : Inbox × Nat :=
  let (b, id, _) := b.streamOf ssrc
  (b, id)

/-- Reads from a stream. -/
def readStream (b : Inbox) (id buffer : Nat) : Inbox × Attempt Datagram :=
  match b.streams[id]? with
  | none => (b, .done (.error .closedPipe))
  | some s =>
    let (s, attempt) := s.read buffer
    ({ b with streams := b.streams.set id s }, attempt)

/-- Forgets which stream the datagrams of an SSRC go to. That also wakes an inbox that has stalled. -/
def forget (b : Inbox) (ssrc : Ssrc) : Inbox :=
  if b.finished then b
  else { b with registered := b.registered.erase ssrc, stalled := false, backlog := [] }.take b.backlog

/-- Closes a stream, and forgets whatever stream is registered for its SSRC. -/
def closeStream (b : Inbox) (id : Nat) : Inbox :=
  match b.streams[id]? with
  | none => b
  | some s => { b with streams := b.streams.set id { s with closed := true } }.forget s.ssrc

/-- Ends the inbox. The result tells whether it had not been ended before. -/
def finish (b : Inbox) : Inbox × Bool :=
  ({ b with finished := true }, !b.finished)

end Inbox

end MediaRelay
