import MediaRelay.Rtcp.Wire
import MediaRelay.Rtp.Wire
import MediaRelay.Table
import MediaRelay.Transport

/-!
# Transport over queues in memory

Each stream is a queue of datagrams that the far side pushes and reads take from the front. A stream exists as soon
as anybody asks for it, so data may be there before the stream is opened. Opening and closing can be made to fail.

A `QueueStream` keeps all datagrams it ever accepted and the number of those taken, so that what was taken followed
by what is queued is always what was accepted (`taken_append_queued`).
-/

namespace MediaRelay

/-! ## Streams -/

/-- A queue of datagrams. -/
structure QueueStream where
  accepted : List Datagram := []
  taken : Nat := 0
  closed : Bool := false
  refusesClose : Bool := false
  closeAttempts : Nat := 0
deriving DecidableEq, Repr

namespace QueueStream

/-- The datagrams that wait to be read. -/
def queued (s : QueueStream) : List Datagram :=
  s.accepted.drop s.taken

theorem taken_append_queued (s : QueueStream) : s.accepted.take s.taken ++ s.queued = s.accepted :=
  List.take_append_drop _ _

/-- Adds a datagram at the end. -/
def push (s : QueueStream) (d : Datagram) : QueueStream × Except Error Unit :=
  if s.closed then (s, .error .closedPipe) else ({ s with accepted := s.accepted ++ [d] }, .ok ())

/-- Takes the first datagram. One that does not fit the buffer is lost. -/
def read (s : QueueStream) (buffer : Nat) : QueueStream × Attempt Datagram :=
  if s.closed then (s, .done (.error .closedPipe))
  else
    match s.queued with
    | [] => (s, .waiting)
    | d :: _ =>
      ({ s with taken := s.taken + 1 }, .done (if buffer < d.length then .error .shortBuffer else .ok d))

/-- Tries to close the stream; `refusal` is the error of a stream that refuses. -/
def close (s : QueueStream) (refusal : Error) : QueueStream × Except Error Unit :=
  let s := { s with closeAttempts := s.closeAttempts + 1 }
  if s.refusesClose then (s, .error refusal) else ({ s with closed := true }, .ok ())

end QueueStream

/-! ## The transport -/

/-- The streams of one channel, the SSRCs whose opening fails, and those that were opened, in order. -/
structure QueueChannel where
  streams : Table Ssrc QueueStream := {}
  refusesOpen : List Ssrc := []
  opened : List Ssrc := []

/-- The stream of an SSRC. -/
def QueueChannel.stream (c : QueueChannel) (ssrc : Ssrc) : QueueStream :=
  (c.streams.find? ssrc).getD {}

/-- Stores the stream of an SSRC. -/
def QueueChannel.setStream (c : QueueChannel) (ssrc : Ssrc) (s : QueueStream) : QueueChannel :=
  { c with streams := c.streams.insert ssrc s }

/-- The number of datagrams that wait to be read. -/
def QueueChannel.backlog (c : QueueChannel) : Nat :=
  c.streams.entries.foldr (fun e n => e.2.queued.length + n) 0

/-- Two channels of queues. -/
structure QueueTransport where
  media : QueueChannel := {}
  control : QueueChannel := {}

namespace QueueTransport

/-- One of the channels. -/
def channel (t : QueueTransport) : Channel → QueueChannel
  | .media => t.media
  | .control => t.control

/-- Stores one of the channels. -/
def setChannel (t : QueueTransport) (ch : Channel) (c : QueueChannel) : QueueTransport :=
  match ch with
  | .media => { t with media := c }
  | .control => { t with control := c }

/-- The stream of an SSRC on a channel. -/
def stream (t : QueueTransport) (ch : Channel) (ssrc : Ssrc) : QueueStream :=
  (t.channel ch).stream ssrc

/-- Applies an operation to the stream of an SSRC. -/
def onStream {α : Type} (t : QueueTransport) (ch : Channel) (ssrc : Ssrc) (f : QueueStream → QueueStream × α) :
    QueueTransport × α :=
  let (s, a) := f (t.stream ch ssrc)
  (t.setChannel ch ((t.channel ch).setStream ssrc s), a)

/-- The error of a stream that refuses to close. -/
def closeRefusal (ssrc : Ssrc) : Error :=
  .other s!"mock stream {ssrc.toNat}: close failed"

/-- The name of a channel in messages. -/
def channelName : Channel → String
  | .media => "RTP"
  | .control => "RTCP"

/-- The error of a stream that refuses to open. -/
def openRefusal (ch : Channel) (ssrc : Ssrc) : Error :=
  .other s!"mock transport: failed to open {channelName ch} stream for ssrc {ssrc.toNat}"

/-- Opens the stream of an SSRC. -/
def openStream (t : QueueTransport) (ch : Channel) (ssrc : Ssrc) : QueueTransport × Except Error Ssrc :=
  let c := t.channel ch
  if ssrc ∈ c.refusesOpen then (t, .error (openRefusal ch ssrc))
  else (t.setChannel ch { c with opened := c.opened ++ [ssrc] }, .ok ssrc)

/-- Closes the stream of an SSRC. -/
def closeStream (t : QueueTransport) (ch : Channel) (ssrc : Ssrc) : QueueTransport × Except Error Unit :=
  t.onStream ch ssrc fun s => s.close (closeRefusal ssrc)

/-- Reads from the stream of an SSRC. -/
def readStream (t : QueueTransport) (ch : Channel) (ssrc : Ssrc) (buffer : Nat) :
    QueueTransport × Attempt Datagram :=
  t.onStream ch ssrc fun s => s.read buffer

instance : Transport QueueTransport Ssrc where
  openStream := openStream
  closeStream := closeStream
  readStream := readStream

/-- Makes the opening of an SSRC's stream fail from now on. -/
def refuseOpen (t : QueueTransport) (ch : Channel) (ssrc : Ssrc) : QueueTransport :=
  let c := t.channel ch
  t.setChannel ch { c with refusesOpen := ssrc :: c.refusesOpen }

/-- Makes the closing of an SSRC's stream fail, or succeed again. -/
def refuseClose (t : QueueTransport) (ch : Channel) (ssrc : Ssrc) (refuses : Bool) : QueueTransport :=
  (t.onStream ch ssrc fun s => ({ s with refusesClose := refuses }, ())).1

/-! ## The far side -/

/-- Pushes a datagram to the stream of an SSRC. -/
def push (t : QueueTransport) (ch : Channel) (ssrc : Ssrc) (d : Datagram) : QueueTransport × Except Error Unit :=
  t.onStream ch ssrc fun s => s.push d

/-- Pushes a media packet to the stream of an SSRC. -/
def pushMedia (t : QueueTransport) (ssrc : Ssrc) (p : Rtp.Packet) : QueueTransport × Except Error Unit :=
  match Rtp.encode p with
  | .error f => (t, .error (.util (.rtp f)))
  | .ok d => t.push .media ssrc d

/-- Pushes a datagram of control packets to the stream of an SSRC. -/
def pushControl (t : QueueTransport) (ssrc : Ssrc) (ps : List Rtcp.Packet) : QueueTransport × Except Error Unit :=
  match Rtcp.encode ps with
  | .error f => (t, .error (.rtcp (.packet f)))
  | .ok d => t.push .control ssrc d

/-- The number of datagrams that wait to be read, on both channels. -/
def backlog (t : QueueTransport) : Nat :=
  t.media.backlog + t.control.backlog

end QueueTransport

end MediaRelay
