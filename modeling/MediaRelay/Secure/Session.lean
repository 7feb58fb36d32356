import MediaRelay.Forwarder
import MediaRelay.Secure.Link
import MediaRelay.Session.Reply
import MediaRelay.Settings

/-!
# Sessions over a secure link

A session over a secure link is driven by commands to both sides: one writes, the other reads its streams, directly
or through a receiver.
-/

namespace MediaRelay

/-- A command. -/
inductive SecureCommand where
  | openStream (name : String) (channel : Channel) (ssrc : Ssrc)
  | read (name : String) (buffer : Nat)
  | close (name : String)
  | writeMedia (packet : Rtp.Packet)
  | writeControl (packets : List Rtcp.Packet)
  | forward (ssrc : Ssrc) (packet : Rtp.Packet)
  | setWire (wire : Wire)
  | finish (channel : Channel)
  | receive (encodings : List Encoding)
  | bind (rid : String) (ssrc : Ssrc)
  | stop
  | readReceiver (query : Read)
  | unknown
deriving DecidableEq, Repr

/-- A link, a receiver on its reading side, and the streams that were given names. -/
structure SecureSession where
  link : SecureLink := {}
  receiver : Receiver Nat := { kind := .video, mtu := ({} : Settings).receiverMtu }
  names : Table String (Channel × Nat) := {}

namespace SecureSession

/-- Carries out an operation on the stream of a name. -/
def onStream (s : SecureSession) (name : String) (f : Channel → Nat → SecureLink × Reply) : SecureSession × Reply :=
  match s.names.find? name with
  | none => (s, .refused .noStream)
  | some (ch, id) =>
    let (link, reply) := f ch id
    ({ s with link }, reply)

/-- What is shown of the receiver's track. -/
def trackView (s : SecureSession) : TrackView where
  kind := s.receiver.kind
  layers := s.receiver.layers.map fun l => ⟨l.rid, l.ssrc, l.isReady, true⟩

/-- Whether the layer that a read names is missing. -/
def lacksLayer (s : SecureSession) (q : Read) : Bool :=
  match q.source with
  | .media rid => (s.receiver.layer? rid).isNone
  | _ => false

/-- Carries out a command. -/
def step (s : SecureSession) : SecureCommand → SecureSession × Reply
  | .openStream name ch ssrc =>
    match s.link.openStream ch ssrc with
    | (link, .ok id) => ({ s with link, names := s.names.insert name (ch, id) }, .done)
    | (link, .error e) => ({ s with link }, .failed e)
  | .read name buffer =>
    s.onStream name fun ch id =>
      match s.link.readStream ch id buffer with
      | (link, .waiting) => (link, .pending)
      | (link, .done (.ok d)) => (link, .data (.bytes d))
      | (link, .done (.error e)) => (link, .failed e)
  | .close name =>
    s.onStream name fun ch id =>
      let (link, result) := s.link.closeStream ch id
      (link, .ofResult result)
  | .writeMedia p =>
    let (link, result) := s.link.writeMedia p
    ({ s with link }, .ofSize result)
  | .writeControl ps =>
    let (link, result) := s.link.writeControl ps
    ({ s with link }, .ofSize result)
  | .forward ssrc p =>
    let (link, result) := s.link.writeMedia { p with ssrc }
    ({ s with link }, .ofResult (Forwarder.delivered result))
  | .setWire wire => ({ s with link := { s.link with wire } }, .done)
  | .finish ch =>
    let (b, accepted) := (s.link.inbox ch).finish
    ({ s with link := s.link.setInbox ch b }, .flag accepted)
  | .receive encodings =>
    let (receiver, link, result) := s.receiver.receive s.link encodings
    let s := { s with receiver, link }
    match result with
    | .ok _ => (s, .track s.trackView)
    | .error e => (s, .failed e)
  | .bind rid ssrc =>
    let (receiver, link, result) := s.receiver.bind s.link rid ssrc
    ({ s with receiver, link }, .ofResult result)
  | .stop =>
    let (receiver, link, result) := s.receiver.stop s.link
    ({ s with receiver, link }, .ofResult result)
  | .readReceiver q =>
    if s.lacksLayer q then (s, .refused .noLayer)
    else
      let (link, progress) := s.receiver.read s.link q
      ({ s with link }, .ofProgress progress)
  | .unknown => (s, .refused .unknownStep)

/-- Commands one after the other; each gives its reply and the phase of the receiver after it. -/
def steps (s : SecureSession) : List SecureCommand → SecureSession × List (Reply × Phase)
  | [] => (s, [])
  | c :: cs =>
    let (s, reply) := s.step c
    let (last, replies) := s.steps cs
    (last, (reply, s.receiver.phase) :: replies)

end SecureSession

end MediaRelay
