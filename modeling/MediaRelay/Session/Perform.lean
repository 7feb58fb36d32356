import MediaRelay.Description
import MediaRelay.Session.Basic
import MediaRelay.Session.Command

/-!
# Carrying out commands

`Session.perform` carries out one command and gives its reply. Tasks that the command has set going run afterwards.
-/

namespace MediaRelay

namespace Session

/-! ## Reads -/

/-- Why a read cannot even be tried. -/
def refuseRead (s : Session) (q : Read) : Option Refusal :=
  match q.source with
  | .media rid => if (s.hub.receiver.layer? rid).isNone then some .noLayer else none
  | _ => if s.hub.held then none else some .noReceiver

/-- Carries out a command that reads. -/
def performRead (s : Session) : ReadCommand → Session × Reply
  | .read q =>
    match s.refuseRead q with
    | some r => (s, .refused r)
    | none =>
      let (hub, progress) := s.hub.read q
      (s.setHub hub, .ofProgress progress)
  | .spawn _ none => (s, .refused .notARead)
  | .spawn name (some q) =>
    match s.refuseRead q with
    | none => (s.spawn name (.read q), .done)
    | some r => ({ s with tasks := s.tasks.insert name (.refused r) }, .done)
  | .poll name =>
    match s.tasks.find? name with
    | none => (s, .refused .noTask)
    | some (.refused r) => ({ s with tasks := s.tasks.erase name }, .endedRefused r)
    | some (.running id) =>
      match s.hub.endings.find? id with
      | none => (s, .pending)
      | some e => ({ s with hub := s.hub.abort id, tasks := s.tasks.erase name }, .ended e)
  | .abort name =>
    match s.tasks.find? name with
    | none => (s, .refused .noTask)
    | some (.refused _) => ({ s with tasks := s.tasks.erase name }, .done)
    | some (.running id) => ({ s with hub := s.hub.abort id, tasks := s.tasks.erase name }, .done)

/-! ## The receiver -/

/-- Receives encodings; if that succeeds the handler is told in a task of its own. -/
def receive (s : Session) (encodings : List Encoding) : Session × Reply :=
  let (receiver, transport, result) := s.hub.receiver.receive s.hub.transport encodings
  let s := s.setHub { s.hub with receiver, transport }
  match result with
  | .error e => (s, .failed e)
  | .ok layers => (s.setHub (s.hub.spawn (.announce (layers.map Layer.rid))), .track s.trackView)

/-- Carries out a command to the receiver that the application holds. -/
def performHeld (s : Session) : ReceiverCommand → Session × Reply
  | .receive encodings => s.receive encodings
  | .bind rid ssrc =>
    let (receiver, transport, result) := s.hub.receiver.bind s.hub.transport rid ssrc
    (s.setHub { s.hub with receiver, transport }, .ofResult result)
  | .stop =>
    let (receiver, transport, result) := s.hub.receiver.stop s.hub.transport
    (s.setHub { s.hub with receiver, transport }, .ofResult result)
  | .info =>
    let track := if s.hub.receiver.received then some s.trackView else none
    (s, .receiver s.hub.receiver.kind s.hub.receiver.mtu track)
  | .onTrack name reads => (s.setHub { s.hub with handler := some (.recorder name reads) }, .done)
  | .drop => (s.setHub { s.hub with held := false }, .done)
  | .layer rid => (s, .layer ((s.hub.receiver.layer? rid).map s.view))
  | .layerOfSsrc ssrc =>
    if s.hub.receiver.received then (s, .rid ((s.hub.receiver.layerOfSsrc? ssrc).map Layer.rid))
    else (s, .refused .noTrack)
  | .describeTrack =>
    (s, .description (s.hub.receiver.track.map (describeTrack s.hub.receiver.kind)))
  | .describeLayer rid => (s, .description ((s.hub.receiver.layer? rid).map Layer.describe))

/-- Carries out a command to the receiver. The layers of a receiver that was dropped can still be asked for. -/
def performReceiver (s : Session) (c : ReceiverCommand) : Session × Reply :=
  if s.hub.held then s.performHeld c
  else
    match c with
    | .drop | .layer _ | .describeLayer _ => s.performHeld c
    | .layerOfSsrc _ => (s, .refused .noTrack)
    | .describeTrack => (s, .description none)
    | _ => (s, .refused .noReceiver)

/-! ## Tokens -/

/-- Carries out a command about tokens. -/
def performToken (s : Session) : TokenCommand → Session × Reply
  | .take name =>
    if s.hub.held then
      let (tokens, token) := s.hub.tokens.ofReceiver
      ({ s with hub := { s.hub with tokens }, tokens := s.tokens.insert name token }, .done)
    else (s, .refused .noReceiver)
  | .state name =>
    match s.tokens.find? name with
    | some t => (s, .flag (s.hub.isCancelled t))
    | none => (s, .refused .noToken)
  | .cancel name =>
    match s.tokens.find? name with
    | some t => (s.setHub { s.hub with tokens := s.hub.tokens.cancel t }, .done)
    | none => (s, .refused .noToken)

/-! ## The far side -/

/-- A session with another transport, and the reply to what was done there. -/
def onTransport (s : Session) (r : QueueTransport × Except Error Unit) : Session × Reply :=
  (s.setHub { s.hub with transport := r.1 }, .ofResult r.2)

/-- Carries out a command to the far side of the transport. -/
def performTransport (s : Session) : TransportCommand → Session × Reply
  | .refuseOpen ch ssrc => s.onTransport (s.hub.transport.refuseOpen ch ssrc, .ok ())
  | .refuseClose ch ssrc refuses => s.onTransport (s.hub.transport.refuseClose ch ssrc refuses, .ok ())
  | .pushMedia ssrc p => s.onTransport (s.hub.transport.pushMedia ssrc p)
  | .pushControl ssrc ps => s.onTransport (s.hub.transport.pushControl ssrc ps)
  | .push ch ssrc d => s.onTransport (s.hub.transport.push ch ssrc d)
  | .close ch ssrc => s.onTransport (s.hub.transport.closeStream ch ssrc)
  | .info ch ssrc =>
    let stream := s.hub.transport.stream ch ssrc
    (s, .stream ssrc stream.closed stream.closeAttempts)
  | .read ch ssrc buffer =>
    let (transport, attempt) := s.hub.transport.readStream ch ssrc buffer
    let reply :=
      match attempt with
      | .waiting => .pending
      | .done (.ok d) => .data (.bytes d)
      | .done (.error e) => .failed e
    (s.setHub { s.hub with transport }, reply)

/-! ## Outbound tracks -/

/-- Adds an outbound track under a name. -/
def addOutbound (s : Session) (name : String) (o : Outbound) : Session × Reply :=
  let index := s.hub.egress.tracks.length
  let hub := { s.hub with egress := s.hub.egress.addTrack o }
  ({ s with hub, outbounds := s.outbounds.insert name index }, .done)

/-- Writes a packet to the outbound track of a name. -/
def writeOutbound (s : Session) (name : String) (p : Rtp.Packet) : Session × Reply :=
  match s.outbounds.find? name with
  | none => (s, .refused .noOutbound)
  | some index =>
    let (egress, result) := s.hub.egress.write index p
    (s.setHub { s.hub with egress }, .ofSize result)

/-- Carries out a command about outbound tracks and writers. -/
def performOutbound (s : Session) : OutboundCommand → Session × Reply
  | .add name ssrc id streamId payloadType writer =>
    let (t, reply) := s.addOutbound name (.static { ssrc, id, streamId, payloadType, writer })
    ({ t with statics := t.statics.insert name s.hub.egress.tracks.length }, reply)
  | .addRefusing name ssrc cause => s.addOutbound name (.refusing ssrc cause)
  | .info name =>
    match s.static? name with
    | some (_, t) => (s, .outbound t.id t.streamId t.writer.isSome t.ssrc)
    | none => (s, .refused .noOutbound)
  | .describe name => (s, .description ((s.static? name).map fun (_, t) => t.describe))
  | .bind name writer =>
    match s.static? name with
    | some (index, _) => (s.setHub { s.hub with egress := s.hub.egress.bind index (some writer) }, .done)
    | none => (s, .refused .noOutbound)
  | .unbind name =>
    match s.static? name with
    | some (index, _) => (s.setHub { s.hub with egress := s.hub.egress.bind index none }, .done)
    | none => (s, .refused .noOutbound)
  | .write name p => s.writeOutbound name p
  | .writeDatagram name d =>
    if (s.outbounds.find? name).isNone then (s, .refused .noOutbound)
    else
      match decodeMedia d with
      | .error e => (s, .failed e)
      | .ok p => s.writeOutbound name p
  | .setWriter name closed failing =>
    let w := s.hub.egress.writer name
    let w := { w with closed := closed.getD w.closed, failing := failing.getD w.failing }
    (s.setHub { s.hub with egress := s.hub.egress.setWriter name w }, .done)
  | .setFeedbackFailing failing => (s.setHub { s.hub with feedback := { s.hub.feedback with failing } }, .done)

/-! ## Relays -/

/-- Starts a pump or scheduler under a name, with a token of the same name. -/
def spawnWithToken (s : Session) (name : String) (job : Token → Job) : Session × Reply :=
  let (tokens, token) := s.hub.tokens.fresh
  let s := { s with hub := { s.hub with tokens }, tokens := s.tokens.insert name token }
  (s.spawn name (job token), .done)

/-- Carries out a command about relays, forwarders and feedback. -/
def performRelay (s : Session) : RelayCommand → Session × Reply
  | .add name map =>
    if s.hub.held then
      let index := s.hub.relays.length
      ({ s with hub := s.hub.addRelay (s.route map), relays := s.relays.insert name index }, .done)
    else (s, .refused .noReceiver)
  | .takeFailures name =>
    match s.relay? name with
    | none => (s, .refused .noRelay)
    | some (index, _) =>
      if (s.channels.find? name).any fun c => c.relay = index then (s, .flag false)
      else ({ s with channels := s.channels.insert name { relay := index } }, .flag true)
  | .start name =>
    match s.relay? name with
    | some (index, _) =>
      if s.hub.held ∧ s.hub.receiver.received then
        let (hub, result) := s.hub.startRelay index (s.hub.receiver.layers.map Layer.rid)
        (s.setHub hub, .ofResult result)
      else (s, .refused .noRelayOrTrack)
    | none => (s, .refused .noRelayOrTrack)
  | .install name =>
    match s.relay? name with
    | some (index, _) =>
      if s.hub.held then (s.setHub { s.hub with handler := some (.relay index) }, .done)
      else (s, .refused .noRelayOrReceiver)
    | none => (s, .refused .noRelayOrReceiver)
  | .close name =>
    match s.relay? name with
    | some (_, r) => (s.setHub (s.hub.closeRelay r), .done)
    | none => (s, .refused .noRelay)
  | .state name =>
    match s.relay? name with
    | some (_, r) => (s, .relay (s.hub.isCancelled r.token))
    | none => (s, .refused .noRelay)
  | .addForwarder name map => ({ s with forwarders := s.forwarders.insert name (s.route map) }, .done)
  | .has name rid =>
    match s.forwarder? name with
    | some f => (s, .flag (f.has rid))
    | none => (s, .refused .noForwarder)
  | .forward name rid p =>
    match s.forwarder? name with
    | some f =>
      let (egress, result) := f.forward s.hub.egress rid p
      (s.setHub { s.hub with egress }, .ofResult result)
    | none => (s, .refused .noForwarder)
  | .startPump name rid forwarder =>
    match s.hub.receiver.layer? rid, s.forwarder? forwarder with
    | some _, some f => s.spawnWithToken name fun token => .pump ⟨rid, f, token, none⟩
    | _, _ => (s, .refused .noLayerOrForwarder)
  | .startScheduler name rid period bitrate =>
    match s.hub.receiver.layer? rid with
    | some _ =>
      s.spawnWithToken name fun token => .feedback ⟨rid, nanosecondsPerMillisecond * period, bitrate, token⟩
    | none => (s, .refused .noLayer)
  | .giveFeedback rid bitrate =>
    match s.hub.receiver.layer? rid with
    | some l => (s.setHub { s.hub with feedback := s.hub.feedback.writeRound l.ssrc bitrate }, .done)
    | none => (s, .refused .noLayer)

/-! ## All commands -/

/-- Carries out a command. -/
def perform (s : Session) : Command → Session × Reply
  | .reading c => s.performRead c
  | .receiver c => s.performReceiver c
  | .token c => s.performToken c
  | .transport c => s.performTransport c
  | .outbound c => s.performOutbound c
  | .relay c => s.performRelay c
  | .advance milliseconds => (s.setHub (s.hub.advance (nanosecondsPerMillisecond * milliseconds)), .done)
  | .unknown => (s, .refused .unknownStep)

end Session

end MediaRelay
