import MediaRelay.Hub.Task
import MediaRelay.Settings
import MediaRelay.Transport.Queue

/-!
# The hub

A hub is one receiver over a transport in memory, with everything that hangs off it: outbound tracks, relays,
tasks, tokens and a clock in nanoseconds. This module holds its state and the operations that do not run tasks.
-/

namespace MediaRelay

/-- The state of everything around one receiver. `held` tells whether the application still has the receiver; its
inner state lives on while a read waits. -/
structure Hub where
  settings : Settings
  receiver : Receiver Ssrc
  transport : QueueTransport := {}
  held : Bool := true
  handler : Option Handler := none
  egress : Egress := {}
  feedback : ControlWriter := {}
  tokens : TokenPool := {}
  relays : List Relay := []
  tasks : List Task := []
  nextTask : Nat := 0
  endings : Table Nat Ending := {}
  events : List Event := []
  clock : Nat := 0

namespace Hub

/-- A hub whose receiver has just been made. -/
def new (settings : Settings) (kind : Kind) : Hub where
  settings := settings
  receiver := { kind, mtu := settings.receiverMtu }

/-! ## Receiver -/

/-- Whether the inner state of the receiver is there. -/
def isAlive (h : Hub) : Bool :=
  h.held || h.tasks.any Task.holdsReceiver

/-- Whether a token is cancelled. -/
def isCancelled (h : Hub) (t : Token) : Bool :=
  h.tokens.isCancelled h.receiver.closing t

/-- Reads from the receiver. The media of a layer cannot be read once the receiver is gone. -/
def read (h : Hub) (q : Read) : Hub × Progress Data :=
  match q.source, h.isAlive with
  | .media _, false => (h, .done (.error .closedPipe))
  | _, _ =>
    let (transport, progress) := h.receiver.read h.transport q
    ({ h with transport }, progress)

/-- The SSRC of a layer. -/
def ssrcOf (h : Hub) (rid : String) : Ssrc :=
  match h.receiver.layer? rid with
  | some l => l.ssrc
  | none => 0

/-! ## Tasks -/

/-- Starts a task. -/
def spawn (h : Hub) (job : Job) : Hub :=
  { h with tasks := h.tasks ++ [{ id := h.nextTask, job }], nextTask := h.nextTask + 1 }

/-- The tasks other than the one of a number. -/
def others (h : Hub) (id : Nat) : List Task :=
  h.tasks.filter fun t => t.id ≠ id

/-- Drops a task, running or ended. -/
def abort (h : Hub) (id : Nat) : Hub :=
  { h with tasks := h.others id, endings := h.endings.erase id }

/-- Ends a task. -/
def retire (h : Hub) (t : Task) (e : Ending) : Hub :=
  { h with tasks := h.others t.id, endings := h.endings.insert t.id e }

/-- Ends a task that nobody asks about. -/
def dismiss (h : Hub) (t : Task) : Hub :=
  { h with tasks := h.others t.id }

/-- Lets a task wait behind all others. -/
def park (h : Hub) (t : Task) (g : Gate) : Hub :=
  { h with tasks := h.others t.id ++ [{ t with stage := .waiting g }] }

/-- Lets a task go on before all others. -/
def resume (h : Hub) (t : Task) (job : Job) : Hub :=
  { h with tasks := { id := t.id, job } :: h.others t.id }

/-! ## Relays -/

/-- Adds a relay, and makes it the handler of the receiver. -/
def addRelay (h : Hub) (f : Forwarder) : Hub :=
  let (tokens, token) := h.tokens.ofReceiver
  { h with tokens, relays := h.relays ++ [{ forwarder := f, token }], handler := some (.relay h.relays.length) }

/-- Starts the tasks of a relay for one layer: feedback, unless it is turned off, and a pump. -/
def startLayer (h : Hub) (index : Nat) (r : Relay) (rid : String) : Hub :=
  let (tokens, token) := h.tokens.child r.token
  let h := { h with tokens }
  let h :=
    if h.settings.feedback then
      h.spawn (.feedback ⟨rid, h.settings.interval.total, h.settings.bitrate.toNat, token⟩)
    else h
  h.spawn (.pump ⟨rid, r.forwarder, token, some index⟩)

/-- Starts a relay for the layers of a track. A relay starts once, and not after it was closed. -/
def startRelay (h : Hub) (index : Nat) (rids : List String) : Hub × Except Error Unit :=
  match h.relays[index]? with
  | none => (h, .error .closedPipe)
  | some r =>
    if r.started then (h, .error .relayAlreadyStarted)
    else
      let h := { h with relays := h.relays.modify index fun r => { r with started := true } }
      if h.isCancelled r.token then (h, .error .closedPipe)
      else (rids.foldl (fun h rid => h.startLayer index r rid) h, .ok ())

/-- Closes a relay. -/
def closeRelay (h : Hub) (r : Relay) : Hub :=
  { h with tokens := h.tokens.cancel r.token }

/-- Ends a pump that gave up. A relay cancels the tasks of that layer and publishes the failure. -/
def failPump (h : Hub) (t : Task) (p : Pump) (cause : Error) : Hub :=
  match p.relay with
  | none => h.retire t (.pump p.rid (.error cause))
  | some index =>
    { h.dismiss t with
      tokens := h.tokens.cancel p.token
      relays := h.relays.modify index fun r =>
        { r with failures := r.failures ++ [⟨p.rid, h.ssrcOf p.rid, cause⟩] } }

end Hub

end MediaRelay
