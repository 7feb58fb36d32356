import MediaRelay.Hub.Settle
import MediaRelay.Session.Reply

/-!
# Sessions

A session is a hub and the names that commands have given to its parts. A name may be given again; what had it
before goes on without a name.
-/

namespace MediaRelay

/-- What stands behind the name of a task: a task, or a read that was refused when it was to be started. -/
inductive TaskName where
  | running (id : Nat)
  | refused (why : Refusal)
deriving DecidableEq, Repr

/-- The failures of a relay that somebody has asked for, and how many of them were shown. -/
structure FailureChannel where
  relay : Nat
  shown : Nat := 0
deriving DecidableEq, Repr

/-- A hub, and names for its parts. Every outbound track has a name in `outbounds`; a static one has it in `statics`
as well, and keeps that when a track of another sort takes the name. -/
structure Session where
  hub : Hub
  outbounds : Table String Nat := {}
  statics : Table String Nat := {}
  relays : Table String Nat := {}
  forwarders : Table String Forwarder := {}
  tokens : Table String Token := {}
  tasks : Table String TaskName := {}
  channels : Table String FailureChannel := {}

namespace Session

/-- A session whose receiver has just been made. -/
def new (settings : Settings) (kind : Kind) : Session where
  hub := Hub.new settings kind

/-! ## Looking up names -/

/-- The relay of a name, and its number. -/
def relay? (s : Session) (name : String) : Option (Nat × Relay) := do
  let index ← s.relays.find? name
  let r ← s.hub.relays[index]?
  some (index, r)

/-- The forwarder of a name, or else that of the relay of that name. -/
def forwarder? (s : Session) (name : String) : Option Forwarder :=
  match s.forwarders.find? name with
  | some f => some f
  | none => (s.relay? name).map fun (_, r) => r.forwarder

/-- The static outbound track of a name, and its number. -/
def static? (s : Session) (name : String) : Option (Nat × StaticTrack) := do
  let index ← s.statics.find? name
  match ← s.hub.egress.tracks[index]? with
  | .static t => some (index, t)
  | .refusing _ _ => none

/-- The forwarder of a map from RIDs to names of outbound tracks; names that nobody has are left out. -/
def route (s : Session) (map : List (String × String)) : Forwarder where
  routes := map.foldl (fun t (rid, name) =>
    match s.outbounds.find? name with
    | some index => t.insert rid index
    | none => t) {}

/-! ## Views -/

/-- What is shown of a layer. -/
def view (s : Session) (l : Layer Ssrc) : LayerView where
  rid := l.rid
  ssrc := l.ssrc
  ready := l.isReady
  owned := s.hub.isAlive

/-- What is shown of the track. -/
def trackView (s : Session) : TrackView where
  kind := s.hub.receiver.kind
  layers := s.hub.receiver.layers.map s.view

/-! ## Changing the hub -/

/-- A session with another hub. -/
def setHub (s : Session) (hub : Hub) : Session :=
  { s with hub }

/-- Starts a task under a name. -/
def spawn (s : Session) (name : String) (job : Job) : Session :=
  { s with hub := s.hub.spawn job, tasks := s.tasks.insert name (.running s.hub.nextTask) }

end Session

end MediaRelay
