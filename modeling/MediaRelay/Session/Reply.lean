import MediaRelay.Hub.Task

/-!
# Replies of a session

What a command comes to. A command that cannot be carried out at all, because it names something that is not there,
is refused.
-/

namespace MediaRelay

/-- Why a command is refused. -/
inductive Refusal where
  | noReceiver
  | noLayer
  | noTrack
  | noToken
  | noTask
  | noOutbound
  | noRelay
  | noRelayOrTrack
  | noRelayOrReceiver
  | noForwarder
  | noLayerOrForwarder
  | noStream
  | notARead
  | unknownStep
deriving DecidableEq, Repr

/-- The wording of a refusal. -/
def Refusal.message : Refusal → String
  | .noReceiver => "no receiver"
  | .noLayer => "no layer"
  | .noTrack => "no track"
  | .noToken => "no token"
  | .noTask => "no task"
  | .noOutbound => "no outbound"
  | .noRelay => "no relay"
  | .noRelayOrTrack => "no relay or track"
  | .noRelayOrReceiver => "no relay or receiver"
  | .noForwarder => "no forwarder"
  | .noLayerOrForwarder => "no layer or forwarder"
  | .noStream => "no stream"
  | .notARead => "not a read"
  | .unknownStep => "unknown step"

/-- What is shown of a layer; `owned` tells whether its track is still there. -/
structure LayerView where
  rid : String
  ssrc : Ssrc
  ready : Bool
  owned : Bool
deriving DecidableEq, Repr

/-- What is shown of a track. -/
structure TrackView where
  kind : Kind
  layers : List LayerView
deriving DecidableEq, Repr

/-- Whether a track has more than one layer. -/
def TrackView.isSimulcast (t : TrackView) : Bool :=
  1 < t.layers.length

/-- What a command comes to. -/
inductive Reply where
  | done
  | pending
  | flag (value : Bool)
  | size (bytes : Nat)
  | data (value : Data)
  | track (value : TrackView)
  | layer (value : Option LayerView)
  | rid (value : Option String)
  | description (value : Option String)
  | receiver (kind : Kind) (mtu : Nat) (track : Option TrackView)
  | stream (ssrc : Ssrc) (closed : Bool) (closeAttempts : Nat)
  | outbound (id streamId : String) (bound : Bool) (ssrc : Ssrc)
  | relay (closed : Bool)
  | ended (how : Ending)
  | endedRefused (why : Refusal)
  | failed (cause : Error)
  | refused (why : Refusal)

namespace Reply

/-- The reply to an operation without a value. -/
def ofResult : Except Error Unit → Reply
  | .ok () => done
  | .error e => failed e

/-- The reply to a write. -/
def ofSize : Except Error Nat → Reply
  | .ok n => size n
  | .error e => failed e

/-- The reply to a read. -/
def ofProgress : Progress Data → Reply
  | .done (.ok d) => data d
  | .done (.error e) => failed e
  | _ => pending

/-- The reply to a read of a stream that nothing else is to be made of. -/
def ofAttempt : Attempt Datagram → Reply
  | .waiting => pending
  | .done (.ok d) => data (.bytes d)
  | .done (.error e) => failed e

end Reply

end MediaRelay
