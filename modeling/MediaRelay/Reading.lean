import MediaRelay.Receiver
import MediaRelay.Rtcp.Wire
import MediaRelay.Rtp.Wire

/-!
# Reading from a receiver

A read asks a `Source` of the receiver for data: the media of a layer, or its control data. `Receiver.standing`
says where it stands: it fails at once, waits for the track or for its layer, or is a read of one stream of the
transport. Data is given as the bytes of a datagram or decoded.
-/

namespace MediaRelay

/-- What a read asks for. -/
inductive Source where
  /-- The media of the layer of a RID. -/
  | media (rid : String)
  /-- The control data of the layer of a RID. -/
  | control (rid : String)
  /-- The control data of the first layer. -/
  | firstControl
deriving DecidableEq, Repr

/-- Where a read stands. -/
inductive Standing (σ : Type) where
  | failed (cause : Error)
  | awaitsTrack
  | awaitsLayer
  | atStream (channel : Channel) (stream : σ)
deriving DecidableEq, Repr

/-- The channel of a source. -/
def Source.channel : Source → Channel
  | .media _ => .media
  | _ => .control

/-- Where a read stands whose layer is known. -/
def Layer.standing {σ : Type} (l : Layer σ) (ch : Channel) : Standing σ :=
  match l.binding, ch with
  | .unbound, _ => .awaitsLayer
  | .released, _ => .failed .closedPipe
  | .bound m _ _, .media => .atStream .media m
  | .bound _ c _, .control => .atStream .control c

namespace Receiver

variable {τ σ : Type}

/-- The layer of a source. -/
def layerOf? (r : Receiver σ) : Source → Option (Layer σ)
  | .media rid => r.layer? rid
  | .control rid => r.layer? rid
  | .firstControl => r.layers.head?

/-- Where a read stands. -/
def standing (r : Receiver σ) (s : Source) : Standing σ :=
  if r.closing then .failed .closedPipe
  else if ¬ r.received then .awaitsTrack
  else if r.track.isNone then .failed .closedPipe
  else
    match r.layerOf? s with
    | none => .failed .unknownRid
    | some l => l.standing s.channel

end Receiver

/-! ## Reads -/

/-- How data is given: as bytes in a buffer, or decoded. -/
inductive Form where
  | bytes (buffer : Nat)
  | decoded
deriving DecidableEq, Repr

/-- A read of some source. -/
structure Read where
  source : Source
  form : Form
deriving DecidableEq, Repr

/-- What a read gives. -/
inductive Data where
  | bytes (datagram : Datagram)
  | media (packet : Rtp.Packet)
  | control (packets : List Rtcp.Packet)
deriving DecidableEq, Repr

/-- Decodes a datagram of media. -/
def decodeMedia (d : Datagram) : Except Error Rtp.Packet :=
  match Rtp.decode d with
  | .ok p => .ok p
  | .error f => .error (.util (.rtp f))

/-- Decodes a datagram of control data. -/
def decodeControl (d : Datagram) : Except Error (List Rtcp.Packet) :=
  match Rtcp.decode d with
  | .ok ps => .ok ps
  | .error f => .error (.rtcp (.packet f))

/-- The size of the buffer that a read gives to the stream. -/
def Read.buffer (r : Read) (mtu : Nat) : Nat :=
  match r.form with
  | .bytes n => n
  | .decoded => mtu

/-- What a read makes of a datagram. -/
def Read.data (r : Read) (d : Datagram) : Except Error Data :=
  match r.form, r.source.channel with
  | .bytes _, _ => .ok (.bytes d)
  | .decoded, .media => (decodeMedia d).map .media
  | .decoded, .control => (decodeControl d).map .control

/-- What a read comes to. -/
inductive Progress (α : Type) where
  | awaitsTrack
  | awaitsLayer
  | awaitsDatagram
  | done (result : Except Error α)

/-- Reads from a receiver. -/
def Receiver.read {τ σ : Type} [Transport τ σ] (r : Receiver σ) (t : τ) (q : Read) : τ × Progress Data :=
  match r.standing q.source with
  | .failed e => (t, .done (.error e))
  | .awaitsTrack => (t, .awaitsTrack)
  | .awaitsLayer => (t, .awaitsLayer)
  | .atStream ch s =>
    match Transport.readStream t ch s (q.buffer r.mtu) with
    | (t, .waiting) => (t, .awaitsDatagram)
    | (t, .done (.error e)) => (t, .done (.error e))
    | (t, .done (.ok d)) => (t, .done (q.data d))

end MediaRelay
