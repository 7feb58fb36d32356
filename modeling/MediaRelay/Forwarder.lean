import MediaRelay.Outbound

/-!
# Forwarding

A forwarder knows for each RID the outbound track of its packets. A packet is forwarded under that track's SSRC,
and a track whose other end has gone counts as having taken it.
-/

namespace MediaRelay

/-- The outbound track of each RID. -/
structure Forwarder where
  routes : Table String Nat := {}

namespace Forwarder

/-- Whether a RID has an outbound track. -/
def has (f : Forwarder) (rid : String) : Bool :=
  (f.routes.find? rid).isSome

/-- A packet under the SSRC of an outbound track. -/
def stamp (e : Egress) (track : Nat) (p : Rtp.Packet) : Rtp.Packet :=
  match e.tracks[track]? with
  | some o => { p with ssrc := o.ssrc }
  | none => p

/-- The result of forwarding, given that of the write: a packet for somebody who has gone counts as delivered. -/
def delivered : Except Error Nat → Except Error Unit
  | .ok _ => .ok ()
  | .error cause => if cause.isClosedPipe then .ok () else .error cause

/-- Writes a packet of a layer to the outbound track of its RID. -/
def forward (f : Forwarder) (e : Egress) (rid : String) (p : Rtp.Packet) : Egress × Except Error Unit :=
  match f.routes.find? rid with
  | none => (e, .error (.noOutboundTrack rid))
  | some track =>
    let (e, result) := e.write track (stamp e track p)
    (e, delivered result)

end Forwarder

end MediaRelay
