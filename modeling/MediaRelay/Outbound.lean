import MediaRelay.Error
import MediaRelay.Table

/-!
# Outbound tracks

A packet leaves through an outbound track. A static track hands packets to the writer that it is bound to, if any,
and may put its own payload type on them; a refusing track fails every write. `Egress` holds all writers, by name,
and all outbound tracks, by number; `Egress.write` writes one packet.
-/

namespace MediaRelay

/-! ## Writers -/

/-- A writer that keeps the packets it was given. -/
structure Writer where
  written : List Rtp.Packet := []
  closed : Bool := false
  failing : Bool := false
deriving DecidableEq, Repr

/-- Writes a packet; the result is its size. -/
def Writer.write (w : Writer) (p : Rtp.Packet) : Writer × Except Error Nat :=
  if w.closed then (w, .error .closedPipe)
  else if w.failing then (w, .error (.other "mock writer: write failed"))
  else ({ w with written := w.written ++ [p] }, .ok p.size)

/-! ## Tracks -/

/-- A track that hands packets on to the writer it is bound to. -/
structure StaticTrack where
  ssrc : Ssrc
  id : String
  streamId : String
  payloadType : Option UInt8 := none
  writer : Option String := none
deriving DecidableEq, Repr

/-- An outbound track. -/
inductive Outbound where
  | static (track : StaticTrack)
  | refusing (ssrc : Ssrc) (cause : Error)
deriving DecidableEq, Repr

/-- The SSRC under which a track publishes. -/
def Outbound.ssrc : Outbound → Ssrc
  | .static t => t.ssrc
  | .refusing s _ => s

/-- A packet as a static track hands it on. -/
def StaticTrack.stamp (t : StaticTrack) (p : Rtp.Packet) : Rtp.Packet :=
  match t.payloadType with
  | some n => { p with payloadType := n }
  | none => p

/-! ## All of them -/

/-- The writers and outbound tracks of a program. -/
structure Egress where
  writers : Table String Writer := {}
  tracks : List Outbound := []

namespace Egress

/-- The writer of a name; it is there as soon as it is named. -/
def writer (e : Egress) (name : String) : Writer :=
  (e.writers.find? name).getD {}

/-- Stores a writer. -/
def setWriter (e : Egress) (name : String) (w : Writer) : Egress :=
  { e with writers := e.writers.insert name w }

/-- Adds a track, whose number is the count of those before it. -/
def addTrack (e : Egress) (o : Outbound) : Egress :=
  { e with tracks := e.tracks ++ [o] }

/-- Binds a static track to a writer, or to none. -/
def bind (e : Egress) (track : Nat) (writer : Option String) : Egress :=
  { e with tracks := e.tracks.modify track fun
      | .static t => .static { t with writer }
      | o => o }

/-- Writes a packet to a track; the result is its size. -/
def write (e : Egress) (track : Nat) (p : Rtp.Packet) : Egress × Except Error Nat :=
  match e.tracks[track]? with
  | some (.static t) =>
    match t.writer with
    | none => (e, .error .closedPipe)
    | some name =>
      let (w, result) := (e.writer name).write (t.stamp p)
      (e.setWriter name w, result)
  | some (.refusing _ cause) => (e, .error cause)
  | none => (e, .error .closedPipe)

end Egress

end MediaRelay
