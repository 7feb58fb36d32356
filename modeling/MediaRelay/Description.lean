import MediaRelay.Outbound
import MediaRelay.Receiver

/-!
# Descriptions for developers

Layers, tracks and outbound tracks written out with the names of their parts.
-/

namespace MediaRelay

/-- The parts of a structure between braces, after its name. -/
def describeParts (name : String) (parts : List (String × String)) : String :=
  name ++ " \x7b " ++ ", ".intercalate (parts.map fun (k, v) => k ++ ": " ++ v) ++ " \x7d"

/-- The name of a kind in descriptions. -/
def Kind.constructorName : Kind → String
  | .unspecified => "Unspecified"
  | .audio => "Audio"
  | .video => "Video"

/-- A truth value as a word. -/
def describeBool (b : Bool) : String :=
  if b then "true" else "false"

/-- A layer, described. -/
def Layer.describe {σ : Type} (l : Layer σ) : String :=
  describeParts "SimulcastLayer" [
    ("rid", Text.quoted l.rid), ("ssrc", toString l.ssrc.toNat), ("ready", describeBool l.isReady)]

/-- A track, described. -/
def describeTrack {σ : Type} (kind : Kind) (layers : List (Layer σ)) : String :=
  describeParts "TrackRemote" [
    ("kind", kind.constructorName), ("layers", "[" ++ ", ".intercalate (layers.map Layer.describe) ++ "]")]

/-- An outbound track, described. -/
def StaticTrack.describe (t : StaticTrack) : String :=
  let payloadType :=
    match t.payloadType with
    | some n => "Some(" ++ toString n.toNat ++ ")"
    | none => "None"
  describeParts "TrackLocalStaticRTP" [
    ("ssrc", toString t.ssrc.toNat), ("payload_type", payloadType), ("id", Text.quoted t.id),
    ("stream_id", Text.quoted t.streamId)]

end MediaRelay
