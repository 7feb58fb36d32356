import MediaRelay.Error

/-!
# Feedback

One round of feedback for a layer asks its sender for a keyframe and announces the target bitrate, in two batches.
A layer whose SSRC is unknown gets none. A `ControlWriter` keeps the batches it was given.
-/

namespace MediaRelay

/-- A writer that keeps the batches of control packets it was given, unless it is failing. -/
structure ControlWriter where
  written : List (List Rtcp.Packet) := []
  failing : Bool := false
deriving DecidableEq, Repr

/-- Writes a batch. -/
def ControlWriter.write (w : ControlWriter) (batch : List Rtcp.Packet) : ControlWriter :=
  if w.failing then w else { w with written := w.written ++ [batch] }

/-- The batches of one round. -/
def feedbackRound (ssrc : Ssrc) (bitrate : Nat) : List (List Rtcp.Packet) :=
  if ssrc = 0 then []
  else [[.pictureLoss 0 ssrc], [.maximumBitrate 0 (Rtcp.singlePrecision bitrate) [ssrc]]]

/-- Writes one round; a batch that cannot be written is dropped. -/
def ControlWriter.writeRound (w : ControlWriter) (ssrc : Ssrc) (bitrate : Nat) : ControlWriter :=
  (feedbackRound ssrc bitrate).foldl write w

end MediaRelay
