/-!
# Replay windows

A window tells which sequence numbers of one SSRC have been accepted lately. Numbers wrap around.
`ReplayWindow.admits` refuses a number that is remembered and one that is too far behind the latest;
`ReplayWindow.accept` makes the window remember a number.
-/

namespace MediaRelay

/-- The latest sequence number, and the accepted ones that are remembered, all less than a window behind it. -/
structure ReplayWindow where
  latest : UInt16
  accepted : List UInt16 := []
deriving DecidableEq, Repr

namespace ReplayWindow

/-- The number of sequence numbers that a window can remember. -/
def width : Int := 64

/-- How far a sequence number is behind another, negative if it is ahead. A distance of about half the range or
more is taken the other way round. -/
def behind (latest seq : UInt16) : Int :=
  let d : Int := latest.toNat - seq.toNat
  if 32767 < d then d - 65536 else if d ≤ -32767 then d + 65536 else d

/-- The window before the first sequence number, which is next to its latest one. -/
def before (seq : UInt16) : ReplayWindow where
  latest := seq - 1

/-- Whether a sequence number may be accepted. -/
def admits (w : ReplayWindow) (seq : UInt16) : Bool :=
  behind w.latest seq < width && seq ∉ w.accepted

/-- The window after a sequence number that it admits has been accepted. A number from before the last wrap that
comes after it is not remembered. -/
def accept (w : ReplayWindow) (seq : UInt16) : ReplayWindow :=
  if behind w.latest seq < 0 then
    ⟨seq, seq :: w.accepted.filter fun s => 0 ≤ behind seq s ∧ behind seq s < width⟩
  else if seq ≤ w.latest then { w with accepted := seq :: w.accepted }
  else w

end ReplayWindow

end MediaRelay
