import MediaRelay.Rtp.Packet

/-!
# Packet indices

Sequence numbers have 16 bits and wrap around. The index of a packet is its sequence number with the count of wraps
in the higher bits. Only the sequence number is on the wire, so each end of a secure session works the index out
from the last one that it knows: `next` takes the index that is nearest to it. `sequence_next` says that the index
keeps the sequence number, `value_next_near` that it is near.
-/

namespace MediaRelay

/-- A sequence number, and above its 16 bits the count of wraps before it. -/
structure PacketIndex where
  value : Nat
deriving DecidableEq, Repr

namespace PacketIndex

/-- The number of sequence numbers. -/
def period : Nat := 0x10000

/-- The count of wraps. -/
def wraps (i : PacketIndex) : Nat :=
  i.value / period

/-- The sequence number. -/
def sequence (i : PacketIndex) : Nat :=
  i.value % period

/-- The index of a sequence number after a count of wraps. -/
def ofWraps (wraps : Nat) (seq : UInt16) : PacketIndex :=
  ⟨wraps * period + seq.toNat⟩

/-- The wraps of a sequence number that comes with, before or after the packet of an index: one wrap more or less if
that brings it nearer. Nothing comes before the first wrap. -/
def wrapsNear (last : PacketIndex) (seq : UInt16) : Nat :=
  if last.value ≤ period / 2 then 0
  else if last.sequence < period / 2 then
    if last.sequence + period / 2 < seq.toNat then last.wraps - 1 else last.wraps
  else if seq.toNat + period / 2 < last.sequence then last.wraps + 1
  else last.wraps

/-- The index of a sequence number after the last index that is known, if there is one. -/
def next (last : Option PacketIndex) (seq : UInt16) : PacketIndex :=
  match last with
  | none => ofWraps 0 seq
  | some i => ofWraps (i.wrapsNear seq) seq

/-! ## What an index is made of -/

@[simp] theorem sequence_ofWraps (wraps : Nat) (seq : UInt16) : (ofWraps wraps seq).sequence = seq.toNat := by
  have := seq.toNat_lt
  simp only [sequence, ofWraps, period]
  omega

@[simp] theorem wraps_ofWraps (wraps : Nat) (seq : UInt16) : (ofWraps wraps seq).wraps = wraps := by
  have := seq.toNat_lt
  simp only [PacketIndex.wraps, ofWraps, period]
  omega

/-- An index is worked out for the sequence number that is on the wire. -/
@[simp] theorem sequence_next (last : Option PacketIndex) (seq : UInt16) :
    (next last seq).sequence = seq.toNat := by
  cases last <;> simp [next]

/-- Once an index is beyond half a period, the next one is at most half a period away from it. -/
theorem value_next_near {i : PacketIndex} (h : period / 2 < i.value) (seq : UInt16) :
    i.value ≤ (next (some i) seq).value + period / 2 ∧ (next (some i) seq).value ≤ i.value + period / 2 := by
  have := seq.toNat_lt
  have hw : (next (some i) seq).value = i.wrapsNear seq * period + seq.toNat := rfl
  rw [hw]
  unfold wrapsNear wraps sequence
  split
  · omega
  · split
    · split <;> simp only [period] at * <;> omega
    · split <;> simp only [period] at * <;> omega

end PacketIndex

end MediaRelay
