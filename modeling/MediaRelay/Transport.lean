import MediaRelay.Bytes
import MediaRelay.Error

/-!
# Secure transports

A transport opens read streams by SSRC on two channels, one for media and one for control data. A read gives a
datagram, fails, or has to wait. The receiver is written against the class `Transport`, so it works with every
transport.
-/

namespace MediaRelay

/-- What a stream carries. -/
inductive Channel where
  | media
  | control
deriving DecidableEq, Repr

/-- What a read comes to: it waits, taking nothing, or it is done. -/
inductive Attempt (α : Type) where
  | waiting
  | done (result : Except Error α)

/-- A transport `τ` whose open streams are named by `σ`. -/
class Transport (τ : Type) (σ : outParam Type) where
  /-- Opens the stream of an SSRC. -/
  openStream : τ → Channel → Ssrc → τ × Except Error σ
  /-- Closes a stream. -/
  closeStream : τ → Channel → σ → τ × Except Error Unit
  /-- Reads one datagram into a buffer of the given size. -/
  readStream : τ → Channel → σ → Nat → τ × Attempt Datagram

end MediaRelay
