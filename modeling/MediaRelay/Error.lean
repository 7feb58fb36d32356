import MediaRelay.Json.Reader
import MediaRelay.Rtp.Packet
import MediaRelay.Rtcp.Packet
import MediaRelay.Text.Quoted

/-!
# Errors

Every operation fails with an `Error`: a cause of its own, or a fault of the layer below it (packet buffers,
packets, secure sessions, JSON). `Error.message` is the wording of each, and `Error.isClosedPipe` tells those
errors that only mean that the other end has gone.
-/

namespace MediaRelay

/-- Why a packet buffer does not give or take a datagram. -/
inductive BufferFault where
  | closed
  | full
  | short
  | timeout
deriving DecidableEq, Repr

/-- The wording of a buffer fault. -/
def BufferFault.message : BufferFault → String
  | .closed => "buffer: closed"
  | .full => "buffer: full"
  | .short => "buffer: short"
  | .timeout => "i/o timeout"

/-- A fault of a buffer or of a packet that goes through it. -/
inductive BufferError where
  | buffer (fault : BufferFault)
  | rtp (fault : Rtp.Fault)
  | other (text : String)
deriving DecidableEq, Repr

/-- The wording of a fault of a buffer. -/
def BufferError.message : BufferError → String
  | .buffer f => f.message
  | .rtp f => f.message
  | .other t => t

/-- A fault of control packets. -/
inductive ControlError where
  | packet (fault : Rtcp.Fault)
  | buffer (fault : BufferFault)
deriving DecidableEq, Repr

/-- The wording of a fault of control packets. -/
def ControlError.message : ControlError → String
  | .packet f => f.message
  | .buffer f => f.message

/-- A fault of a secure session. -/
inductive SecureError where
  | buffer (fault : BufferFault)
  | rtp (fault : Rtp.Fault)
  | rtcp (fault : Rtcp.Fault)
  | controlTooShort
  | ended
deriving DecidableEq, Repr

/-- The wording of a fault of a secure session. -/
def SecureError.message : SecureError → String
  | .buffer f => f.message
  | .rtp f => f.message
  | .rtcp f => f.message
  | .controlTooShort => "packet is too short to be RTCP packet"
  | .ended => "Session EOF"

/-- Why an operation fails. -/
inductive Error where
  | closedPipe
  | shortBuffer
  | noEncodings
  | duplicateRid
  | alreadyReceived
  | receiverStopped
  | unknownRid
  | layerAlreadyBound
  | zeroSsrc
  | noOutboundTrack (rid : String)
  | relayAlreadyStarted
  | zeroFeedbackInterval
  | io (text : String)
  | util (cause : BufferError)
  | rtcp (cause : ControlError)
  | rtp (cause : Rtp.Fault)
  | srtp (cause : SecureError)
  | json (cause : Json.Fault)
  | other (text : String)
deriving DecidableEq, Repr

namespace Error

/-- The wording of an error. -/
def message : Error → String
  | closedPipe => "io: read/write on closed pipe"
  | shortBuffer => "io: short buffer"
  | noEncodings => "no encodings provided"
  | duplicateRid => "encodings must have unique RIDs"
  | alreadyReceived => "Receive has already been called"
  | receiverStopped => "RTPReceiver has been stopped"
  | unknownRid => "no trackStreams found for RID"
  | layerAlreadyBound => "simulcast layer is already bound to an SSRC"
  | zeroSsrc => "SSRC must not be zero"
  | noOutboundTrack rid => "no outbound track registered for rid " ++ Text.quoted rid
  | relayAlreadyStarted => "track relay has already been started"
  | zeroFeedbackInterval => "feedback interval must be greater than zero"
  | io t => "IoError: " ++ t
  | util c => "UtilError: " ++ c.message
  | rtcp c => "RtcpError: " ++ c.message
  | rtp c => "RtpError: " ++ c.message
  | srtp c => "SrtpError: " ++ c.message
  | json c => "SerdeJsonError: " ++ c.message
  | other t => t

/-- Whether the error only means that the other end has gone. -/
def isClosedPipe : Error → Bool
  | closedPipe => true
  | util (.buffer .closed) => true
  | srtp (.buffer .closed) => true
  | _ => false

end Error

end MediaRelay
