import MediaRelay.Reading

/-!
# Commands of a session

A session is driven from outside by commands. They name outbound tracks, relays, forwarders, tasks and tokens by
names that the commands themselves give.
-/

namespace MediaRelay

/-- Commands that read, or run reads beside the session. -/
inductive ReadCommand where
  | read (query : Read)
  /-- Starts a read and leaves it running. No query stands for something that is not a read. -/
  | spawn (name : String) (query : Option Read)
  | poll (name : String)
  | abort (name : String)
deriving DecidableEq, Repr

/-- Commands to the receiver and its track, and questions about them. -/
inductive ReceiverCommand where
  | receive (encodings : List Encoding)
  | bind (rid : String) (ssrc : Ssrc)
  | stop
  | info
  | onTrack (name : String) (reads : Bool)
  | drop
  | layer (rid : String)
  | layerOfSsrc (ssrc : Ssrc)
  | describeTrack
  | describeLayer (rid : String)
deriving DecidableEq, Repr

/-- Commands about tokens. -/
inductive TokenCommand where
  | take (name : String)
  | state (name : String)
  | cancel (name : String)
deriving DecidableEq, Repr

/-- Commands to the far side of the transport. -/
inductive TransportCommand where
  | refuseOpen (channel : Channel) (ssrc : Ssrc)
  | refuseClose (channel : Channel) (ssrc : Ssrc) (refuses : Bool)
  | pushMedia (ssrc : Ssrc) (packet : Rtp.Packet)
  | pushControl (ssrc : Ssrc) (packets : List Rtcp.Packet)
  | push (channel : Channel) (ssrc : Ssrc) (datagram : Datagram)
  | info (channel : Channel) (ssrc : Ssrc)
  | close (channel : Channel) (ssrc : Ssrc)
  | read (channel : Channel) (ssrc : Ssrc) (buffer : Nat)
deriving DecidableEq, Repr

/-- Commands about outbound tracks and writers. -/
inductive OutboundCommand where
  | add (name : String) (ssrc : Ssrc) (id streamId : String) (payloadType : Option UInt8) (writer : Option String)
  | addRefusing (name : String) (ssrc : Ssrc) (cause : Error)
  | info (name : String)
  | describe (name : String)
  | bind (name writer : String)
  | unbind (name : String)
  | write (name : String) (packet : Rtp.Packet)
  | writeDatagram (name : String) (datagram : Datagram)
  | setWriter (name : String) (closed failing : Option Bool)
  | setFeedbackFailing (failing : Bool)
deriving DecidableEq, Repr

/-- Commands about relays, forwarders and feedback. A map gives the name of the outbound track of each RID, and the
period of a scheduler is in milliseconds. -/
inductive RelayCommand where
  | add (name : String) (map : List (String × String))
  | takeFailures (name : String)
  | start (name : String)
  | install (name : String)
  | close (name : String)
  | state (name : String)
  | addForwarder (name : String) (map : List (String × String))
  | has (name rid : String)
  | forward (name rid : String) (packet : Rtp.Packet)
  | startPump (name rid forwarder : String)
  | startScheduler (name rid : String) (period bitrate : Nat)
  | giveFeedback (rid : String) (bitrate : Nat)
deriving DecidableEq, Repr

/-- A command. -/
inductive Command where
  | reading (c : ReadCommand)
  | receiver (c : ReceiverCommand)
  | token (c : TokenCommand)
  | transport (c : TransportCommand)
  | outbound (c : OutboundCommand)
  | relay (c : RelayCommand)
  | advance (milliseconds : Nat)
  | unknown
deriving DecidableEq, Repr

end MediaRelay
