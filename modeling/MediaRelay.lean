import MediaRelay.Bytes
import MediaRelay.Description
import MediaRelay.Encoding
import MediaRelay.Error
import MediaRelay.Feedback
import MediaRelay.Forwarder
import MediaRelay.Hub.Basic
import MediaRelay.Hub.Quiet
import MediaRelay.Hub.Settle
import MediaRelay.Hub.Task
import MediaRelay.Json.Compact
import MediaRelay.Json.Number
import MediaRelay.Json.Reader
import MediaRelay.Json.Record
import MediaRelay.Json.Skip
import MediaRelay.Json.Text
import MediaRelay.Kind
import MediaRelay.Numeric.Rounding
import MediaRelay.Outbound
import MediaRelay.Phase
import MediaRelay.Proofs.Addressing
import MediaRelay.Proofs.Aftermath
import MediaRelay.Proofs.Agreement
import MediaRelay.Proofs.Alike
import MediaRelay.Proofs.Announcing
import MediaRelay.Proofs.Beats
import MediaRelay.Proofs.Binding
import MediaRelay.Proofs.Closings
import MediaRelay.Proofs.Configuration
import MediaRelay.Proofs.Conservation
import MediaRelay.Proofs.Crowding
import MediaRelay.Proofs.Deeds
import MediaRelay.Proofs.Delivery
import MediaRelay.Proofs.Dependents
import MediaRelay.Proofs.Draining
import MediaRelay.Proofs.Dropping
import MediaRelay.Proofs.EncodingsJson
import MediaRelay.Proofs.Ending
import MediaRelay.Proofs.Failing
import MediaRelay.Proofs.Fate
import MediaRelay.Proofs.Forwarding
import MediaRelay.Proofs.Gating
import MediaRelay.Proofs.Hearing
import MediaRelay.Proofs.History
import MediaRelay.Proofs.Holding
import MediaRelay.Proofs.Isolation
import MediaRelay.Proofs.Kinship
import MediaRelay.Proofs.Lasting
import MediaRelay.Proofs.Launching
import MediaRelay.Proofs.Lineage
import MediaRelay.Proofs.Listening
import MediaRelay.Proofs.Lockstep
import MediaRelay.Proofs.Matching
import MediaRelay.Proofs.Moves
import MediaRelay.Proofs.Names
import MediaRelay.Proofs.Numerals
import MediaRelay.Proofs.Origins
import MediaRelay.Proofs.Ownership
import MediaRelay.Proofs.Packing
import MediaRelay.Proofs.Pairing
import MediaRelay.Proofs.Parallel
import MediaRelay.Proofs.Pumps
import MediaRelay.Proofs.Queueing
import MediaRelay.Proofs.Readers
import MediaRelay.Proofs.Receiving
import MediaRelay.Proofs.Reception
import MediaRelay.Proofs.Records
import MediaRelay.Proofs.Replay
import MediaRelay.Proofs.Reporting
import MediaRelay.Proofs.Rollback
import MediaRelay.Proofs.Rollcall
import MediaRelay.Proofs.Rounds
import MediaRelay.Proofs.Routes
import MediaRelay.Proofs.Schedule
import MediaRelay.Proofs.SettingsJson
import MediaRelay.Proofs.Sides
import MediaRelay.Proofs.Skipping
import MediaRelay.Proofs.Sorting
import MediaRelay.Proofs.Spelling
import MediaRelay.Proofs.Stopping
import MediaRelay.Proofs.Streams
import MediaRelay.Proofs.Teardown
import MediaRelay.Proofs.Time
import MediaRelay.Proofs.Tokens
import MediaRelay.Proofs.Transparency
import MediaRelay.Proofs.Twins
import MediaRelay.Proofs.Undoing
import MediaRelay.Proofs.Unheard
import MediaRelay.Proofs.Unshared
import MediaRelay.Proofs.Values
import MediaRelay.Proofs.Views
import MediaRelay.Reading
import MediaRelay.Receiver
import MediaRelay.Rtcp.Packet
import MediaRelay.Rtcp.Wire
import MediaRelay.Rtp.Packet
import MediaRelay.Rtp.Wire
import MediaRelay.Secure.Inbox
import MediaRelay.Secure.Index
import MediaRelay.Secure.Link
import MediaRelay.Secure.Session
import MediaRelay.Secure.Window
import MediaRelay.Session.Basic
import MediaRelay.Session.Command
import MediaRelay.Session.Perform
import MediaRelay.Session.Reply
import MediaRelay.Session.Step
import MediaRelay.Settings
import MediaRelay.Table
import MediaRelay.Text.Quoted
import MediaRelay.Text.Unshown
import MediaRelay.Token
import MediaRelay.Transport
import MediaRelay.Transport.Queue
