import MediaRelay.Session.Perform

/-!
# Steps of a session

A step carries out a command, runs all tasks until they wait, and reports: the reply, what is seen of the receiver
afterwards, and what was written, recorded and published since the step before.

So a session settles after every command, and what is said of runs is said of runs that settle: no command comes while
a task can still move. No handler is registered after `receive` has started the task that announces the tracks and
before that task moves, and nothing is closed or stopped after a relay has started its readers and before they move.
What the tasks do when two calls come between two moves of theirs lies outside these runs.
-/

namespace MediaRelay

/-- What is seen of a receiver that the application holds. -/
structure Status where
  phase : Phase
  received : Bool
  closing : Bool
deriving DecidableEq, Repr

/-- What a step shows. -/
structure Report where
  reply : Reply
  status : Option Status
  layers : List (String × Ssrc × Bool)
  openedMedia : List Ssrc
  openedControl : List Ssrc
  media : List (String × List Rtp.Packet)
  feedback : List (List Rtcp.Packet)
  failures : List (String × Failure)
  events : List Event

namespace Session

/-! ## What is new -/

/-- A list in the order of a key; what has the same key keeps its order. -/
def sortedBy {α : Type} (key : α → Nat) (as : List α) : List α :=
  as.mergeSort fun a b => key a ≤ key b

/-- The packets written since an earlier state, by writer, in the order of their SSRCs. -/
def newMedia (before after : Egress) : List (String × List Rtp.Packet) :=
  (after.writers.entries.map fun (name, w) =>
    (name, sortedBy (fun p => p.ssrc.toNat) (w.written.drop (before.writer name).written.length))).filter
    fun e => ¬ e.2.isEmpty

/-- The source that a batch of control packets is addressed to. -/
def batchKey (batch : List Rtcp.Packet) : Nat :=
  match batch.flatMap Rtcp.Packet.destinations with
  | [] => 0
  | s :: _ => s.toNat

/-- The batches of feedback written since an earlier state, in the order of their destinations. -/
def newFeedback (before after : ControlWriter) : List (List Rtcp.Packet) :=
  sortedBy batchKey (after.written.drop before.written.length)

/-- The failures of a channel that were not shown yet. -/
def unshown (s : Session) (c : FailureChannel) : List Failure :=
  match s.hub.relays[c.relay]? with
  | some r => r.failures.drop c.shown
  | none => []

/-- Whether a failure comes before another: by the name of the relay, then by RID. -/
def failureOrder (a b : String × Failure) : Bool :=
  a.1 < b.1 || (a.1 = b.1 && (a.2.rid < b.2.rid || a.2.rid = b.2.rid))

/-- The failures that were not shown yet, in order. -/
def newFailures (s : Session) : List (String × Failure) :=
  (s.channels.entries.flatMap fun (name, c) => (s.unshown c).map (name, ·)).mergeSort failureOrder

/-- Notes that all failures were shown. -/
def markShown (s : Session) : Session :=
  { s with channels := s.channels.map fun c => { c with shown := c.shown + (s.unshown c).length } }

/-! ## Steps -/

/-- What is seen of the receiver. -/
def status (s : Session) : Option Status :=
  if s.hub.held then
    some ⟨s.hub.receiver.phase, s.hub.receiver.received, s.hub.receiver.closing⟩
  else none

/-- Carries out a command and runs all tasks until they wait. -/
def act (s : Session) (c : Command) : Session × Reply :=
  let (s, reply) := s.perform c
  (s.setHub s.hub.settle, reply)

/-- What a step shows that began in one state, ended in another and gave a reply. -/
def report (before after : Session) (reply : Reply) : Report where
  reply := reply
  status := after.status
  layers := after.hub.receiver.layers.map fun l => (l.rid, l.ssrc, l.isReady)
  openedMedia := after.hub.transport.media.opened
  openedControl := after.hub.transport.control.opened
  media := newMedia before.hub.egress after.hub.egress
  feedback := newFeedback before.hub.feedback after.hub.feedback
  failures := after.newFailures
  events := after.hub.events.drop before.hub.events.length

/-- One step. -/
def step (s : Session) (c : Command) : Session × Report :=
  let (after, reply) := s.act c
  (after.markShown, report s after reply)

/-- Steps one after the other. -/
def steps (s : Session) (cs : List Command) : Session × List Report :=
  match cs with
  | [] => (s, [])
  | c :: cs =>
    let (s, r) := s.step c
    let (s, rs) := s.steps cs
    (s, r :: rs)

end Session

end MediaRelay
