import MediaRelay.Feedback
import MediaRelay.Forwarder
import MediaRelay.Reading
import MediaRelay.Token

/-!
# Tasks, relays and handlers

What runs beside the calls of an application: reads that were left running, pumps that read the packets of one
layer and forward them, schedulers of feedback, and the handler that is told of a new track. A `Task` is a job and
its stage: ready to run, or waiting at a gate. Gates are ranked, and a job that goes on without having finished
anything waits at a gate of lower rank than before.
-/

namespace MediaRelay

/-! ## Stages -/

/-- What a waiting task waits for. -/
inductive Gate where
  | track
  | layer
  | datagram
  | deadline (time : Nat)
deriving DecidableEq, Repr

/-- Whether a task may run or waits. -/
inductive Stage where
  | ready
  | waiting (gate : Gate)
deriving DecidableEq, Repr

/-- How far a stage is from being done: the gates of a read come in this order. -/
def Stage.rank : Stage → Nat
  | .ready => 4
  | .waiting .track => 3
  | .waiting .layer => 2
  | .waiting _ => 1

/-! ## Jobs -/

/-- A loop that reads the packets of one layer and forwards them. A pump of a relay has that relay's number. -/
structure Pump where
  rid : String
  forwarder : Forwarder
  token : Token
  relay : Option Nat

/-- A loop that gives feedback for one layer, once per period (in nanoseconds). -/
structure Scheduler where
  rid : String
  period : Nat
  bitrate : Nat
  token : Token

/-- What a task does. -/
inductive Job where
  /-- Reads once. -/
  | read (query : Read)
  | pump (p : Pump)
  | feedback (s : Scheduler)
  /-- Tells the handler of the receiver about the layers of its new track. -/
  | announce (rids : List String)
  /-- Reads a packet of a layer for the recorder of a name. -/
  | greet (name rid : String)

/-- Whether a job reads from the receiver, and so holds on to it while it waits. -/
def Job.isReading : Job → Bool
  | .read _ | .pump _ | .greet _ _ => true
  | _ => false

/-- A task. -/
structure Task where
  id : Nat
  job : Job
  stage : Stage := .ready

/-- Whether a task holds on to the receiver. -/
def Task.holdsReceiver (t : Task) : Bool :=
  t.job.isReading && t.stage ≠ .ready

/-- How a task ended that somebody may ask about. -/
inductive Ending where
  | read (result : Except Error Data)
  | pump (rid : String) (result : Except Error Unit)
  | feedback

/-! ## Relays and handlers -/

/-- A layer whose pump gave up. -/
structure Failure where
  rid : String
  ssrc : Ssrc
  cause : Error
deriving DecidableEq, Repr

/-- A relay of one track: its forwarder, the token of all its tasks, and the failures it has published. -/
structure Relay where
  forwarder : Forwarder
  token : Token
  started : Bool := false
  failures : List Failure := []

/-- What is told of a new track: a relay, by its number, or a recorder that may also read one packet. -/
inductive Handler where
  | relay (index : Nat)
  | recorder (name : String) (reads : Bool)
deriving DecidableEq, Repr

/-- What a recorder has recorded. -/
inductive Event where
  | call (name : String) (count layers : Nat)
  | sequence (name : String) (number : UInt16)
  | failed (name : String) (cause : Error)
deriving DecidableEq, Repr

end MediaRelay
