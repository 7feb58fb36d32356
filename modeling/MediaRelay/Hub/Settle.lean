import MediaRelay.Hub.Basic

/-!
# Running tasks

A task that can go on makes one move at a time (`Hub.move?`); `Hub.settle` makes moves, always of the first task
that can go on, until every task waits. Each move lowers `Hub.weight`, so as many moves as that are enough.
`Hub.advance` lets time pass: it goes from one deadline to the next and settles at each.
-/

namespace MediaRelay

namespace Hub

/-! ## Moves -/

/-- Lets a task wait at a gate, unless it waits there already. -/
def park? (h : Hub) (t : Task) (g : Gate) : Option Hub :=
  if (Stage.waiting g).rank < t.stage.rank then some (h.park t g) else none

/-- Goes on with a read; `finish` says what to do with its result. -/
def goOn? (h : Hub) (t : Task) (q : Read) (finish : Hub → Except Error Data → Hub) : Option Hub :=
  match h.read q with
  | (h, .done result) => some (finish h result)
  | (_, .awaitsTrack) => h.park? t .track
  | (_, .awaitsLayer) => h.park? t .layer
  | (_, .awaitsDatagram) => h.park? t .datagram

/-- What a pump does with a packet it has read. -/
def pumped (t : Task) (p : Pump) (h : Hub) : Except Error Data → Hub
  | .ok (.media packet) =>
    match p.forwarder.forward h.egress p.rid packet with
    | (egress, .ok ()) => { h with egress }.resume t t.job
    | (egress, .error cause) => { h with egress }.failPump t p cause
  | .ok _ => h.failPump t p .closedPipe
  | .error cause => h.failPump t p cause

/-- What a recorder does with the packet it has read. -/
def greeted (t : Task) (name : String) (h : Hub) : Except Error Data → Hub
  | .ok (.media packet) => { h.dismiss t with events := h.events ++ [Event.sequence name packet.sequence] }
  | .ok _ => h.dismiss t
  | .error cause => { h.dismiss t with events := h.events ++ [Event.failed name cause] }

/-- A move of a pump. -/
def movePump? (h : Hub) (t : Task) (p : Pump) : Option Hub :=
  if ¬ p.forwarder.has p.rid then some (h.failPump t p (.noOutboundTrack p.rid))
  else if h.isCancelled p.token then some (h.retire t (.pump p.rid (.ok ())))
  else h.goOn? t ⟨.media p.rid, .decoded⟩ (pumped t p)

/-- A move of a scheduler: it waits for its first round one period long, and after each round again. -/
def moveScheduler? (h : Hub) (t : Task) (s : Scheduler) : Option Hub :=
  if h.isCancelled s.token ∨ s.period = 0 then some (h.retire t .feedback)
  else
    match t.stage with
    | .waiting (.deadline time) =>
      if time ≤ h.clock then
        some ({ h with feedback := h.feedback.writeRound (h.ssrcOf s.rid) s.bitrate }.park t
          (.deadline (h.clock + s.period)))
      else none
    | .waiting _ => none
    | .ready => some (h.park t (.deadline (h.clock + s.period)))

/-- Tells the handler about a new track. -/
def announce (h : Hub) (t : Task) (rids : List String) : Hub :=
  match h.handler with
  | none => h.dismiss t
  | some (.relay index) => ((h.dismiss t).startRelay index rids).1
  | some (.recorder name reads) =>
    let h := { h with events := h.events ++ [Event.call name 1 rids.length] }
    match reads, rids with
    | true, rid :: _ => h.resume t (.greet name rid)
    | _, _ => h.dismiss t

/-- A move of a task, if it can go on. -/
def move? (h : Hub) (t : Task) : Option Hub :=
  match t.job with
  | .read q => h.goOn? t q fun h result => h.retire t (.read result)
  | .pump p => h.movePump? t p
  | .feedback s => h.moveScheduler? t s
  | .announce rids => some (h.announce t rids)
  | .greet name rid => h.goOn? t ⟨.media rid, .decoded⟩ (greeted t name)

/-- A move of the first task that can go on. -/
def step? (h : Hub) : Option Hub :=
  h.tasks.findSome? h.move?

/-! ## Settling -/

/-- The weight of a stage: its rank, and one more for a deadline that is due. -/
def stageWeight (clock : Nat) : Stage → Nat
  | .waiting (.deadline time) => if time ≤ clock then 2 else 1
  | s => s.rank

/-- How many moves a task can make before it has to wait, the datagrams that it reads not counted. -/
def taskWeight (clock : Nat) (t : Task) : Nat :=
  match t.job with
  | .announce rids => 5 + 8 * rids.length
  | _ => stageWeight clock t.stage

/-- The weight of a list of tasks. -/
def tasksWeight (clock : Nat) (ts : List Task) : Nat :=
  ts.foldr (fun t n => taskWeight clock t + n) 0

/-- A bound on the number of moves until every task waits. -/
def weight (h : Hub) : Nat :=
  5 * h.transport.backlog + tasksWeight h.clock h.tasks

/-- Makes a number of moves, or fewer if no task can go on. -/
def run : Nat → Hub → Hub
  | 0, h => h
  | n + 1, h =>
    match h.step? with
    | none => h
    | some h => run n h

/-- Runs all tasks until each of them waits. -/
def settle (h : Hub) : Hub :=
  run h.weight h

/-! ## Time -/

/-- The deadline of a task that waits for one. -/
def deadline? (t : Task) : Option Nat :=
  match t.stage with
  | .waiting (.deadline time) => some time
  | _ => none

/-- The earliest deadline. -/
def nextDeadline? (h : Hub) : Option Nat :=
  (h.tasks.filterMap deadline?).min?

/-- Goes from deadline to deadline up to a time, at most as often as the first number says. -/
def pass : Nat → Nat → Hub → Hub
  | 0, target, h => { h with clock := target }
  | n + 1, target, h =>
    match h.nextDeadline? with
    | none => { h with clock := target }
    | some time =>
      if time ≤ target then pass n target (settle { h with clock := time }) else { h with clock := target }

/-- Lets time pass. -/
def advance (h : Hub) (nanoseconds : Nat) : Hub :=
  pass nanoseconds (h.clock + nanoseconds) h

end Hub

end MediaRelay
