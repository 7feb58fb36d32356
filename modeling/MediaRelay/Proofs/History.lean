import MediaRelay.Hub.Quiet
import MediaRelay.Session.Step

/-!
# Histories of sessions

The history of a run of a session lists the changes of its hub in order, each with the command or the task that
brought it about (`Session.history`); that time passes is no change. An invariant is kept by every command, every move
and every passing of time (`Session.Invariant`), and so by every run with its history (`Invariant.after`); what each
change has that keeps it all changes of a run have (`Invariant.along`). After every run all tasks wait
(`step?_after`), so that commands and the passing of time need to keep it only when all tasks wait
(`Session.InvariantOf`).
-/

namespace MediaRelay

/-- What brings a change about. -/
inductive Cause where
  | command (c : Command) (reply : Reply)
  | move (t : Task)

/-- A change of a hub. -/
structure Change where
  cause : Cause
  before : Hub
  after : Hub

/-- The datagrams that a change takes from a stream. -/
def Change.taken (x : Change) (ch : Channel) (ssrc : Ssrc) : List Datagram :=
  ((x.after.transport.stream ch ssrc).accepted.take (x.after.transport.stream ch ssrc).taken).drop
    (x.before.transport.stream ch ssrc).taken

/-- The packets that a change leaves at a writer. -/
def Change.wrote (x : Change) (name : String) : List Rtp.Packet :=
  (x.after.egress.writer name).written.drop (x.before.egress.writer name).written.length

/-! ## Moves -/

namespace Hub

/-- The first task that can go on, and the hub after its move. -/
def mover? (h : Hub) : Option (Task × Hub) :=
  h.tasks.findSome? fun t => (h.move? t).map (t, ·)

theorem step?_eq_mover? (h : Hub) : h.step? = h.mover?.map Prod.snd := by
  unfold step? mover?
  induction h.tasks with
  | nil => rfl
  | cons t ts ih =>
    rw [List.findSome?_cons, List.findSome?_cons]
    cases h.move? t with
    | none => exact ih
    | some g => rfl

/-- A task that goes on is one of the tasks and makes a move. -/
theorem of_mover? {h g : Hub} {t : Task} (hm : h.mover? = some (t, g)) : t ∈ h.tasks ∧ h.move? t = some g := by
  obtain ⟨u, hu, hg⟩ := List.exists_of_findSome?_eq_some hm
  cases hv : h.move? u with
  | none => rw [hv] at hg; cases hg
  | some g' => rw [hv] at hg; cases hg; exact ⟨hu, hv⟩

/-- The changes that `run` makes. -/
def runChanges : Nat → Hub → List Change
  | 0, _ => []
  | n + 1, h =>
    match h.mover? with
    | none => []
    | some (t, g) => ⟨.move t, h, g⟩ :: runChanges n g

/-- The changes that `settle` makes. -/
def settleChanges (h : Hub) : List Change :=
  runChanges h.weight h

/-- What is kept by moves, together with the changes so far, is kept by a number of moves. -/
theorem run_keeps {P : Hub → List Change → Prop}
    (move : ∀ h past t g, P h past → h.mover? = some (t, g) → P g (past ++ [⟨.move t, h, g⟩])) (n : Nat) {h : Hub}
    {past : List Change} (hp : P h past) : P (run n h) (past ++ runChanges n h) := by
  induction n generalizing h past with
  | zero => simpa [run, runChanges] using hp
  | succ n ih =>
    unfold run runChanges
    rw [step?_eq_mover?]
    cases hm : h.mover? with
    | none => simpa using hp
    | some m =>
      obtain ⟨t, g⟩ := m
      have := ih (move h past t g hp hm)
      simpa using this

/-- What is kept by moves, together with the changes so far, is kept when the hub settles. -/
theorem settle_keeps {P : Hub → List Change → Prop}
    (move : ∀ h past t g, P h past → h.mover? = some (t, g) → P g (past ++ [⟨.move t, h, g⟩])) {h : Hub}
    (hp : P h []) : P h.settle h.settleChanges :=
  run_keeps move h.weight hp

/-- The changes that `pass` makes. -/
def passChanges : Nat → Nat → Hub → List Change
  | 0, _, _ => []
  | n + 1, target, h =>
    match h.nextDeadline? with
    | none => []
    | some time =>
      if time ≤ target then
        settleChanges { h with clock := time } ++ passChanges n target (settle { h with clock := time })
      else []

/-- What is kept by moves and by the clock, together with the changes so far, is kept when time passes. -/
theorem pass_keeps {P : Hub → List Change → Prop}
    (move : ∀ h past t g, P h past → h.mover? = some (t, g) → P g (past ++ [⟨.move t, h, g⟩]))
    (clock : ∀ h past time, P h past → P { h with clock := time } past) (n target : Nat) {h : Hub} {past : List Change}
    (hp : P h past) : P (pass n target h) (past ++ passChanges n target h) := by
  induction n generalizing h past with
  | zero => simpa [pass, passChanges] using clock h past target hp
  | succ n ih =>
    unfold pass passChanges
    cases h.nextDeadline? with
    | none => simpa using clock h past target hp
    | some time =>
      dsimp only
      split
      · have := ih (run_keeps move (Hub.weight { h with clock := time }) (clock h past time hp))
        simpa [settle, settleChanges] using this
      · simpa using clock h past target hp

/-- The changes that `advance` makes. -/
def advanceChanges (h : Hub) (nanoseconds : Nat) : List Change :=
  passChanges nanoseconds (h.clock + nanoseconds) h

end Hub

/-! ## Runs -/

namespace Session

/-- The session after some commands. -/
def after (s : Session) (cs : List Command) : Session :=
  (s.steps cs).1

/-- The changes that a command makes before all tasks run. -/
def performChanges (s : Session) : Command → List Change
  | .advance milliseconds => s.hub.advanceChanges (nanosecondsPerMillisecond * milliseconds)
  | c => [⟨.command c (s.perform c).2, s.hub, (s.perform c).1.hub⟩]

/-- The changes of one step. -/
def changes (s : Session) (c : Command) : List Change :=
  s.performChanges c ++ (s.perform c).1.hub.settleChanges

/-- The changes of a run. -/
def history (s : Session) : List Command → List Change
  | [] => []
  | c :: cs => s.changes c ++ history (s.step c).1 cs

theorem performChanges_of_ne {c : Command} (hc : ∀ n, c ≠ .advance n) (s : Session) :
    s.performChanges c = [⟨.command c (s.perform c).2, s.hub, (s.perform c).1.hub⟩] := by
  cases c with
  | advance n => exact absurd rfl (hc n)
  | _ => rfl

@[simp] theorem after_nil (s : Session) : s.after [] = s := rfl

@[simp] theorem after_cons (s : Session) (c : Command) (cs : List Command) :
    s.after (c :: cs) = (s.step c).1.after cs := rfl

theorem after_append (s : Session) (cs ds : List Command) : s.after (cs ++ ds) = (s.after cs).after ds := by
  induction cs generalizing s with
  | nil => rfl
  | cons c cs ih => exact ih (s.step c).1

theorem history_append (s : Session) (cs ds : List Command) :
    s.history (cs ++ ds) = s.history cs ++ (s.after cs).history ds := by
  induction cs generalizing s with
  | nil => rfl
  | cons c cs ih => simp only [List.cons_append, history, ih, after_cons, List.append_assoc]

theorem step_fst (s : Session) (c : Command) :
    (s.step c).1 = ((s.perform c).1.setHub (s.perform c).1.hub.settle).markShown := rfl

/-- After every run from a settled session no task can go on. -/
theorem step?_after {s : Session} (hs : s.hub.step? = none) (cs : List Command) : (s.after cs).hub.step? = none := by
  induction cs generalizing s with
  | nil => exact hs
  | cons c cs ih => exact ih (Hub.step?_settle _)

/-! ## What holds of every change -/

/-- Every change of the later part of a run, together with all that came before it, has a property. -/
def Along (P : List Change → Change → Prop) (earlier later : List Change) : Prop :=
  ∀ done x rest, later = done ++ x :: rest → P (earlier ++ done) x

theorem along_nil (P : List Change → Change → Prop) (earlier : List Change) : Along P earlier [] := by
  intro done x rest h
  simp at h

theorem Along.snoc {P : List Change → Change → Prop} {earlier later : List Change} {x : Change}
    (h : Along P earlier later) (hx : P (earlier ++ later) x) : Along P earlier (later ++ [x]) := by
  intro done y rest he
  rcases List.eq_nil_or_concat rest with rfl | ⟨rest, z, rfl⟩
  · obtain ⟨rfl, hxy⟩ := List.append_inj' he rfl
    cases hxy
    exact hx
  · rw [List.concat_eq_append, ← List.cons_append, ← List.append_assoc] at he
    obtain ⟨rfl, -⟩ := List.append_inj' he rfl
    exact h done y rest rfl

theorem Along.of_mem {P : List Change → Change → Prop} {earlier later : List Change} (h : Along P earlier later)
    {x : Change} (hx : x ∈ later) : ∃ done, P (earlier ++ done) x := by
  obtain ⟨done, rest, he⟩ := List.append_of_mem hx
  exact ⟨done, h done x rest he⟩

/-! ## Induction on runs -/

/-- What a session does keeps what is said of it and its past: a move, the passing of time, any other command, and
that its changes are shown. Time passes, and commands are carried out, only in hubs of some kind, such as every hub
that has settled is. -/
structure InvariantOf (Q : Hub → Prop) (I : Session → List Change → Prop) : Prop where
  settled : ∀ h : Hub, Q h.settle
  move : ∀ s past t h, I s past → s.hub.mover? = some (t, h) → I (s.setHub h) (past ++ [⟨.move t, s.hub, h⟩])
  clock : ∀ s past time, I s past → Q s.hub → I (s.setHub { s.hub with clock := time }) past
  command : ∀ s past c, I s past → Q s.hub → (∀ n, c ≠ .advance n) →
    I (s.perform c).1 (past ++ [⟨.command c (s.perform c).2, s.hub, (s.perform c).1.hub⟩])
  shown : ∀ s past, I s past → I s.markShown past

namespace InvariantOf

variable {Q : Hub → Prop} {I : Session → List Change → Prop} (inv : InvariantOf Q I)

include inv

theorem run (n : Nat) {s : Session} {past : List Change} (hi : I s past) :
    I (s.setHub (Hub.run n s.hub)) (past ++ Hub.runChanges n s.hub) :=
  Hub.run_keeps (P := fun h past => I (s.setHub h) past) (fun h past t g => inv.move (s.setHub h) past t g) n hi

theorem pass (n target : Nat) {s : Session} {past : List Change} (hq : Q s.hub) (hi : I s past) :
    I (s.setHub (Hub.pass n target s.hub)) (past ++ Hub.passChanges n target s.hub) := by
  induction n generalizing s past with
  | zero => simpa [Hub.pass, Hub.passChanges] using inv.clock s past target hi hq
  | succ n ih =>
    unfold Hub.pass Hub.passChanges
    cases s.hub.nextDeadline? with
    | none => simpa using inv.clock s past target hi hq
    | some time =>
      dsimp only
      split
      · have hr := inv.run ({ s.hub with clock := time } : Hub).weight (inv.clock s past time hi hq)
        have := ih (inv.settled _) hr
        simpa [setHub, Hub.settle, Hub.settleChanges] using this
      · simpa using inv.clock s past target hi hq

/-- An invariant is kept by a step. -/
theorem step (c : Command) {s : Session} {past : List Change} (hq : Q s.hub) (hi : I s past) :
    I (s.step c).1 (past ++ s.changes c) := by
  have hp : I (s.perform c).1 (past ++ s.performChanges c) := by
    cases c with
    | advance n => exact inv.pass _ _ hq hi
    | _ => exact inv.command s past _ hi hq (by intro _ h; cases h)
  rw [step_fst, changes, ← List.append_assoc]
  exact inv.shown _ _ (inv.run _ hp)

/-- An invariant is kept by a run. -/
theorem after (cs : List Command) {s : Session} {past : List Change} (hq : Q s.hub) (hi : I s past) :
    I (s.after cs) (past ++ s.history cs) := by
  induction cs generalizing s past with
  | nil => simpa [history] using hi
  | cons c cs ih =>
    rw [after_cons, history, ← List.append_assoc]
    exact ih (inv.settled _) (inv.step c hq hi)

/-- What every change has that keeps an invariant, all changes of a run have. -/
theorem along {P : List Change → Change → Prop}
    (move : ∀ s past t h, I s past → s.hub.mover? = some (t, h) → P past ⟨.move t, s.hub, h⟩)
    (command : ∀ s past c, I s past → Q s.hub → (∀ n, c ≠ .advance n) →
      P past ⟨.command c (s.perform c).2, s.hub, (s.perform c).1.hub⟩)
    (cs : List Command) {s : Session} {earlier : List Change} (hq : Q s.hub) (hi : I s earlier) :
    Along P earlier (s.history cs) := by
  let J : Session → List Change → Prop := fun t past =>
    I t past ∧ ∃ later, past = earlier ++ later ∧ Along P earlier later
  have hj : InvariantOf Q J := by
    refine ⟨inv.settled, ?_, fun s past time h hq => ⟨inv.clock s past time h.1 hq, h.2⟩, ?_,
      fun s past h => ⟨inv.shown s past h.1, h.2⟩⟩
    · rintro s past t h ⟨hi, later, rfl, hl⟩ hm
      exact ⟨inv.move s _ t h hi hm, later ++ [_], List.append_assoc _ _ _, hl.snoc (move s _ t h hi hm)⟩
    · rintro s past c ⟨hi, later, rfl, hl⟩ hq hc
      exact ⟨inv.command s _ c hi hq hc, later ++ [_], List.append_assoc _ _ _, hl.snoc (command s _ c hi hq hc)⟩
  obtain ⟨-, later, he, hl⟩ := hj.after cs hq ⟨hi, [], (List.append_nil _).symm, along_nil P earlier⟩
  rw [List.append_cancel_left he]
  exact hl

end InvariantOf

/-- Whatever a session does keeps what is said of it and its past: a move, the passing of time, any other command, and
that its changes are shown. -/
structure Invariant (I : Session → List Change → Prop) : Prop where
  move : ∀ s past t h, I s past → s.hub.mover? = some (t, h) → I (s.setHub h) (past ++ [⟨.move t, s.hub, h⟩])
  clock : ∀ s past time, I s past → I (s.setHub { s.hub with clock := time }) past
  command : ∀ s past c, I s past → (∀ n, c ≠ .advance n) →
    I (s.perform c).1 (past ++ [⟨.command c (s.perform c).2, s.hub, (s.perform c).1.hub⟩])
  shown : ∀ s past, I s past → I s.markShown past

namespace Invariant

variable {I : Session → List Change → Prop} (inv : Invariant I)

include inv

/-- What everything keeps is kept in hubs of any kind. -/
theorem of {Q : Hub → Prop} (hq : ∀ h : Hub, Q h.settle) : InvariantOf Q I :=
  ⟨hq, inv.move, fun s past time hi _ => inv.clock s past time hi, fun s past c hi _ => inv.command s past c hi,
    inv.shown⟩

theorem anywhere : InvariantOf (fun _ => True) I :=
  inv.of fun _ => trivial

/-- Two invariants together are one. -/
theorem and {J : Session → List Change → Prop} (inv' : Invariant J) : Invariant fun s past => I s past ∧ J s past where
  move s past t h hi hm := ⟨inv.move s past t h hi.1 hm, inv'.move s past t h hi.2 hm⟩
  clock s past time hi := ⟨inv.clock s past time hi.1, inv'.clock s past time hi.2⟩
  command s past c hi hc := ⟨inv.command s past c hi.1 hc, inv'.command s past c hi.2 hc⟩
  shown s past hi := ⟨inv.shown s past hi.1, inv'.shown s past hi.2⟩

/-- An invariant is kept by a step. -/
theorem step (c : Command) {s : Session} {past : List Change} (hi : I s past) :
    I (s.step c).1 (past ++ s.changes c) :=
  inv.anywhere.step c trivial hi

/-- An invariant is kept by a run. -/
theorem after (cs : List Command) {s : Session} {past : List Change} (hi : I s past) :
    I (s.after cs) (past ++ s.history cs) :=
  inv.anywhere.after cs trivial hi

/-- What every change has that keeps an invariant, all changes of a run have. -/
theorem along {P : List Change → Change → Prop}
    (move : ∀ s past t h, I s past → s.hub.mover? = some (t, h) → P past ⟨.move t, s.hub, h⟩)
    (command : ∀ s past c, I s past → (∀ n, c ≠ .advance n) →
      P past ⟨.command c (s.perform c).2, s.hub, (s.perform c).1.hub⟩)
    (cs : List Command) {s : Session} {earlier : List Change} (hi : I s earlier) :
    Along P earlier (s.history cs) :=
  inv.anywhere.along move (fun s past c hi _ => command s past c hi) cs trivial hi

end Invariant

end Session

end MediaRelay
