import MediaRelay.Proofs.Announcing
import MediaRelay.Proofs.Schedule

/-!
# Calls that start a relay

A relay is called to start by the application, or because it is the handler that is told of a track.

- `StartCall.outcome`: a call fails if the relay was started before, and else if it is cancelled; otherwise it starts a
  reader for each layer and, if feedback is on, a scheduler for each layer;
- `Session.relayLog`: what a run decides over relays, in order, and `StartCall.Decided`: what comes of a call after
  that;
- `Hub.Move.rolls`, `Session.rolls_perform`: what is called counts as started, and nothing else does.
-/

namespace MediaRelay

/-! ## The tasks of a relay that starts -/

namespace Task

/-- Whether a task is a pump. -/
def isPump (t : Task) : Bool :=
  match t.job with
  | .pump _ => true
  | _ => false

/-- Whether a task reads a layer under a token that was made from another one. -/
def readsFor (t : Task) (k : Token) (rid : String) : Bool :=
  t.isPump && t.serves k rid

/-- Whether a task gives feedback for a layer under a token that was made from another one. -/
def schedulesFor (t : Task) (k : Token) (rid : String) : Bool :=
  !t.isPump && t.serves k rid

end Task

namespace Hub

variable {h g : Hub} {t : Task}

/-- The tasks that a relay starts for a layer. -/
def layerTasks (h : Hub) (index : Nat) (r : Relay) (rid : String) : List Task :=
  let token : Token := ⟨h.tokens.next :: r.token.ids, r.token.ofReceiver⟩
  let pump : Job := .pump ⟨rid, r.forwarder, token, some index⟩
  if h.settings.feedback then
    [{ id := h.nextTask, job := .feedback (h.settings.scheduler rid token) }, { id := h.nextTask + 1, job := pump }]
  else [{ id := h.nextTask, job := pump }]

/-- The tasks that a relay starts for some layers. -/
def crew (h : Hub) (index : Nat) (r : Relay) : List String → List Task
  | [] => []
  | rid :: rids => h.layerTasks index r rid ++ crew (h.startLayer index r rid) index r rids

theorem startLayer_eq (h : Hub) (index : Nat) (r : Relay) (rid : String) :
    h.startLayer index r rid
      = { h with tokens := { h.tokens with next := h.tokens.next + 1 }
                 tasks := h.tasks ++ h.layerTasks index r rid
                 nextTask := h.nextTask + (h.layerTasks index r rid).length } := by
  unfold startLayer layerTasks
  dsimp only
  split
  · simp [spawn, TokenPool.child, Settings.scheduler]
  · rfl

theorem startLayers_eq (h : Hub) (index : Nat) (r : Relay) (rids : List String) :
    rids.foldl (fun g rid => g.startLayer index r rid) h
      = { h with tokens := { h.tokens with next := h.tokens.next + rids.length }
                 tasks := h.tasks ++ h.crew index r rids
                 nextTask := h.nextTask + (h.crew index r rids).length } := by
  induction rids generalizing h with
  | nil => simp [crew]
  | cons rid rids ih =>
    rw [List.foldl_cons, ih, crew]
    generalize crew _ index r rids = new
    rw [startLayer_eq]
    simp only [List.append_assoc, List.length_append, List.length_cons, Nat.add_assoc, Nat.add_comm 1]

theorem countP_layerTasks (h : Hub) (index : Nat) (r : Relay) (rid rid' : String) :
    (h.layerTasks index r rid).countP (·.readsFor r.token rid') = (if rid = rid' then 1 else 0)
      ∧ (h.layerTasks index r rid).countP (·.schedulesFor r.token rid')
        = if h.settings.feedback ∧ rid = rid' then 1 else 0 := by
  unfold layerTasks
  cases h.settings.feedback <;> by_cases he : rid = rid' <;>
    simp [Task.readsFor, Task.schedulesFor, Task.isPump, Task.serves, Settings.scheduler, he]

theorem countP_crew (h : Hub) (index : Nat) (r : Relay) (rids : List String) (rid : String) :
    (h.crew index r rids).countP (·.readsFor r.token rid) = rids.count rid
      ∧ (h.crew index r rids).countP (·.schedulesFor r.token rid)
        = if h.settings.feedback then rids.count rid else 0 := by
  induction rids generalizing h with
  | nil => simp [crew]
  | cons rid' rids ih =>
    obtain ⟨hr, hs⟩ := ih (h.startLayer index r rid')
    obtain ⟨hr', hs'⟩ := h.countP_layerTasks index r rid' rid
    rw [(h.framed_startLayer index r rid').settings] at hs
    rw [crew, List.countP_append, List.countP_append, hr, hs, hr', hs', List.count_cons]
    cases h.settings.feedback <;> by_cases he : rid' = rid <;> simp [he, Nat.add_comm]

theorem mem_layerTasks {index : Nat} {r : Relay} {rid : String} {u : Task} (hu : u ∈ h.layerTasks index r rid) :
    u.stage = .ready ∧ u.serves r.token rid = true := by
  unfold layerTasks at hu
  dsimp only at hu
  split at hu
  · rcases List.mem_cons.mp hu with rfl | hu
    · simp [Task.serves, Settings.scheduler]
    · rw [List.mem_singleton.mp hu]
      simp [Task.serves]
  · rw [List.mem_singleton.mp hu]
    simp [Task.serves]

theorem mem_crew {index : Nat} {r : Relay} {rids : List String} {u : Task} (hu : u ∈ h.crew index r rids) :
    u.stage = .ready ∧ ∃ rid ∈ rids, u.serves r.token rid = true := by
  induction rids generalizing h with
  | nil => cases hu
  | cons rid rids ih =>
    rcases List.mem_append.mp hu with hu | hu
    · exact ⟨(mem_layerTasks hu).1, rid, List.mem_cons_self, (mem_layerTasks hu).2⟩
    · obtain ⟨hs, rid', hr, hus⟩ := ih hu
      exact ⟨hs, rid', List.mem_cons_of_mem _ hr, hus⟩

end Hub

/-! ## Calls that start a relay -/

/-- A call that is to start a relay, by its number, for the layers of a track. -/
structure StartCall where
  hub : Hub
  relay : Nat
  rids : List String

namespace StartCall

/-- The hub after the call. -/
def after (x : StartCall) : Hub :=
  (x.hub.startRelay x.relay x.rids).1

/-- What the call returns. -/
def result (x : StartCall) : Except Error Unit :=
  (x.hub.startRelay x.relay x.rids).2

/-- The hub where the relay counts as started, and nothing else is different. -/
def marked (x : StartCall) : Hub :=
  { x.hub with relays := x.hub.relays.modify x.relay fun r => { r with started := true } }

/-- A call starts a reader for each layer and, if feedback is on, a scheduler for each layer, behind all tasks that
there are, and does nothing else. -/
structure Starts (x : StartCall) (r : Relay) (new : List Task) : Prop where
  after : x.after = { x.marked with tokens := { x.hub.tokens with next := x.hub.tokens.next + x.rids.length }
                                    tasks := x.hub.tasks ++ new
                                    nextTask := x.hub.nextTask + new.length }
  readers : ∀ rid, new.countP (·.readsFor r.token rid) = x.rids.count rid
  schedulers : ∀ rid, new.countP (·.schedulesFor r.token rid) = if x.hub.settings.feedback then x.rids.count rid else 0
  only : ∀ u ∈ new, u.stage = .ready ∧ ∃ rid ∈ x.rids, u.serves r.token rid = true

/-- What comes of a call by whether the relay has been started and whether it is cancelled. -/
inductive Outcome (x : StartCall) (r : Relay) : Prop
  | again (hs : r.started = true) (hr : x.result = .error .relayAlreadyStarted) (ha : x.after = x.marked)
  | closed (hs : r.started = false) (hc : x.hub.isCancelled r.token = true) (hr : x.result = .error .closedPipe)
      (ha : x.after = x.marked)
  | started (hs : r.started = false) (hc : x.hub.isCancelled r.token = false) (hr : x.result = .ok ())
      {new : List Task} (hn : x.Starts r new)

theorem outcome (x : StartCall) {r : Relay} (hr : x.hub.relays[x.relay]? = some r) : x.Outcome r := by
  obtain ⟨h, j, rids⟩ := x
  dsimp only at hr
  have hc : (StartCall.marked ⟨h, j, rids⟩).isCancelled r.token = h.isCancelled r.token := rfl
  cases hs : r.started with
  | true =>
    have he : h.startRelay j rids = (h, .error .relayAlreadyStarted) := by
      simp only [Hub.startRelay, hr, hs, if_true]
    refine .again hs (congrArg Prod.snd he) ((congrArg Prod.fst he).trans ?_)
    -- the relay counts as started before
    have hm : h.relays.modify j (fun r => { r with started := true }) = h.relays := by
      refine List.ext_getElem? fun i => ?_
      rw [List.getElem?_modify]
      by_cases hi : j = i
      · subst hi
        obtain ⟨f, k, b, fs⟩ := r
        cases hs
        rw [hr]
        simp
      · simp [hi]
    rw [marked, hm]
  | false =>
    cases hcl : h.isCancelled r.token with
    | true =>
      have he : h.startRelay j rids = (marked ⟨h, j, rids⟩, .error .closedPipe) := by
        simp only [Hub.startRelay, hr, hs, Bool.false_eq_true, if_false]
        exact if_pos (hc.trans hcl)
      exact .closed hs hcl (congrArg Prod.snd he) (congrArg Prod.fst he)
    | false =>
      have he : h.startRelay j rids
          = (rids.foldl (fun g rid => g.startLayer j r rid) (marked ⟨h, j, rids⟩), .ok ()) := by
        simp only [Hub.startRelay, hr, hs, Bool.false_eq_true, if_false]
        exact if_neg (Bool.eq_false_iff.mp (hc.trans hcl))
      have hstarts : StartCall.Starts ⟨h, j, rids⟩ r ((marked ⟨h, j, rids⟩).crew j r rids) := by
        refine ⟨?_, ?_, ?_, ?_⟩
        · exact (congrArg Prod.fst he).trans (Hub.startLayers_eq _ j r rids)
        · exact fun rid => (Hub.countP_crew _ j r rids rid).1
        · exact fun rid => (Hub.countP_crew _ j r rids rid).2
        · exact fun u hu => Hub.mem_crew hu
      exact .started hs hcl (congrArg Prod.snd he) hstarts

end StartCall

/-! ## What is asked of relays in a run -/

/-- What decides over relays: one is to start, one is closed, or the receiver is told to stop. -/
inductive RelayEvent where
  | called (x : StartCall)
  | closed (relay : Nat)
  | stopped

namespace RelayEvent

/-- The relay that is called or closed. -/
def relay? : RelayEvent → Option Nat
  | .called x => some x.relay
  | .closed j => some j
  | .stopped => none

/-- Whether a relay is called. -/
def calls (j : Nat) : RelayEvent → Bool
  | .called x => x.relay = j
  | _ => false

/-- Whether a relay is closed, or its receiver is told to stop. -/
def closes (j : Nat) : RelayEvent → Bool
  | .closed i => i = j
  | .stopped => true
  | .called _ => false

variable {e : RelayEvent} {j : Nat} {log : List RelayEvent}

theorem relay?_of_calls (h : e.calls j = true) : e.relay? = some j := by
  cases e with
  | called x => exact congrArg some (of_decide_eq_true h)
  | _ => cases h

theorem any_closes_iff : log.any (closes j) = true ↔ .closed j ∈ log ∨ .stopped ∈ log := by
  rw [List.any_eq_true]
  constructor
  · rintro ⟨e, he, hc⟩
    cases e with
    | called x => cases hc
    | closed i =>
      obtain rfl : i = j := of_decide_eq_true hc
      exact .inl he
    | stopped => exact .inr he
  · rintro (he | he)
    · exact ⟨_, he, decide_eq_true rfl⟩
    · exact ⟨_, he, rfl⟩

/-- What is so for all calls so far and for the one that is made next, if any, is so for all. -/
theorem forall_called_concat {P : List RelayEvent → StartCall → Prop} {next : Option RelayEvent}
    (h : ∀ done x later, log = done ++ .called x :: later → P done x) (call : ∀ x, next = some (.called x) → P log x) :
    ∀ done x later, log ++ next.toList = done ++ .called x :: later → P done x := by
  cases next with
  | none =>
    rw [Option.toList_none, List.append_nil]
    exact h
  | some e =>
    intro done x later he
    rcases List.eq_nil_or_concat later with rfl | ⟨later, e', rfl⟩
    · obtain ⟨rfl, hx⟩ := List.append_inj' he rfl
      cases hx
      exact call x rfl
    · rw [List.concat_eq_append, ← List.cons_append, ← List.append_assoc] at he
      exact h done x later (List.append_inj' he rfl).1

end RelayEvent

/-- What comes of a call after some events. -/
structure StartCall.Decided (x : StartCall) (done : List RelayEvent) : Prop where
  /-- Only the first call of a relay succeeds, unless the relay was closed or its receiver was told to stop. -/
  result : x.result = if done.any (RelayEvent.calls x.relay) then .error .relayAlreadyStarted
    else if done.any (RelayEvent.closes x.relay) then .error .closedPipe else .ok ()
  /-- A call that fails changes nothing but that the relay counts as started. -/
  fails : x.result ≠ .ok () → x.after = x.marked
  /-- A call that succeeds starts the tasks of all layers. -/
  starts : x.result = .ok () → ∃ r new, x.hub.relays[x.relay]? = some r ∧ x.Starts r new

/-- The layers of a call are those of the track, no two of which have the same RID. -/
structure StartCall.OfTrack (x : StartCall) : Prop where
  layers : x.hub.receiver.layers.map Layer.rid = x.rids
  nodup : x.rids.Nodup

/-- The call of a relay that is the handler to be told of a track. -/
def Change.startCall? (x : Change) : Option StartCall :=
  match x.cause, x.announcement? with
  | .move t, some ⟨.relay index, rids⟩ => some ⟨x.before.dismiss t, index, rids⟩
  | _, _ => none

/-- A change in which a call is made: the application asks for it, or the relay is the handler that is told of a
track. -/
inductive Change.Makes : Change → StartCall → Prop
  | asked (x : StartCall) (name : String) :
    Makes ⟨.command (.relay (.start name)) (.ofResult x.result), x.hub, x.after⟩ x
  | told {h : Hub} {t : Task} {x : StartCall} (hx : x.hub = h.dismiss t) (hj : t.job = .announce x.rids)
      (hh : h.handler = some (.relay x.relay)) : Makes ⟨.move t, h, x.after⟩ x

namespace Session

/-- What a command decides over relays. -/
def relayEvent? (s : Session) : Command → Option RelayEvent
  | .relay (.start name) => (s.relay? name).bind fun (index, _) =>
    if s.hub.held ∧ s.hub.receiver.received then
      some (.called ⟨s.hub, index, s.hub.receiver.layers.map Layer.rid⟩)
    else none
  | .relay (.close name) => (s.relay? name).map fun (index, _) => .closed index
  | .receiver .stop => if s.hub.held then some .stopped else none
  | _ => none

/-- The calls of relays that are told of a track. -/
def relayCalls (past : List Change) : List RelayEvent :=
  past.filterMap fun x => x.startCall?.map .called

/-- What was decided over relays in a run, in order. -/
def relayLog (s : Session) : List Command → List RelayEvent
  | [] => []
  | c :: cs => (s.relayEvent? c).toList ++ relayCalls (s.changes c) ++ relayLog (s.step c).1 cs

end Session

/-! ## Relays before and after -/

namespace Hub

variable {h g : Hub} {t : Task} {e : Option RelayEvent} {x : StartCall}

/-- The relays of a hub are those of an earlier one, of which one is started if it is called, and new ones, which are
not. -/
structure Rolls (h g : Hub) (e : Option RelayEvent) : Prop where
  old : ∀ (j : Nat) (r : Relay), h.relays[j]? = some r → ∃ r', g.relays[j]? = some r' ∧ r'.token = r.token
    ∧ r'.started = (r.started || e.any (RelayEvent.calls j))
  fresh : ∀ (j : Nat) (r : Relay), h.relays[j]? = none → g.relays[j]? = some r → r.started = false

theorem Rolls.of_relays_eq (hr : g.relays = h.relays) : h.Rolls g none :=
  ⟨fun j r hj => ⟨r, hr ▸ hj, rfl, (Bool.or_false _).symm⟩, fun j r' hn hj => by rw [← hr, hj] at hn; cases hn⟩

theorem Rolls.of_none (hr : h.Rolls g none) (he : ∀ j, e.any (RelayEvent.calls j) = false) : h.Rolls g e := by
  refine ⟨fun j r hj => ?_, hr.fresh⟩
  rw [he]
  exact hr.old j r hj

theorem Rolls.of_modify {j : Nat} {f : Relay → Relay} (hg : g.relays = h.relays.modify j f)
    (hf : ∀ r, (f r).token = r.token ∧ (f r).started = (r.started || e.any (RelayEvent.calls j)))
    (he : ∀ i, i ≠ j → e.any (RelayEvent.calls i) = false) : h.Rolls g e := by
  refine ⟨fun i r hi => ?_, fun i r' hn hi => ?_⟩
  · rw [hg, List.getElem?_modify, hi]
    by_cases hij : j = i
    · subst hij
      exact ⟨f r, by simp, hf r⟩
    · exact ⟨r, by simp [hij], rfl, by rw [he i (Ne.symm hij), Bool.or_false]⟩
  · rw [hg, List.getElem?_modify, hn] at hi
    cases hi

theorem Rolls.length_le (hr : h.Rolls g e) : h.relays.length ≤ g.relays.length := by
  by_contra hlt
  have hlt := Nat.lt_of_not_le hlt
  obtain ⟨r', hr', -⟩ := hr.old _ _ (List.getElem?_eq_getElem hlt)
  exact Nat.lt_irrefl _ (List.getElem?_eq_some_iff.mp hr').1

/-- A call changes nothing about relays but that the one that is called counts as started. -/
theorem relays_after (x : StartCall) : x.after.relays = x.marked.relays := by
  cases hr : x.hub.relays[x.relay]? with
  | none =>
    have he : x.after = x.hub := by
      simp only [StartCall.after, startRelay, hr]
    rw [he]
    refine List.ext_getElem? fun i => ?_
    rw [StartCall.marked, List.getElem?_modify]
    by_cases hi : x.relay = i
    · rw [← hi, hr]
      rfl
    · simp [hi]
  | some r =>
    cases x.outcome hr with
    | again _ _ ha | closed _ _ _ ha => rw [ha]
    | started _ _ _ hn => rw [hn.after]

theorem rolls_after (x : StartCall) : x.hub.Rolls x.after (some (.called x)) :=
  .of_modify (relays_after x) (fun r => ⟨rfl, by simp [RelayEvent.calls]⟩) fun i hi =>
    decide_eq_false (Ne.symm hi)

/-- A move in which a relay is told of a track is the call of that relay. -/
theorem of_startCall (hm : h.move? t = some g) (hx : (Change.mk (.move t) h g).startCall? = some x) :
    x.hub = h.dismiss t ∧ g = x.after ∧ t.job = .announce x.rids ∧ h.handler = some (.relay x.relay) := by
  unfold Change.startCall? at hx
  split at hx
  · next u index rids hu ha =>
    cases hu
    cases hx
    obtain ⟨u, hu, hg⟩ := calls_move hm ha
    cases hu
    obtain ⟨rids', hj, hh⟩ := Option.bind_eq_some_iff.mp ha
    obtain ⟨handler, hhandler, he⟩ := Option.map_eq_some_iff.mp hh
    cases he
    exact ⟨rfl, hg, Task.announces?_eq_some_iff.mp hj, hhandler⟩
  · cases hx

theorem rolls_failPump (hr : g.relays = h.relays) (t : Task) (p : Pump) (cause : Error) :
    h.Rolls (g.failPump t p cause) none := by
  unfold failPump
  split
  · exact .of_relays_eq hr
  · next index _ =>
    rw [hr]
    exact .of_modify (j := index) rfl (fun r => ⟨rfl, (Bool.or_false _).symm⟩) fun _ _ => rfl

/-- A move starts a relay only if that is told of a track. -/
theorem Move.rolls (m : Move h t g) (hx : (Change.mk (.move t) h g).startCall? = none) : h.Rolls g none := by
  cases m with
  | refuse | fail | unrouted =>
    refine rolls_failPump ?_ t _ _
    rfl
  | @announce rids hj =>
    unfold Hub.announce
    split
    · exact .of_relays_eq rfl
    · next index hh =>
      have ha : (Change.mk (.move t) h (h.announce t rids)).announcement? = some ⟨.relay index, rids⟩ := by
        have hr : (Change.mk (.move t) h (h.announce t rids)).announced? = some rids :=
          Task.announces?_eq_some_iff.mpr hj
        rw [Change.announcement?, hr]
        exact congrArg (Option.map _) hh
      simp only [Change.startCall?, ha] at hx
      cases hx
    · dsimp only
      split <;> exact .of_relays_eq rfl
  | greet =>
    unfold greeted
    split <;> exact .of_relays_eq rfl
  | _ => exact .of_relays_eq rfl

end Hub

namespace Session

variable {s : Session} {c : Command}

theorem Deed.rolls {g : Hub} {names : Table String Token} (d : s.Deed c g names)
    (hc : ∀ name, c ≠ .relay (.start name)) : s.hub.Rolls g none := by
  cases d with
  | read q =>
    obtain ⟨u, hu, -⟩ := s.hub.read_transport q
    rw [hu]
    exact .of_relays_eq rfl
  | addRelay =>
    refine ⟨fun j r hj => ⟨r, ?_, rfl, (Bool.or_false _).symm⟩, fun j r' hn hj => ?_⟩
    · exact (List.getElem?_append_left (List.getElem?_eq_some_iff.mp hj).1).trans hj
    · have hj : (s.hub.relays ++ [_])[j]? = some r' := hj
      rw [List.getElem?_append_right (List.getElem?_eq_none_iff.mp hn)] at hj
      rw [List.mem_singleton.mp (List.mem_of_getElem? hj)]
  | startRelay => exact absurd rfl (hc _)
  | _ => exact .of_relays_eq rfl

/-- A relay is called by a command to start it, and by no other. -/
theorem rolls_perform (hc : ∀ n, c ≠ .advance n) : s.hub.Rolls (s.perform c).1.hub (s.relayEvent? c) := by
  by_cases hn : ∃ name, c = .relay (.start name)
  · obtain ⟨name, rfl⟩ := hn
    show s.hub.Rolls (s.performRelay (.start name)).1.hub _
    simp only [performRelay, relayEvent?]
    split
    · next index r hr =>
      rw [hr, Option.bind_some]
      split
      · exact Hub.rolls_after ⟨s.hub, index, _⟩
      · exact .of_relays_eq rfl
    · next hr =>
      rw [hr]
      exact .of_relays_eq rfl
  · refine ((deed_of_perform hc).rolls (not_exists.mp hn)).of_none fun j => ?_
    unfold relayEvent?
    split
    · exact absurd ⟨_, rfl⟩ hn
    · next name => cases s.relay? name <;> rfl
    · split <;> rfl
    · rfl

end Session

end MediaRelay
