import MediaRelay.Proofs.Holding
import MediaRelay.Proofs.Lockstep
import MediaRelay.Proofs.Reception

/-!
# Handlers that are told of a track

A receiver that has received leaves a task that tells its handler of the new track.

- `Hub.pending_move`: a move leaves to be announced what the tasks other than its own were to announce;
- `Session.announced_history`: over a run just the tracks are announced that were received, and that is one at most;
- `Session.handler_after`: the handler is the one that was registered last, by whatever command;
- `Session.greets_receive`: a recorder that is told of a layer without data waits for it after receiving is over.
-/

namespace MediaRelay

/-! ## Calls of handlers -/

/-- A call of a handler: who is called, and with which layers. -/
structure Announcement where
  handler : Handler
  rids : List String
deriving DecidableEq, Repr

/-- The layers that a job is to announce. -/
def Job.announces? : Job → Option (List String)
  | .announce rids => some rids
  | _ => none

/-- The layers that a task is to announce. -/
def Task.announces? (t : Task) : Option (List String) :=
  t.job.announces?

/-- The layers that a change announces, to a handler or to nobody. -/
def Change.announced? (x : Change) : Option (List String) :=
  match x.cause with
  | .move t => t.announces?
  | .command _ _ => none

/-- The call of a handler that a change makes. -/
def Change.announcement? (x : Change) : Option Announcement :=
  x.announced?.bind fun rids => x.before.handler.map (⟨·, rids⟩)

/-- The track that a command gives, which is one to receive. -/
def Command.track? (c : Command) (reply : Reply) : Option TrackView :=
  match c, reply with
  | .receiver (.receive _), .track v => some v
  | _, _ => none

/-- The track that a change gives. -/
def Change.received? (x : Change) : Option TrackView :=
  match x.cause with
  | .command c reply => c.track? reply
  | .move _ => none

/-- The RIDs of the layers of a track. -/
def TrackView.rids (v : TrackView) : List String :=
  v.layers.map LayerView.rid

/-- The layers of the tracks that were received in a run. -/
def tracksReceived (past : List Change) : List (List String) :=
  past.filterMap fun x => x.received?.map TrackView.rids

/-- The layers of the tracks that were announced in a run. -/
def announced (past : List Change) : List (List String) :=
  past.filterMap Change.announced?

/-- The calls of handlers in a run. -/
def announcements (past : List Change) : List Announcement :=
  past.filterMap Change.announcement?

theorem filterMap_snoc {α β : Type} (f : α → Option β) (as : List α) (a : α) :
    (as ++ [a]).filterMap f = as.filterMap f ++ (f a).toList := by
  rw [List.filterMap_append, List.filterMap_cons]
  cases f a <;> rfl

theorem Task.announces?_eq_some_iff {t : Task} {rids : List String} :
    t.announces? = some rids ↔ t.job = .announce rids := by
  unfold announces? Job.announces?
  cases t.job <;> simp

theorem Task.announces?_of_serves {t : Task} {k : Token} {rid : String} (h : t.serves k rid = true) :
    t.announces? = none := by
  unfold announces?
  unfold serves at h
  split at h
  · next hj => rw [hj]; rfl
  · next hj => rw [hj]; rfl
  · cases h

theorem Command.track?_eq_some_iff {c : Command} {reply : Reply} {v : TrackView} :
    c.track? reply = some v ↔ (∃ es, c = .receiver (.receive es)) ∧ reply = .track v := by
  unfold track?
  split
  · simp
  · next hn =>
    refine ⟨nofun, ?_⟩
    rintro ⟨⟨es, rfl⟩, rfl⟩
    exact absurd rfl (hn es v rfl)

theorem Change.receives_of_received? {x : Change} (h : x.received?.isSome) : x.receives = true := by
  obtain ⟨cause, before, after⟩ := x
  cases cause with
  | move t => cases h
  | command c reply =>
    obtain ⟨v, hv⟩ := Option.isSome_iff_exists.mp h
    obtain ⟨⟨es, rfl⟩, rfl⟩ := Command.track?_eq_some_iff.mp hv
    rfl

/-! ## What is to be announced -/

namespace Hub

variable {h g : Hub} {t : Task}

/-- What is to be announced. -/
def pending (h : Hub) : List (List String) :=
  h.tasks.filterMap Task.announces?

theorem pending_spawn (h : Hub) (job : Job) : (h.spawn job).pending = h.pending ++ job.announces?.toList :=
  filterMap_snoc _ _ _

/-- The tasks are one of them and the others. -/
theorem tasks_perm_others (hids : (h.tasks.map Task.id).Nodup) (ht : t ∈ h.tasks) :
    h.tasks.Perm (t :: h.others t.id) := by
  have hd : h.tasks.Nodup := hids.of_map
  have hn : t ∉ h.others t.id := fun hm => (Owned.mem_others.mp hm).2 rfl
  refine (List.perm_ext_iff_of_nodup hd (List.nodup_cons.mpr ⟨hn, hd.sublist List.filter_sublist⟩)).mpr fun u => ?_
  rw [List.mem_cons, Owned.mem_others]
  constructor
  · intro hu
    by_cases he : u.id = t.id
    · exact .inl (List.inj_on_of_nodup_map hids hu ht he)
    · exact .inr ⟨hu, he⟩
  · rintro (rfl | ⟨hu, -⟩)
    · exact ht
    · exact hu

theorem pending_startRelay (h : Hub) (index : Nat) (rids : List String) :
    (h.startRelay index rids).1.pending = h.pending := by
  obtain ⟨new, ht, hn⟩ := h.tasks_startRelay index rids
  have hnew : new.filterMap Task.announces? = [] := List.filterMap_eq_nil_iff.mpr fun u hu => by
    obtain ⟨-, -, r, rid, -, -, -, hs⟩ := hn u hu
    exact Task.announces?_of_serves hs
  rw [pending, ht, List.filterMap_append, hnew, List.append_nil]
  rfl

theorem pending_announce (h : Hub) (t : Task) (rids : List String) :
    (h.announce t rids).pending = (h.dismiss t).pending := by
  unfold announce
  split
  · rfl
  · exact (h.dismiss t).pending_startRelay _ rids
  · dsimp only
    split <;> rfl

/-- After a move there is left to be announced what the other tasks were to announce. -/
theorem pending_move (hm : h.move? t = some g) : g.pending = (h.dismiss t).pending := by
  cases hj : t.announces? with
  | some rids =>
    rw [move?, Task.announces?_eq_some_iff.mp hj] at hm
    rw [← Option.some.inj hm]
    exact h.pending_announce t rids
  | none =>
    have hr := retasked hm
    unfold pending
    generalize g.tasks = ts at hr
    cases hr with
    | gone => rfl
    | @parked gate =>
      rw [filterMap_snoc, show (t.at gate).announces? = none from hj]
      exact List.append_nil _
    | resumed => exact List.filterMap_cons_none hj
    | greeting hj' | started hj' =>
      rw [Task.announces?, hj'] at hj
      cases hj

/-- What was to be announced before a move is announced by it, or is to be announced still. -/
theorem pending_perm (hids : (h.tasks.map Task.id).Nodup) (ht : t ∈ h.tasks) (hm : h.move? t = some g) :
    h.pending.Perm (t.announces?.toList ++ g.pending) := by
  rw [pending_move hm]
  refine ((tasks_perm_others hids ht).filterMap _).trans (.of_eq ?_)
  rw [List.filterMap_cons]
  cases t.announces? <;> rfl

/-- In a hub that has settled there is nothing to be announced. -/
theorem pending_of_quiet (hq : h.step? = none) : h.pending = [] := by
  refine List.filterMap_eq_nil_iff.mpr fun u hu => Option.eq_none_iff_forall_ne_some.mpr fun rids hj => ?_
  exact (rests_of_quiet hq hu).announced rids (Task.announces?_eq_some_iff.mp hj)

end Hub

namespace Session

variable {s : Session} {past : List Change}

/-- Nothing but receiving leaves something to be announced. -/
theorem Deed.pending {c : Command} {g : Hub} {names : Table String Token} (d : s.Deed c g names)
    (hc : ∀ es, c ≠ .receiver (.receive es)) (hp : s.hub.pending = []) : g.pending = [] := by
  cases d with
  | read q =>
    obtain ⟨u, hu, -⟩ := s.hub.read_transport q
    rw [hu]
    exact hp
  | abort => exact List.eq_nil_of_subset_nil (hp ▸ (List.filter_sublist.filterMap _).subset)
  | receiveFailed | receive => exact absurd rfl (hc _)
  | spawnRead | startPump | startScheduler =>
    rw [Hub.pending_spawn]
    exact (List.append_nil _).trans hp
  | startRelay => exact (s.hub.pending_startRelay _ _).trans hp
  | _ => exact hp

theorem rids_trackView (s : Session) : s.trackView.rids = s.hub.receiver.layers.map Layer.rid := by
  rw [TrackView.rids, trackView, List.map_map]
  rfl

/-- The hub after encodings were received, whatever came of it, and before anything is announced. -/
def receiving (s : Session) (es : List Encoding) : Hub :=
  { s.hub with receiver := (s.hub.receiver.receive s.hub.transport es).1,
               transport := (s.hub.receiver.receive s.hub.transport es).2.1 }

/-- A call to receive gives a track and leaves it to be announced, or fails and leaves nothing. -/
theorem perform_receive_cases (hh : s.hub.held = true) (es : List Encoding) :
    s.perform (.receiver (.receive es))
        = (s.setHub ((s.receiving es).spawn (.announce (s.setHub (s.receiving es)).trackView.rids)),
            .track (s.setHub (s.receiving es)).trackView)
      ∨ ∃ e, s.perform (.receiver (.receive es)) = (s.setHub (s.receiving es), .failed e) := by
  rw [perform_receive hh, rids_trackView]
  have hrids := fun ls => @announced_receive es ls s.hub.receiver s.hub.transport
  unfold Session.receive receiving
  generalize s.hub.receiver.receive s.hub.transport es = x at hrids ⊢
  obtain ⟨r, u, e | ls⟩ := x
  · exact .inr ⟨e, rfl⟩
  · have hl : r.layers.map Layer.rid = ls.map Layer.rid := (hrids ls rfl).2
    refine .inl ?_
    show (s.setHub (Hub.spawn _ (.announce (ls.map Layer.rid))), _) = (s.setHub (Hub.spawn _ (.announce _)), _)
    rw [← hl]
    rfl

/-- What a command leaves to be announced is the track that it has given. -/
theorem pending_perform (hp : s.hub.pending = []) {c : Command} (hc : ∀ n, c ≠ .advance n) :
    (s.perform c).1.hub.pending
      = ((c.track? (s.perform c).2).map TrackView.rids).toList := by
  by_cases hr : ∃ es, c = .receiver (.receive es)
  · obtain ⟨es, rfl⟩ := hr
    cases hh : s.hub.held with
    | false =>
      rw [perform_of_not_held hh rfl]
      exact hp
    | true =>
      rcases s.perform_receive_cases hh es with he | ⟨e, he⟩ <;> rw [he]
      · exact (Hub.pending_spawn _ _).trans (congrArg (· ++ [_]) hp)
      · exact hp
  · have hn : c.track? (s.perform c).2 = none := Option.eq_none_iff_forall_ne_some.mpr fun v hv =>
      hr (Command.track?_eq_some_iff.mp hv).1
    rw [(deed_of_perform hc).pending (not_exists.mp hr) hp, hn]
    rfl

/-- What was received was announced, or is to be announced. -/
theorem announced_invariant : InvariantOf (fun h => h.step? = none) fun s past =>
    s.Proper ∧ (announced past ++ s.hub.pending).Perm (tracksReceived past) where
  settled := Hub.step?_settle
  move s past t h hi hm := by
    obtain ⟨hp, hperm⟩ := hi
    obtain ⟨ht, hmove⟩ := Hub.of_mover? hm
    obtain ⟨a, o⟩ := hp.owned
    refine ⟨hp.move hm, ?_⟩
    have ha : announced (past ++ [⟨.move t, s.hub, h⟩]) = announced past ++ t.announces?.toList := filterMap_snoc _ _ _
    have hr : tracksReceived (past ++ [⟨.move t, s.hub, h⟩]) = tracksReceived past :=
      (filterMap_snoc _ _ _).trans (List.append_nil _)
    rw [ha, hr, List.append_assoc]
    exact ((Hub.pending_perm o.ids ht hmove).symm.append_left _).trans hperm
  clock s past time hi _ := ⟨hi.1.clock time, hi.2⟩
  command s past c hi hq hc := by
    refine ⟨hi.1.perform hc, ?_⟩
    have hp := Hub.pending_of_quiet hq
    have hperm := hi.2
    rw [hp, List.append_nil] at hperm
    have ha : announced (past ++ [⟨.command c (s.perform c).2, s.hub, (s.perform c).1.hub⟩]) = announced past :=
      (filterMap_snoc _ _ _).trans (List.append_nil _)
    have hr : tracksReceived (past ++ [⟨.command c (s.perform c).2, s.hub, (s.perform c).1.hub⟩])
        = tracksReceived past ++ ((c.track? (s.perform c).2).map TrackView.rids).toList := filterMap_snoc _ _ _
    rw [pending_perform hp hc, ha, hr]
    exact hperm.append_right _
  shown s past hi := ⟨hi.1.shown, hi.2⟩

/-! ## What is announced in a run -/

/-- While tasks run nothing is received. -/
theorem received?_of_settle (h : Hub) : ∀ x ∈ h.settleChanges, h.Framed x.before ∧ x.received? = none := by
  refine (Hub.settle_keeps (P := fun g past => h.Framed g ∧ ∀ x ∈ past, h.Framed x.before ∧ x.received? = none)
    (fun g past t g' hg hm => ?_) ⟨.refl h, fun x hx => by cases hx⟩).2
  refine ⟨hg.1.trans (Hub.move_of_move? (Hub.of_mover? hm).2).framed, fun x hx => ?_⟩
  rcases List.mem_append.mp hx with hx | hx
  · exact hg.2 x hx
  · rw [List.mem_singleton.mp hx]
    exact ⟨hg.1, rfl⟩

theorem received?_of_advance (h : Hub) (n : Nat) : ∀ x ∈ h.advanceChanges n, x.received? = none := by
  refine @Hub.pass_keeps (fun _ past => ∀ x ∈ past, x.received? = none) (fun g past t g' hg hm x hx => ?_)
    (fun _ _ _ hg => hg) n (h.clock + n) h [] (List.forall_mem_nil _)
  rcases List.mem_append.mp hx with hx | hx
  · exact hg x hx
  · rw [List.mem_singleton.mp hx]
    rfl

/-- The track that is received in a step is that which its command gives. -/
theorem tracksReceived_changes (s : Session) (c : Command) :
    tracksReceived (s.changes c) = ((c.track? (s.step c).2.reply).map TrackView.rids).toList := by
  have none : ∀ {xs : List Change}, (∀ x ∈ xs, x.received? = none) → tracksReceived xs = [] := fun {xs} hx =>
    List.filterMap_eq_nil_iff.mpr fun x hm => congrArg (Option.map TrackView.rids) (hx x hm)
  have hs := none fun x hx => (received?_of_settle (s.perform c).1.hub x hx).2
  unfold changes
  rw [tracksReceived, List.filterMap_append, show List.filterMap _ _ = [] from hs, List.append_nil]
  cases c with
  | advance n => exact none (received?_of_advance s.hub _)
  | _ => exact filterMap_snoc _ [] _

/-- Over a run just the tracks are announced that were received, and that is one at most. -/
theorem announced_history (settings : Settings) (kind : Kind) (cs : List Command) :
    announced ((new settings kind).history cs) = tracksReceived ((new settings kind).history cs)
      ∧ (announced ((new settings kind).history cs)).length ≤ 1 := by
  obtain ⟨-, hperm⟩ := @InvariantOf.after _ _ announced_invariant cs (new settings kind) [] rfl
    ⟨proper_new settings kind, .nil⟩
  rw [Hub.pending_of_quiet (step?_after rfl cs), List.append_nil, List.nil_append] at hperm
  have hrem := @Invariant.after _ remembers_invariant cs (new settings kind) [] ⟨by simp [new, Hub.new], by simp⟩
  have hle : (tracksReceived ((new settings kind).history cs)).length ≤ 1 := by
    rw [tracksReceived, List.length_filterMap_eq_countP]
    refine Nat.le_trans (List.countP_mono_left fun x _ hx => ?_) (Nat.le_trans hrem.once (Bool.toNat_le _))
    rw [Option.isSome_map] at hx
    exact Change.receives_of_received? hx
  refine ⟨?_, hperm.length_eq ▸ hle⟩
  generalize tracksReceived ((new settings kind).history cs) = received at hperm hle
  cases received with
  | nil => exact hperm.eq_nil
  | cons rids rest =>
    obtain rfl := List.length_eq_zero_iff.mp (Nat.le_zero.mp (Nat.le_of_succ_le_succ hle))
    exact List.perm_singleton.mp hperm

/-- In a step just the track is announced that its command gives. -/
theorem announced_changes (settings : Settings) (kind : Kind) (cs : List Command) (c : Command) :
    announced (((new settings kind).after cs).changes c)
      = ((c.track? (((new settings kind).after cs).step c).2.reply).map TrackView.rids).toList := by
  obtain ⟨h, -⟩ := announced_history settings kind cs
  obtain ⟨h', -⟩ := announced_history settings kind (cs ++ [c])
  rw [← tracksReceived_changes]
  rw [history_append, announced, tracksReceived, List.filterMap_append, List.filterMap_append] at h'
  have hc : ((new settings kind).after cs).history [c] = ((new settings kind).after cs).changes c := List.append_nil _
  rw [hc] at h'
  exact List.append_cancel_left (h'.trans (congrArg (· ++ _) h.symm))

/-! ## Who is told -/

/-- The handler that a command registers: it sets a recorder, or it adds or installs a relay. -/
def registers? (s : Session) : Command → Option Handler
  | .receiver (.onTrack name reads) => if s.hub.held then some (.recorder name reads) else none
  | .relay (.add _ _) => if s.hub.held then some (.relay s.hub.relays.length) else none
  | .relay (.install name) => if s.hub.held then (s.relay? name).map fun (index, _) => .relay index else none
  | _ => none

/-- The handlers that the commands of a run register, in order. -/
def registrations (s : Session) : List Command → List Handler
  | [] => []
  | c :: cs => (s.registers? c).toList ++ registrations (s.step c).1 cs

theorem handler_performRead (c : ReadCommand) : (s.performRead c).1.hub.handler = s.hub.handler := by
  cases c with
  | read q =>
    simp only [performRead]
    split
    · rfl
    · obtain ⟨u, hu, -⟩ := s.hub.read_transport q
      show (s.hub.read q).1.handler = _
      rw [hu]
  | spawn name q =>
    cases q with
    | none => rfl
    | some q =>
      simp only [performRead]
      split <;> rfl
  | poll name =>
    simp only [performRead]
    split
    · rfl
    · rfl
    · split <;> rfl
  | abort name =>
    simp only [performRead]
    split <;> rfl

theorem handler_performReceiver (c : ReceiverCommand) :
    (s.performReceiver c).1.hub.handler = (s.registers? (.receiver c)).or s.hub.handler := by
  unfold performReceiver
  split
  · next hh =>
    cases c with
    | receive es =>
      rcases s.perform_receive_cases hh es with he | ⟨e, he⟩
      · exact congrArg (fun p => p.1.hub.handler) ((perform_of_held hh _).symm.trans he)
      · exact congrArg (fun p => p.1.hub.handler) ((perform_of_held hh _).symm.trans he)
    | onTrack name reads => simp [performHeld, registers?, hh, setHub]
    | layerOfSsrc ssrc =>
      simp only [performHeld]
      split <;> rfl
    | _ => rfl
  · next hh => cases c <;> simp [performHeld, registers?, hh, setHub]

theorem handler_performRelay (c : RelayCommand) :
    (s.performRelay c).1.hub.handler = (s.registers? (.relay c)).or s.hub.handler := by
  cases c with
  | add name map =>
    simp only [performRelay, registers?]
    split <;> rfl
  | install name =>
    simp only [performRelay, registers?]
    split
    · next hn => split <;> simp [*, setHub]
    · next hn => split <;> simp [hn]
  | takeFailures name =>
    simp only [performRelay]
    split
    · rfl
    · split <;> rfl
  | start name =>
    simp only [performRelay]
    split
    · split
      · exact (s.hub.framed_startRelay _ _).handler
      · rfl
    · rfl
  | addForwarder name map => rfl
  | _ =>
    simp only [performRelay]
    split <;> rfl

theorem handler_performOutbound (c : OutboundCommand) : (s.performOutbound c).1.hub.handler = s.hub.handler := by
  have write : ∀ name p, (s.writeOutbound name p).1.hub.handler = s.hub.handler := fun name p => by
    unfold writeOutbound
    split <;> rfl
  cases c with
  | info name | bind name writer | unbind name =>
    simp only [performOutbound]
    split <;> rfl
  | write name p => exact write name p
  | writeDatagram name d =>
    simp only [performOutbound]
    split
    · rfl
    · split
      · rfl
      · exact write name _
  | _ => rfl

/-- A command leaves the handler as it is, unless it registers one. -/
theorem handler_perform (s : Session) (c : Command) :
    (s.perform c).1.hub.handler = (s.registers? c).or s.hub.handler := by
  cases c with
  | reading c => exact handler_performRead c
  | receiver c => exact handler_performReceiver c
  | token c => cases c <;> simp only [perform, performToken] <;> split <;> rfl
  | transport c => cases c <;> rfl
  | outbound c => exact handler_performOutbound c
  | relay c => exact handler_performRelay c
  | advance n =>
    exact @Hub.pass_keeps (fun g _ => g.handler = s.hub.handler)
      (fun _ _ _ _ hg hm => (Hub.move_of_move? (Hub.of_mover? hm).2).framed.handler.trans hg)
      (fun _ _ _ hg => hg) _ _ s.hub [] rfl
  | unknown => rfl

theorem handler_step (s : Session) (c : Command) :
    (s.step c).1.hub.handler = (s.registers? c).or s.hub.handler :=
  (Hub.framed_settle _).handler.trans (s.handler_perform c)

/-- The handler is the one that was registered last. -/
theorem handler_after (s : Session) (cs : List Command) :
    (s.after cs).hub.handler = (s.registrations cs).getLast?.or s.hub.handler := by
  induction cs generalizing s with
  | nil => rfl
  | cons c cs ih =>
    rw [after_cons, ih, handler_step, registrations, List.getLast?_append, Option.or_assoc]
    cases s.registers? c <;> rfl

/-- Where something is announced in a step, receiving has left the receiver and its handler as they are by then. -/
theorem framed_of_announced (settings : Settings) (kind : Kind) (cs : List Command) (c : Command) {x : Change}
    (hx : x ∈ ((new settings kind).after cs).changes c) {rids : List String} (ha : x.announced? = some rids) :
    (∃ es, c = .receiver (.receive es)) ∧ (((new settings kind).after cs).perform c).1.hub.Framed x.before := by
  have hmem : rids ∈ announced (((new settings kind).after cs).changes c) := List.mem_filterMap.mpr ⟨x, hx, ha⟩
  rw [announced_changes] at hmem
  obtain ⟨v, hv, -⟩ := Option.map_eq_some_iff.mp (Option.mem_toList.mp hmem)
  obtain ⟨es, rfl⟩ := (Command.track?_eq_some_iff.mp hv).1
  refine ⟨⟨es, rfl⟩, ?_⟩
  rcases List.mem_append.mp hx with hx | hx
  · rw [List.mem_singleton.mp hx] at ha
    cases ha
  · exact (received?_of_settle _ x hx).1

/-- The call that is due in a step: of the handler that was registered last, with the layers of the track that the
command gives. -/
def due (s : Session) (c : Command) (last : Option Handler) : Option Announcement :=
  (c.track? (s.step c).2.reply).bind fun v => last.map (⟨·, v.rids⟩)

/-- In a step just the call is made that is due. -/
theorem announcements_changes (settings : Settings) (kind : Kind) (cs : List Command) (c : Command) :
    announcements (((new settings kind).after cs).changes c)
      = (((new settings kind).after cs).due c ((new settings kind).registrations cs).getLast?).toList := by
  have hhandler := handler_after (new settings kind) cs
  rw [show (new settings kind).hub.handler = none from rfl, Option.or_none] at hhandler
  have htold : announcements (((new settings kind).after cs).changes c)
      = (announced (((new settings kind).after cs).changes c)).filterMap
        fun rids => ((new settings kind).after cs).hub.handler.map (⟨·, rids⟩) := by
    rw [announcements, announced, List.filterMap_filterMap]
    refine List.filterMap_congr fun x hx => ?_
    cases ha : x.announced? with
    | none => rw [Change.announcement?, ha]; rfl
    | some rids =>
      obtain ⟨⟨es, rfl⟩, hf⟩ := framed_of_announced settings kind cs c hx ha
      rw [Change.announcement?, ha, hf.handler]
      exact congrArg (Option.map _) (handler_performReceiver (.receive es))
  rw [htold, announced_changes, hhandler, due]
  cases Command.track? c _ with
  | none => rfl
  | some v =>
    show List.filterMap _ ([] ++ [v.rids]) = _
    exact filterMap_snoc _ [] _

end Session

/-! ## What a call does -/

/-- Whether a recorder notes that it was called. -/
def Event.isCall : Event → Bool
  | .call _ _ _ => true
  | _ => false

/-- What a recorder notes of its call. -/
def Announcement.event? (a : Announcement) : Option Event :=
  match a.handler with
  | .recorder name _ => some (.call name 1 a.rids.length)
  | .relay _ => none

/-- A change calls a handler in a task of its own: a relay starts for the layers; a recorder notes the call, and that
task goes on to read the first layer if the recorder reads. -/
def Change.Tells (x : Change) (a : Announcement) : Prop :=
  ∃ t, x.cause = .move t ∧ match a.handler with
    | .relay index => x.after = ((x.before.dismiss t).startRelay index a.rids).1
    | .recorder name reads =>
      x.after.events = x.before.events ++ [.call name 1 a.rids.length]
        ∧ x.after.tasks = (if reads then a.rids.take 1 else []).map (fun rid => { id := t.id, job := .greet name rid })
          ++ x.before.others t.id

namespace Hub

variable {h g : Hub} {t : Task} {q : Read} {gate : Gate}

theorem calls_announce {rids : List String} {handler : Handler} (hh : h.handler = some handler) :
    (Change.mk (.move t) h (h.announce t rids)).Tells ⟨handler, rids⟩ := by
  refine ⟨t, rfl, ?_⟩
  cases handler with
  | relay index => exact announce_of_relay hh
  | recorder name reads =>
    dsimp only
    rw [announce_of_recorder hh]
    cases reads with
    | false => exact ⟨rfl, rfl⟩
    | true => cases rids <;> exact ⟨rfl, rfl⟩

/-- A change that announces something to a handler calls it. -/
theorem calls_move (hm : h.move? t = some g) {a : Announcement}
    (ha : (Change.mk (.move t) h g).announcement? = some a) : (Change.mk (.move t) h g).Tells a := by
  obtain ⟨rids, hj, ha⟩ := Option.bind_eq_some_iff.mp ha
  obtain ⟨handler, hh, rfl⟩ := Option.map_eq_some_iff.mp ha
  have hj' : t.job = .announce rids := Task.announces?_eq_some_iff.mp hj
  rw [move?, hj'] at hm
  obtain rfl := Option.some.inj hm
  exact calls_announce hh

theorem filter_isCall_append (es : List Event) (e : Event) :
    (es ++ [e]).filter Event.isCall = es.filter Event.isCall ++ if e.isCall then [e] else [] := by
  rw [List.filter_append, List.filter_cons]
  rfl

/-- A task that announces nothing notes no call. -/
theorem calls_of_no_announcement (m : Move h t g) (hj : ∀ rids, t.job ≠ .announce rids) :
    g.events.filter Event.isCall = h.events.filter Event.isCall := by
  have failed : ∀ (k : Hub) (p : Pump) (cause : Error), k.events = h.events →
      (k.failPump t p cause).events.filter Event.isCall = h.events.filter Event.isCall := fun k p cause hk => by
    unfold failPump
    split <;> exact congrArg _ hk
  cases m with
  | refuse | fail | unrouted => exact failed _ _ _ rfl
  | announce hj' => exact absurd hj' (hj _)
  | greet =>
    unfold greeted
    split
    · exact (filter_isCall_append _ _).trans (List.append_nil _)
    · rfl
    · exact (filter_isCall_append _ _).trans (List.append_nil _)
  | _ => rfl

/-- After a move the calls are noted that were noted before, and the one that it makes. -/
theorem calls_noted (hm : h.move? t = some g) : g.events.filter Event.isCall = h.events.filter Event.isCall
    ++ ((Change.mk (.move t) h g).announcement?.bind Announcement.event?).toList := by
  cases ha : (Change.mk (.move t) h g).announcement? with
  | some a =>
    obtain ⟨_, -, hc⟩ := calls_move hm ha
    rw [Option.bind_some, Announcement.event?]
    obtain ⟨⟨index⟩ | ⟨name, reads⟩, rids⟩ := a
    · rw [show g = _ from hc, (rest_startRelay _ _ _).2.2]
      exact (List.append_nil _).symm
    · rw [show g.events = _ from hc.1]
      exact filter_isCall_append _ _
  | none =>
    refine Eq.trans ?_ (List.append_nil _).symm
    cases hj : t.announces? with
    | none =>
      refine calls_of_no_announcement (move_of_move? hm) fun rids he => ?_
      rw [Task.announces?_eq_some_iff.mpr he] at hj
      cases hj
    | some rids =>
      have hh : h.handler = none := by
        rw [Change.announcement?, show (Change.mk (.move t) h g).announced? = some rids from hj] at ha
        exact Option.map_eq_none_iff.mp ha
      rw [move?, Task.announces?_eq_some_iff.mp hj] at hm
      rw [← Option.some.inj hm, announce_of_none hh]
      rfl

/-! ## Recorders that read -/

/-- A read that waits comes to the same after a move. -/
theorem gate_move (hm : h.move? t = some g) (ha : h.isAlive = true) (ha' : g.isAlive = true)
    (hr : (h.read q).2.gate? = some gate) : (g.read q).2.gate? = some gate := by
  rw [read_of_alive ha] at hr
  rw [read_of_alive ha', (move_of_move? hm).framed.receiver]
  cases hs : h.receiver.standing q.source with
  | atStream ch ssrc =>
    have hgate : (h.read q).2.gate? = some gate := by rw [read_of_alive ha]; exact hr
    obtain ⟨he, hc⟩ := stream_of_gate hgate hs
    have waits : ∀ u : QueueTransport, (u.stream ch ssrc).queued = [] → (u.stream ch ssrc).closed = false →
        (h.receiver.read u q).2 = .awaitsDatagram := fun u he hc => by
      obtain ⟨-, ⟨hc', -⟩ | ⟨-, -, hw⟩ | ⟨d, -, hd, -⟩⟩ := Receiver.read_of_atStream (t := u) hs
      · rw [hc] at hc'; cases hc'
      · exact hw
      · have hlt := (List.getElem?_eq_some_iff.mp hd).1
        rw [QueueStream.queued, List.drop_eq_nil_iff] at he
        exact absurd hlt (Nat.not_lt.mpr he)
    rw [waits _ he hc] at hr
    rw [waits _ (queued_move hm he) ((closed_move hm ch ssrc).trans hc)]
    exact hr
  | _ =>
    simp only [Receiver.read, hs] at hr ⊢
    exact hr

/-- What a hub is like, while it settles, whose handler is a recorder that reads a layer without data: the recorder is
still to be told, or its task reads. -/
structure Greets (h₀ h : Hub) (name rid : String) : Prop where
  framed : h₀.Framed h
  ids : (h.tasks.map Task.id).Nodup
  gate : ∃ gate, (h.read ⟨.media rid, .decoded⟩).2.gate? = some gate
  task : (∃ t ∈ h.tasks, ∃ rids, t.job = .announce (rid :: rids)) ∨ ∃ t ∈ h.tasks, t.job = .greet name rid

theorem Greets.move {h₀ : Hub} {name rid : String} (hg : h₀.Greets h name rid) (hh : h₀.held = true)
    (hn : h₀.handler = some (.recorder name true)) (ht : t ∈ h.tasks) (hids : (g.tasks.map Task.id).Nodup)
    (hm : h.move? t = some g) : h₀.Greets g name rid := by
  have hf := (move_of_move? hm).framed
  have alive : ∀ {k : Hub}, h₀.Framed k → k.isAlive = true := fun hk =>
    Bool.or_eq_true_iff.mpr (.inl (hk.held.trans hh))
  have ha := alive hg.framed
  have ha' := alive (hg.framed.trans hf)
  obtain ⟨gate, hgate⟩ := hg.gate
  refine ⟨hg.framed.trans hf, hids, ⟨gate, gate_move hm ha ha' hgate⟩, ?_⟩
  have stays : ∀ u ∈ h.tasks, u ≠ t → u ∈ g.tasks := fun u hu hne =>
    (retasked hm).others (Owned.mem_others.mpr ⟨hu, fun e => hne (List.inj_on_of_nodup_map hg.ids hu ht e)⟩)
  rcases hg.task with ⟨u, hu, rids, hj⟩ | ⟨u, hu, hj⟩
  · by_cases hut : u = t
    · subst hut
      rw [move?, hj] at hm
      obtain rfl := Option.some.inj hm
      right
      rw [announce_of_recorder (hg.framed.handler.trans hn)]
      exact ⟨_, List.mem_cons_self, rfl⟩
    · exact .inl ⟨u, stays u hu hut, rids, hj⟩
  · right
    by_cases hut : u = t
    · subst hut
      have hq : u.job.query? = some ⟨.media rid, .decoded⟩ := by rw [hj]; rfl
      rcases reader_move hq hm with hquits | ⟨-, ⟨r, hr, -⟩ | ⟨gate', -, -, rfl⟩⟩
      · obtain ⟨p, hp, -⟩ := move_of_quits hquits hm
        rw [hj] at hp
        cases hp
      · rw [hr] at hgate
        cases hgate
      · exact ⟨_, List.mem_append_right _ (List.mem_singleton_self _), hj⟩
    · exact ⟨u, stays u hu hut, hj⟩

end Hub

namespace Session

variable {s : Session}

/-- A recorder that reads a layer without data is told, and waits, after receiving is over. -/
theorem greets_receive (hp : s.Proper) {es : List Encoding} {v : TrackView} {name rid : String} {gate : Gate}
    (hv : (s.step (.receiver (.receive es))).2.reply = .track v)
    (hn : s.hub.handler = some (.recorder name true)) (hr : v.rids.head? = some rid)
    (hg : ((s.perform (.receiver (.receive es))).1.hub.read ⟨.media rid, .decoded⟩).2.gate? = some gate) :
    ∃ t ∈ (s.step (.receiver (.receive es))).1.hub.tasks, t.job = .greet name rid
      ∧ ∃ gate, t.stage = .waiting gate := by
  have hv : (s.perform (.receiver (.receive es))).2 = .track v := hv
  have hproper : (s.perform (.receiver (.receive es))).1.Proper := hp.perform nofun
  obtain ⟨a, o⟩ := hproper.owned
  have hh : s.hub.held = true := by
    by_contra hn
    rw [perform_of_not_held (Bool.not_eq_true _ ▸ hn) rfl] at hv
    cases hv
  have hf : (s.perform (.receiver (.receive es))).1.hub.handler = some (.recorder name true) :=
    (handler_performReceiver (.receive es)).trans hn
  obtain ⟨hfh, htask⟩ : (s.perform (.receiver (.receive es))).1.hub.held = true
      ∧ ∃ t ∈ (s.perform (.receiver (.receive es))).1.hub.tasks, ∃ rids, t.job = .announce (rid :: rids) := by
    rcases s.perform_receive_cases hh es with he | ⟨e, he⟩ <;> rw [he] at hv ⊢
    · cases hv
      obtain ⟨rids, hrids⟩ := List.head?_eq_some_iff.mp hr
      exact ⟨hh, _, List.mem_append_right _ (List.mem_singleton_self _), rids, congrArg Job.announce hrids⟩
    · cases hv
  obtain ⟨-, hg⟩ := Hub.settle_keeps (h := (s.perform (.receiver (.receive es))).1.hub)
    (P := fun g _ => ((s.perform (.receiver (.receive es))).1.setHub g).Proper
      ∧ (s.perform (.receiver (.receive es))).1.hub.Greets g name rid)
    (fun h past t g hP hm => by
      have hproper := Proper.move hP.1 hm
      obtain ⟨a, o⟩ := hproper.owned
      exact ⟨hproper, hP.2.move hfh hf (Hub.of_mover? hm).1 o.ids (Hub.of_mover? hm).2⟩)
    ⟨hproper, .refl _, o.ids, ⟨gate, hg⟩, .inl htask⟩
  have hq := Hub.step?_settle (s.perform (.receiver (.receive es))).1.hub
  rcases hg.task with ⟨t, ht, rids, hj⟩ | ⟨t, ht, hj⟩
  · exact absurd hj ((Hub.rests_of_quiet hq ht).announced _)
  · refine ⟨t, ht, hj, ?_⟩
    have hw := (Hub.rests_of_quiet hq ht).waits ⟨.media rid, .decoded⟩ (by rw [hj]; rfl)
    cases hs : t.stage with
    | ready => exact absurd hs hw
    | waiting gate => exact ⟨gate, rfl⟩

/-- No command notes a call. -/
theorem Deed.events {c : Command} {g : Hub} {names : Table String Token} (d : s.Deed c g names) :
    g.events = s.hub.events := by
  cases d with
  | read q =>
    obtain ⟨u, hu, -⟩ := s.hub.read_transport q
    rw [hu]
  | startRelay => exact (Hub.rest_startRelay _ _ _).2.2
  | _ => rfl

/-- The calls that recorders have noted are those that were made. -/
theorem noted_invariant : Invariant fun s past =>
    s.hub.events.filter Event.isCall = (announcements past).filterMap Announcement.event? where
  move s past t h hi hm := by
    rw [announcements, filterMap_snoc, List.filterMap_append, ← announcements, ← hi]
    refine (Hub.calls_noted (Hub.of_mover? hm).2).trans (congrArg _ ?_)
    cases Change.announcement? _ with
    | none => rfl
    | some a => exact (filterMap_snoc Announcement.event? [] a).symm
  clock _ _ _ hi := hi
  command s past c hi hc := by
    rw [announcements, filterMap_snoc, (deed_of_perform hc).events, hi]
    exact congrArg _ (List.append_nil _).symm
  shown _ _ hi := hi

/-! ## Told once -/

/-- What is known of the calls of handlers after some commands. -/
structure AnnouncedOnce (start : Session) (cs : List Command) : Prop where
  /-- At most one call is made, whatever was registered, received, bound and stopped. -/
  once : (announcements (start.history cs)).length ≤ 1
  /-- A call is made exactly if some `receive` has given a track after a handler was registered; the handler is the one
  that was registered last, and gets all layers of that track. -/
  made : ∀ a, a ∈ announcements (start.history cs) ↔ ∃ done es rest v, cs = done ++ .receiver (.receive es) :: rest
    ∧ ((start.after done).step (.receiver (.receive es))).2.reply = .track v
    ∧ (start.registrations done).getLast? = some a.handler ∧ a.rids = v.rids
  /-- It is made in the step that gives the track, and no other step makes one. -/
  next : ∀ c, announcements ((start.after cs).changes c)
    = ((start.after cs).due c (start.registrations cs).getLast?).toList
  /-- What is seen of the track when the handler is called is what `receive` returns. -/
  track : ∀ c, ∀ x ∈ (start.after cs).changes c, ∀ a, x.announcement? = some a →
    ((start.after cs).step c).2.reply = .track ((start.after cs).setHub x.before).trackView
  /-- A call starts a relay, or is noted by a recorder. -/
  calls : ∀ x ∈ start.history cs, ∀ a, x.announcement? = some a → x.Tells a
  /-- Recorders note no other calls. -/
  noted : (start.after cs).hub.events.filter Event.isCall
    = (announcements (start.history cs)).filterMap Announcement.event?
  /-- `receive` returns, and what it returns does not depend on the handler. -/
  returns : ∀ es, ((start.after cs).step (.receiver (.receive es))).2.reply ≠ .pending
    ∧ ∀ handler,
      (((start.after cs).setHub { (start.after cs).hub with handler }).step (.receiver (.receive es))).2.reply
        = ((start.after cs).step (.receiver (.receive es))).2.reply
  /-- So it does when the handler reads from a layer that has no data yet, and is left waiting. -/
  waits : ∀ es v name rid gate, ((start.after cs).step (.receiver (.receive es))).2.reply = .track v →
    (start.registrations cs).getLast? = some (.recorder name true) → v.rids.head? = some rid →
    (((start.after cs).perform (.receiver (.receive es))).1.hub.read ⟨.media rid, .decoded⟩).2.gate? = some gate →
    ∃ t ∈ ((start.after cs).step (.receiver (.receive es))).1.hub.tasks, t.job = .greet name rid
      ∧ ∃ gate, t.stage = .waiting gate

/-- What is collected in the steps of a run is found in one of them. -/
theorem mem_steps {α : Type} {f : Session → Command → List α} {run : Session → List Command → List α}
    (nil : ∀ s, run s [] = []) (cons : ∀ s c cs, run s (c :: cs) = f s c ++ run (s.step c).1 cs) (s : Session)
    (cs : List Command) (a : α) :
    a ∈ run s cs ↔ ∃ done c rest, cs = done ++ c :: rest ∧ a ∈ f (s.after done) c := by
  induction cs generalizing s with
  | nil => simp [nil]
  | cons c cs ih =>
    rw [cons, List.mem_append, ih]
    constructor
    · rintro (ha | ⟨done, d, rest, rfl, ha⟩)
      · exact ⟨[], c, cs, rfl, ha⟩
      · exact ⟨c :: done, d, rest, rfl, ha⟩
    · rintro ⟨done, d, rest, he, ha⟩
      cases done with
      | nil =>
        cases he
        exact .inl ha
      | cons c' done =>
        cases he
        exact .inr ⟨done, d, rest, rfl, ha⟩

/-- The changes of a run are those of its steps. -/
theorem mem_history (s : Session) (cs : List Command) (x : Change) :
    x ∈ s.history cs ↔ ∃ done c rest, cs = done ++ c :: rest ∧ x ∈ (s.after done).changes c :=
  mem_steps (fun _ => rfl) (fun _ _ _ => rfl) s cs x

/-- What every move and every command brings about, all changes of a run have. -/
theorem forall_history {P : Change → Prop} (move : ∀ h t g, Hub.mover? h = some (t, g) → P ⟨.move t, h, g⟩)
    (command : ∀ (s : Session) c, (∀ n, c ≠ .advance n) →
      P ⟨.command c (s.perform c).2, s.hub, (s.perform c).1.hub⟩) (s : Session) (cs : List Command) :
    ∀ x ∈ s.history cs, P x := by
  have all : Invariant fun _ past => ∀ x ∈ past, P x := by
    refine ⟨fun s past t h hi hm => ?_, fun _ _ _ hi => hi, fun s past c hi hc => ?_, fun _ _ hi => hi⟩ <;>
      refine List.forall_mem_append.mpr ⟨hi, fun x hx => ?_⟩ <;> rw [List.mem_singleton.mp hx]
    · exact move s.hub t h hm
    · exact command s c hc
  exact @Invariant.after _ all cs s [] fun x hx => by cases hx

theorem due_eq_some_iff {c : Command} {last : Option Handler} {a : Announcement} :
    s.due c last = some a ↔ ∃ es v, c = .receiver (.receive es) ∧ (s.step c).2.reply = .track v
      ∧ last = some a.handler ∧ a.rids = v.rids := by
  simp only [due, Option.bind_eq_some_iff, Command.track?_eq_some_iff, Option.map_eq_some_iff]
  constructor
  · rintro ⟨v, ⟨⟨es, hc⟩, hv⟩, handler, hh, rfl⟩
    exact ⟨es, v, hc, hv, hh, rfl⟩
  · rintro ⟨es, v, hc, hv, hh, hr⟩
    exact ⟨v, ⟨⟨es, hc⟩, hv⟩, a.handler, hh, hr ▸ rfl⟩

/-- What is seen of a track does not change while the application holds the receiver, which stays the same. -/
theorem trackView_congr {h g : Hub} (hr : g.receiver = h.receiver) (hg : g.held = true) (hh : h.held = true) :
    (s.setHub g).trackView = (s.setHub h).trackView := by
  have alive : ∀ {k : Hub}, k.held = true → k.isAlive = true := fun hk => Bool.or_eq_true_iff.mpr (.inl hk)
  have hview : (s.setHub g).view = (s.setHub h).view := funext fun l => by
    simp only [view, setHub, alive hh, alive hg]
  rw [trackView, trackView, hview]
  simp only [setHub, hr]

/-- A call to receive replies at once, whatever the handler is. -/
theorem reply_receive (s : Session) (es : List Encoding) :
    (s.perform (.receiver (.receive es))).2 ≠ .pending
      ∧ ∀ handler, ((s.setHub { s.hub with handler }).perform (.receiver (.receive es))).2
        = (s.perform (.receiver (.receive es))).2 := by
  cases hh : s.hub.held with
  | false =>
    rw [perform_of_not_held hh rfl]
    exact ⟨nofun, fun handler => by rw [perform_of_not_held (s := s.setHub { s.hub with handler }) hh rfl]⟩
  | true =>
    refine ⟨?_, fun handler => ?_⟩
    · rcases s.perform_receive_cases hh es with he | ⟨e, he⟩ <;> rw [he] <;> exact nofun
    · rw [perform_receive hh, perform_receive (s := s.setHub { s.hub with handler }) hh]
      simp only [Session.receive, setHub]
      rcases s.hub.receiver.receive s.hub.transport es with ⟨r, u, e | ls⟩ <;> rfl

/-- In every run handlers are told at most once, of the track that was received, and only the last that was registered
before; nobody waits for it. -/
theorem announced_once (settings : Settings) (kind : Kind) (cs : List Command) :
    (new settings kind).AnnouncedOnce cs where
  once := by
    refine Nat.le_trans ?_ (announced_history settings kind cs).2
    rw [announcements, announced, List.length_filterMap_eq_countP, List.length_filterMap_eq_countP]
    refine List.countP_mono_left fun x _ hx => ?_
    obtain ⟨a, ha⟩ := Option.isSome_iff_exists.mp hx
    obtain ⟨rids, hr, -⟩ := Option.bind_eq_some_iff.mp ha
    exact Option.isSome_iff_exists.mpr ⟨rids, hr⟩
  made a := by
    have step : ∀ done c, (∃ x ∈ ((new settings kind).after done).changes c, x.announcement? = some a)
        ↔ ((new settings kind).after done).due c ((new settings kind).registrations done).getLast? = some a :=
      fun done c => by
        rw [← Option.mem_toList, ← announcements_changes]
        exact List.mem_filterMap.symm
    rw [announcements, List.mem_filterMap]
    constructor
    · rintro ⟨x, hx, ha⟩
      obtain ⟨done, c, rest, he, hx⟩ := (mem_history _ _ _).mp hx
      obtain ⟨es, v, rfl, hd⟩ := due_eq_some_iff.mp ((step done c).mp ⟨x, hx, ha⟩)
      exact ⟨done, es, rest, v, he, hd⟩
    · rintro ⟨done, es, rest, v, he, hd⟩
      obtain ⟨x, hx, ha⟩ := (step done _).mpr (due_eq_some_iff.mpr ⟨es, v, rfl, hd⟩)
      exact ⟨x, (mem_history _ _ _).mpr ⟨done, _, rest, he, hx⟩, ha⟩
  next := announcements_changes settings kind cs
  track c x hx a ha := by
    obtain ⟨rids, hr, -⟩ := Option.bind_eq_some_iff.mp ha
    obtain ⟨⟨es, rfl⟩, hf⟩ := framed_of_announced settings kind cs c hx hr
    have hmem : a ∈ announcements (((new settings kind).after cs).changes (.receiver (.receive es))) :=
      List.mem_filterMap.mpr ⟨x, hx, ha⟩
    rw [announcements_changes, Option.mem_toList] at hmem
    obtain ⟨-, v, -, hv, -⟩ := due_eq_some_iff.mp hmem
    generalize (new settings kind).after cs = s at hf hv ⊢
    have hv' : (s.perform (.receiver (.receive es))).2 = .track v := hv
    cases hh : s.hub.held with
    | false =>
      rw [perform_of_not_held hh rfl] at hv'
      cases hv'
    | true =>
      rcases s.perform_receive_cases hh es with he | ⟨e, he⟩ <;> rw [he] at hf hv'
      · cases hv'
        rw [hv, trackView_congr hf.receiver (hf.held.trans hh) (h := s.receiving es) hh]
      · cases hv'
  calls := forall_history (fun _ _ _ hm _ ha => Hub.calls_move (Hub.of_mover? hm).2 ha)
    (fun _ _ _ _ ha => by cases ha) _ _
  noted := @Invariant.after _ noted_invariant cs (new settings kind) [] rfl
  returns es := reply_receive _ es
  waits es v name rid gate hv hn hr hg := by
    refine greets_receive (proper_after settings kind cs) hv ?_ hr hg
    rw [handler_after, hn]
    rfl

/-- A recorder that replaces a relay is told once, and one that comes later is not. -/
example : announcements ((new {} .video).history [.relay (.add "relay" []), .receiver (.onTrack "first" false),
    .receiver (.receive []), .receiver (.receive [⟨"q", 1⟩, ⟨"h", 0⟩]), .receiver (.onTrack "second" true),
    .receiver (.bind "h" 2), .receiver (.receive [⟨"q", 1⟩]), .receiver .stop])
      = [⟨.recorder "first" false, ["q", "h"]⟩] := by decide +kernel

end Session

end MediaRelay
