import MediaRelay.Proofs.Gating
import MediaRelay.Proofs.Undoing

/-!
# Receiving in vain

When a stream cannot be opened, nothing is left of a call to receive but that it was made.

- `Hub.Unreceived` says what is around a receiver that has no track: it is created, or stopped once it was told to
  stop, and whatever runs is a read that was left running (`unreceived_after`);
- `Forfeited` is what is left of a receiver whose call failed, through all that happens later (`forfeited_keeps`);
- `Session.RollsBack` says what a call does that cannot open some stream, and `Session.StaysTrackless` how things go on
  from there: `receive_rolls_back`.
-/

namespace MediaRelay

open Receiver

/-! ## Receivers without a track -/

namespace Receiver

variable {σ : Type} {r : Receiver σ}

theorem Sound.track_eq_none (h : r.Sound) (hr : r.received = false) : r.track = none := by
  rw [h.received] at hr
  exact Option.isSome_eq_false_iff.mp hr |> Option.isNone_iff_eq_none.mp

theorem Sound.layer?_eq_none (h : r.Sound) (hr : r.received = false) (rid : String) : r.layer? rid = none := by
  simp [layer?, layers, h.track_eq_none hr]

/-- Without a track there is nothing to close, and a stop succeeds. -/
theorem stop_of_unreceived [Transport τ σ] (hs : r.phase ≠ .stopped) (hr : r.received = false) (t : τ) :
    (r.stop t).1.phase = .stopped ∧ (r.stop t).1.closing = true := by
  obtain ⟨hp, hc, -⟩ := stop_fields hs t
  have hok : (r.stop t).2.2 = .ok () := by simp [stop_of_ne_stopped hs, closeTrack, hr]
  rw [if_pos hok] at hp
  exact ⟨hp, hc⟩

/-- Without a track no layer is bound. -/
theorem bind_of_unreceived [Transport τ σ] (h : r.Sound) (hr : r.received = false) (t : τ) (rid : String)
    (ssrc : Ssrc) : (r.bind t rid ssrc).1 = r := by
  rcases r.bind_cases t rid ssrc with ⟨e, -, he⟩ | ⟨u, e, -, -, he⟩ | ⟨u, m, c, hn, -, -⟩
  · rw [he]
  · rw [he]
  · obtain ⟨-, -, l, hl, -⟩ := of_refuseBind hn
    rw [h.layer?_eq_none hr] at hl
    cases hl

end Receiver

/-- What is around a receiver that has not received: it has not been used, or is stopped, and all that runs are reads
that were left running. -/
structure Hub.Unreceived (h : Hub) : Prop where
  phase : h.receiver.phase = if h.receiver.closing then .stopped else .created
  reads : ∀ t ∈ h.tasks, ∃ q, t.job = .read q

namespace Hub

variable {h g : Hub} {t : Task}

/-- After a move of a read there are reads. -/
theorem reads_move (hu : ∀ u ∈ h.tasks, ∃ q, u.job = .read q) (ht : t ∈ h.tasks) (hm : h.move? t = some g) :
    ∀ u ∈ g.tasks, ∃ q, u.job = .read q := by
  have others : ∀ u ∈ h.others t.id, ∃ q, u.job = .read q := fun u hu' => hu u (Owned.mem_others.mp hu').1
  obtain ⟨q, hq⟩ := hu t ht
  intro u hu'
  have hr := retasked hm
  generalize g.tasks = ts at hr hu'
  cases hr with
  | gone => exact others u hu'
  | parked =>
    rcases List.mem_append.mp hu' with hu' | hu'
    · exact others u hu'
    · exact List.mem_singleton.mp hu' ▸ ⟨q, hq⟩
  | resumed =>
    rcases List.mem_cons.mp hu' with rfl | hu'
    · exact ⟨q, hq⟩
    · exact others u hu'
  | greeting hj | started hj =>
    rw [hq] at hj
    cases hj

/-- Without a track a read fails or waits for the track, and takes nothing. -/
theorem read_of_unreceived (hr : h.receiver.received = false) (q : Read) :
    h.read q = (h, .done (.error .closedPipe)) ∨ h.read q = (h, .awaitsTrack) := by
  unfold Hub.read
  split
  · exact .inl rfl
  · unfold Receiver.read standing
    cases h.receiver.closing <;> simp [hr]

/-- If the receiver is there the read waits until the receiver was told to stop, and fails from then on. -/
theorem read_of_unreceived_alive (hr : h.receiver.received = false) (ha : h.isAlive = true) (q : Read) :
    h.read q = (h, if h.receiver.closing then .done (.error .closedPipe) else .awaitsTrack) := by
  rw [read_of_alive ha]
  unfold Receiver.read standing
  cases h.receiver.closing <;> simp [hr]

/-- A read that can go on ends or waits for the track. -/
theorem move_of_unreceived (hr : h.receiver.received = false) {q : Read} (hq : t.job = .read q)
    (hm : h.move? t = some g) : g = h.retire t (.read (.error .closedPipe)) ∨ g = h.park t .track := by
  unfold move? goOn? at hm
  rcases read_of_unreceived hr q with he | he <;> simp only [hq, he] at hm
  · exact .inl (Option.some.inj hm).symm
  · exact .inr (park?_eq_some hm).2

/-- A read that waits for the track goes on to fail if the receiver was told to stop, and waits otherwise. -/
theorem move?_of_waiting (hr : h.receiver.received = false) (ht : t ∈ h.tasks) {q : Read} (hq : t.job = .read q)
    (hs : t.stage = .waiting .track) :
    h.move? t = if h.receiver.closing then some (h.retire t (.read (.error .closedPipe))) else none := by
  have ha : h.isAlive = true := isAlive_of_holdsReceiver ht (by simp [Task.holdsReceiver, hq, hs, Job.isReading])
  unfold move? goOn?
  simp only [hq, read_of_unreceived_alive hr ha q]
  cases h.receiver.closing <;> simp [park?, hs, Stage.rank]

end Hub

namespace Session

variable {s : Session} {c : Command}

/-- Where there is no track commands leave none but reads running. -/
theorem Deed.reads {g : Hub} {names : Table String Token} (d : s.Deed c g names) (hs : s.hub.receiver.Sound)
    (hr : s.hub.receiver.received = false) (hr' : g.receiver.received = false)
    (hu : ∀ t ∈ s.hub.tasks, ∃ q, t.job = .read q) : ∀ t ∈ g.tasks, ∃ q, t.job = .read q := by
  cases d with
  | read q =>
    obtain ⟨u, he, -⟩ := s.hub.read_transport q
    rwa [he]
  | spawnRead name q =>
    intro t ht
    rcases List.mem_append.mp ht with ht | ht
    · exact hu t ht
    · exact ⟨q, List.mem_singleton.mp ht ▸ rfl⟩
  | abort => exact fun t ht => hu t (Owned.mem_others.mp ht).1
  | @receive es ls _ hok =>
    rcases s.hub.receiver.receive_cases s.hub.transport es with ⟨e, -, he⟩ | ⟨u, e, -, he⟩ | ⟨u, ls, -, -, he⟩ <;>
      simp only [he] at hok
    · cases hok
    · cases hok
    · simp [Hub.spawn, he] at hr'
  | startRelay _ _ h =>
    rw [hr] at h
    cases h
  | startPump hl | startScheduler hl =>
    rw [hs.layer?_eq_none hr] at hl
    cases hl
  | _ => exact hu

/-- Where there is no track a command leaves the receiver as it was, or tells it to stop. -/
theorem Deed.phase {g : Hub} {names : Table String Token} (d : s.Deed c g names) (hs : s.hub.receiver.Sound)
    (hr : s.hub.receiver.received = false) (hr' : g.receiver.received = false)
    (hp : s.hub.receiver.phase = if s.hub.receiver.closing then .stopped else .created) :
    g.receiver.phase = if g.receiver.closing then .stopped else .created := by
  rcases d.receiver_cases with ⟨he, -⟩ | ⟨es, -, he⟩ | ⟨rid, ssrc, -, he⟩ | ⟨-, -, he⟩
  · rwa [he]
  · rw [he] at hr' ⊢
    rcases s.hub.receiver.receive_cases s.hub.transport es with ⟨e, -, he⟩ | ⟨u, e, -, he⟩ | ⟨u, ls, -, -, he⟩ <;>
      rw [he] at hr' ⊢
    · exact hp
    · exact hp
    · cases hr'
  · rwa [he, bind_of_unreceived hs hr]
  · rw [he]
    by_cases hst : s.hub.receiver.phase = .stopped
    · rwa [stop_of_stopped hst]
    · obtain ⟨h₁, h₂⟩ := stop_of_unreceived hst hr s.hub.transport
      rw [h₁, h₂]
      rfl

/-- Receiving is never undone. -/
theorem received_perform (hs : s.hub.receiver.Sound) (hc : ∀ n, c ≠ .advance n)
    (hr : (s.perform c).1.hub.receiver.received = false) : s.hub.receiver.received = false := by
  have h := (flags_perform hs hc).2
  dsimp only at h
  rw [hr] at h
  exact (Bool.or_eq_false_iff.mp h.symm).1

theorem unreceived_invariant : Invariant fun s _ =>
    s.hub.receiver.Sound ∧ (s.hub.receiver.received = false → s.hub.Unreceived) where
  move s _ t g h hm := by
    obtain ⟨ht, hm⟩ := Hub.of_mover? hm
    have hr := (Hub.move_of_move? hm).framed.receiver
    refine ⟨hr ▸ h.1, fun hg => ?_⟩
    have hu := h.2 (hr ▸ hg)
    exact ⟨hr ▸ hu.phase, Hub.reads_move hu.reads ht hm⟩
  clock _ _ _ h := ⟨h.1, fun hr => ⟨(h.2 hr).phase, (h.2 hr).reads⟩⟩
  command s _ c h hc := by
    refine ⟨sound_perform h.1 hc, fun hg => ?_⟩
    have hr := received_perform h.1 hc hg
    have hu := h.2 hr
    exact ⟨(deed_of_perform hc).phase h.1 hr hg hu.phase, (deed_of_perform hc).reads h.1 hr hg hu.reads⟩
  shown _ _ h := h

/-- In every state that a session comes to this is so as long as the receiver has not received. -/
theorem unreceived_after (settings : Settings) (kind : Kind) (cs : List Command)
    (hr : ((new settings kind).after cs).hub.receiver.received = false) :
    ((new settings kind).after cs).hub.Unreceived :=
  (@Invariant.after _ unreceived_invariant cs (new settings kind) []
    ⟨sound_new kind _, fun _ => ⟨rfl, fun t ht => by cases ht⟩⟩).2 hr

end Session

/-! ## What is left of a call that failed -/

/-- Whether a change is a call to drop a task, and drops it. -/
def Change.Aborts (x : Change) (t : Task) : Prop :=
  (∃ name reply, x.cause = .command (.reading (.abort name)) reply) ∧ t ∈ x.before.tasks ∧ t ∉ x.after.tasks

/-- A change that lets a read go with the error that the receiver is there no more. -/
def Change.Releases (x : Change) (t : Task) : Prop :=
  x.cause = .move t ∧ x.after.endings.find? t.id = some (.read (.error .closedPipe))

/-- What becomes of a read that waits for the track of a receiver that will have none: it may be dropped; otherwise it
waits until the receiver is told to stop, and is then let go. -/
def Parked (t : Task) (past : List Change) (h : Hub) : Prop :=
  (∃ x ∈ past, x.Aborts t) ∨ t ∈ h.tasks ∨ (wasStopped past = true ∧ ∃ x ∈ past, x.Releases t)

theorem Parked.snoc {t : Task} {past : List Change} {h g : Hub} {x : Change} (hp : Parked t past h)
    (hx : t ∈ h.tasks → wasStopped (past ++ [x]) = true ∧ x.Releases t ∨ x.Aborts t ∨ t ∈ g.tasks) :
    Parked t (past ++ [x]) g := by
  rcases hp with ⟨y, hy, ha⟩ | ht | ⟨hw, y, hy, hr⟩
  · exact .inl ⟨y, List.mem_append_left _ hy, ha⟩
  · rcases hx ht with ⟨hw, hr⟩ | ha | ht
    · exact .inr (.inr ⟨hw, x, by simp, hr⟩)
    · exact .inl ⟨x, by simp, ha⟩
    · exact .inr (.inl ht)
  · exact .inr (.inr ⟨by rw [Session.wasStopped_snoc, hw]; rfl, y, List.mem_append_left _ hy, hr⟩)

/-- A session whose receiver was called to receive in vain, and all that has happened since: some reads have waited for
the track all the time. -/
structure Forfeited (parked : List Task) (events : List Event) (s : Session) (past : List Change) : Prop where
  proper : s.Proper
  tidy : s.hub.Tidy
  sound : s.hub.receiver.Sound
  unreceived : s.hub.Unreceived
  received : s.hub.receiver.received = false
  attempted : s.hub.receiver.attempted = true
  closing : s.hub.receiver.closing = wasStopped past
  events : s.hub.events = events
  parked : ∀ t ∈ parked, t.stage = .waiting .track ∧ Parked t past s.hub

namespace Session

variable {parked : List Task} {events : List Event} {s : Session} {past : List Change} {c : Command}

/-- A receiver that was called to receive in vain stays as it is until it is told to stop. -/
theorem Deed.receiver_of_attempted {g : Hub} {names : Table String Token} (d : s.Deed c g names)
    (hs : s.hub.receiver.Sound) (hr : s.hub.receiver.received = false) (ha : s.hub.receiver.attempted = true) :
    g.receiver = s.hub.receiver ∨ g.receiver = (s.hub.receiver.stop s.hub.transport).1 := by
  rcases d.receiver_cases with ⟨he, -⟩ | ⟨es, -, he⟩ | ⟨rid, ssrc, -, he⟩ | ⟨-, -, he⟩
  · exact .inl he
  · rcases s.hub.receiver.receive_cases s.hub.transport es with ⟨e, -, h⟩ | ⟨u, e, h, -⟩ | ⟨u, ls, h, -, -⟩
    · exact .inl (by rw [he, h])
    all_goals
      rw [(of_refuseReceive h).2.2.2] at ha
      cases ha
  · exact .inl (he.trans (bind_of_unreceived hs hr _ _ _))
  · exact .inr he

/-- Where there is no track commands record nothing. -/
theorem Deed.events_of_unreceived {g : Hub} {names : Table String Token} (d : s.Deed c g names)
    (hr : s.hub.receiver.received = false) : g.events = s.hub.events := by
  cases d with
  | read q =>
    obtain ⟨u, he, -⟩ := s.hub.read_transport q
    rw [he]
  | startRelay _ _ h =>
    rw [hr] at h
    cases h
  | _ => rfl

theorem forfeited_move {t : Task} {g : Hub} (h : Forfeited parked events s past) (hm : s.hub.mover? = some (t, g)) :
    Forfeited parked events (s.setHub g) (past ++ [⟨.move t, s.hub, g⟩]) := by
  obtain ⟨ht, hm'⟩ := Hub.of_mover? hm
  have hr : g.receiver = s.hub.receiver := (Hub.move_of_move? hm').framed.receiver
  obtain ⟨q, hq⟩ := h.unreceived.reads t ht
  have hw : wasStopped (past ++ [⟨.move t, s.hub, g⟩]) = wasStopped past := by
    rw [wasStopped_snoc]
    exact Bool.or_false _
  exact {
    proper := h.proper.move hm
    tidy := h.tidy.move ht (Hub.move_of_move? hm')
    sound := hr ▸ h.sound
    unreceived := ⟨hr ▸ h.unreceived.phase, Hub.reads_move h.unreceived.reads ht hm'⟩
    received := hr ▸ h.received
    attempted := hr ▸ h.attempted
    closing := by
      rw [hw]
      exact hr ▸ h.closing
    events := by
      rcases Hub.move_of_unreceived h.received hq hm' with rfl | rfl <;> exact h.events
    parked := by
      intro u hu
      obtain ⟨hs, hp⟩ := h.parked u hu
      refine ⟨hs, hp.snoc fun hmem => ?_⟩
      obtain ⟨q', hq'⟩ := h.unreceived.reads u hmem
      obtain ⟨a, o⟩ := h.proper.owned
      rcases (asRead_move hm o.ids).kept u hmem q' hq' with hg | hc | ⟨_, _, hc⟩
      · exact .inr (.inr hg)
      · -- the read itself has gone on: it was told that the receiver is there no more
        cases hc
        rw [Hub.move?_of_waiting h.received ht hq hs] at hm'
        split at hm'
        · next hcl =>
          cases hm'
          refine .inl ⟨?_, rfl, Table.find?_insert_self _ _ _⟩
          exact hw.trans (h.closing.symm.trans hcl)
        · cases hm'
      · cases hc }

theorem forfeited_perform (h : Forfeited parked events s past) (hc : ∀ n, c ≠ .advance n) :
    Forfeited parked events (s.perform c).1
      (past ++ [⟨.command c (s.perform c).2, s.hub, (s.perform c).1.hub⟩]) := by
  have d := deed_of_perform (s := s) hc
  have hr := d.receiver_of_attempted h.sound h.received h.attempted
  have hreceived : (s.perform c).1.hub.receiver.received = false := by
    rcases hr with hr | hr <;> rw [hr]
    · exact h.received
    · by_cases hs : s.hub.receiver.phase = .stopped
      · rw [stop_of_stopped hs]
        exact h.received
      · exact (stop_fields hs _).2.2.1.trans h.received
  exact {
    proper := h.proper.perform hc
    tidy := d.tidy h.tidy
    sound := sound_perform h.sound hc
    unreceived := ⟨d.phase h.sound h.received hreceived h.unreceived.phase,
      d.reads h.sound h.received hreceived h.unreceived.reads⟩
    received := hreceived
    attempted := by
      rcases hr with hr | hr <;> rw [hr]
      · exact h.attempted
      · rw [attempted_stop]
        exact h.attempted
    closing := by
      rw [wasStopped_snoc, ← h.closing]
      exact (flags_perform h.sound hc).1
    events := (d.events_of_unreceived h.received).trans h.events
    parked := by
      intro u hu
      obtain ⟨hs, hp⟩ := h.parked u hu
      refine ⟨hs, hp.snoc fun hmem => .inr ?_⟩
      obtain ⟨q, hq⟩ := h.unreceived.reads u hmem
      by_cases hg : u ∈ (s.perform c).1.hub.tasks
      · exact .inr hg
      · rcases (asRead_perform h.tidy hc).kept u hmem q hq with hg' | hc' | hc'
        · exact .inr hg'
        · cases hc'
        · exact .inl ⟨hc', hmem, hg⟩ }

/-- What is left of a call that failed is left for good. -/
theorem forfeited_keeps : Invariant fun s past => Forfeited parked events s past where
  move _ _ _ _ h hm := forfeited_move h hm
  clock _ _ time h :=
    { proper := h.proper.clock time, tidy := h.tidy.of_eq rfl rfl rfl, sound := h.sound,
      unreceived := ⟨h.unreceived.phase, h.unreceived.reads⟩, received := h.received, attempted := h.attempted,
      closing := h.closing, events := h.events, parked := h.parked }
  command _ _ _ h hc := forfeited_perform h hc
  shown _ _ h :=
    { proper := h.proper.shown, tidy := h.tidy, sound := h.sound, unreceived := h.unreceived, received := h.received,
      attempted := h.attempted, closing := h.closing, events := h.events, parked := h.parked }

/-! ## A call that cannot open some stream -/

/-- What a call to receive does that cannot open some stream: nothing is left of it but that it was made. -/
structure RollsBack (s : Session) (es : List Encoding) (opened : List (Channel × Ssrc)) (ch : Channel) (ssrc : Ssrc) :
    Prop where
  /-- The first stream in order that cannot be opened, and the streams that were opened before. -/
  first : FirstRefused s.hub.transport es opened ch ssrc
  /-- Its error is the reply. -/
  reply : (s.step (.receiver (.receive es))).2.reply = .failed (QueueTransport.openRefusal ch ssrc)
  /-- After it nothing is tried. -/
  tried : (s.openings es).map Opening.target = opened ++ [(ch, ssrc)]
  noted : ∀ ch', ((s.step (.receiver (.receive es))).1.hub.transport.channel ch').opened
    = (s.hub.transport.channel ch').opened ++ (opened.filter fun x => x.1 = ch').map Prod.snd
  /-- Every stream that was opened gets one attempt to close it, whatever comes of the other attempts. -/
  undone : ((s.hub.receiver.closingsOfReceive s.hub.transport es).map Closing.target).Perm opened ∧ opened.Nodup
  controlFirst : ∀ x, (.control, x) ∈ opened → [(.control, x), (.media, x)].Sublist
    ((s.hub.receiver.closingsOfReceive s.hub.transport es).map Closing.target)
  /-- That is all that happens to any stream. -/
  stream : ∀ ch' x, (s.step (.receiver (.receive es))).1.hub.transport.stream ch' x = if (ch', x) ∈ opened
    then ((s.hub.transport.stream ch' x).close (QueueTransport.closeRefusal x)).1 else s.hub.transport.stream ch' x
  /-- Everything else is as it was. -/
  rest : (s.step (.receiver (.receive es))).1 = s.setHub { s.hub with
    receiver := { s.hub.receiver with attempted := true },
    transport := (s.step (.receiver (.receive es))).1.hub.transport }

/-- How things go on after a call to receive that failed, through more commands. -/
structure StaysTrackless (s : Session) (ds : List Command) : Prop where
  track : (s.after ds).hub.receiver.track = none ∧ (s.after ds).hub.receiver.received = false
  phase : (s.after ds).hub.receiver.phase = if wasStopped (s.history ds) then .stopped else .created
  /-- All that runs are reads that were left running, so that no handler is told of anything, and no datagram is
  taken. -/
  reads : ∀ x ∈ s.history ds, ∀ t, x.cause = .move t →
    (∃ q, t.job = .read q) ∧ x.after.transport = x.before.transport
  events : (s.after ds).hub.events = s.hub.events
  /-- The reads that wait go on waiting unless they are dropped, until the receiver is told to stop. -/
  parked : ∀ t ∈ s.hub.tasks, (∃ x ∈ s.history ds, x.Aborts t)
    ∨ if wasStopped (s.history ds) then ∃ x ∈ s.history ds, x.Releases t else t ∈ (s.after ds).hub.tasks
  /-- Other encodings are turned away. -/
  refused : (s.after ds).hub.held = true → ∀ es, es ≠ [] → (es.map Encoding.rid).Nodup →
    ((s.after ds).step (.receiver (.receive es))).1 = s.after ds
      ∧ ((s.after ds).step (.receiver (.receive es))).2.reply
        = .failed (if wasStopped (s.history ds) then .receiverStopped else .alreadyReceived)

/-- What is left of a call that failed decides how things go on. -/
theorem staysTrackless_of_forfeited (h : Forfeited s.hub.tasks s.hub.events s []) (hq : s.hub.step? = none)
    (hm : s.markShown = s) (ds : List Command) : s.StaysTrackless ds := by
  have ha := @Invariant.after _ forfeited_keeps ds s [] h
  rw [List.nil_append] at ha
  have hq' : (s.after ds).hub.step? = none := step?_after hq ds
  have hphase := ha.unreceived.phase
  rw [ha.closing] at hphase
  constructor
  case track => exact ⟨ha.sound.track_eq_none ha.received, ha.received⟩
  case phase => exact hphase
  case reads =>
    have along : Along (fun _ x => ∀ t, x.cause = .move t →
        (∃ q, t.job = .read q) ∧ x.after.transport = x.before.transport) [] (s.history ds) := by
      refine forfeited_keeps.along (fun s _ t g h hm => ?_) (fun _ _ _ _ _ _ hc => by cases hc) ds h
      rintro _ ⟨rfl⟩
      obtain ⟨ht, hm⟩ := Hub.of_mover? hm
      obtain ⟨q, hq⟩ := h.unreceived.reads t ht
      refine ⟨⟨q, hq⟩, ?_⟩
      rcases Hub.move_of_unreceived h.received hq hm with rfl | rfl <;> rfl
    exact fun x hx => (along.of_mem hx).elim fun _ h => h
  case events => exact ha.events
  case parked =>
    intro t ht
    obtain ⟨hs, hp⟩ := ha.parked t ht
    rcases hp with hab | hmem | ⟨hw, hr⟩
    · exact .inl hab
    · -- whoever is still there when all tasks wait has not been let go
      obtain ⟨q, hj⟩ := ha.unreceived.reads t hmem
      have hstill : (s.after ds).hub.move? t = none := List.findSome?_eq_none_iff.mp hq' t hmem
      rw [Hub.move?_of_waiting ha.received hmem hj hs, ha.closing] at hstill
      cases hw : wasStopped (s.history ds) with
      | true => simp [hw] at hstill
      | false => exact .inr hmem
    · exact .inr (by rwa [if_pos hw])
  case refused =>
    intro hh es he hd
    refine step_receive_of_refused hq' (markShown_after hm ds) hh ?_
    unfold refuseReceive
    rw [if_neg (by simpa using he), if_neg (not_not.mpr hd), hphase, ha.attempted]
    cases wasStopped (s.history ds) <;> rfl

/-- A receiver that was not told to stop and has no track keeps every read waiting for the track. -/
theorem waiting_of_quiet (hg : s.hub.AtGates) (hq : s.hub.step? = none) (hu : s.hub.Unreceived)
    (hr : s.hub.receiver.received = false) (hc : s.hub.receiver.closing = false) {t : Task} (ht : t ∈ s.hub.tasks) :
    t.stage = .waiting .track := by
  obtain ⟨q, hj⟩ := hu.reads t ht
  have hm : s.hub.move? t = none := List.findSome?_eq_none_iff.mp hq t ht
  obtain ⟨ha, gate, hgate, hs⟩ := hg.waits ht (q := q) (by rw [hj]; rfl) hm
  rw [Hub.read_of_unreceived_alive hr ha q, hc] at hgate
  cases hgate
  exact hs

/-- A session whose receiver was called to receive, with a transport that could not open some stream. -/
def afterFailure (s : Session) (u : QueueTransport) : Session :=
  s.setHub { s.hub with receiver := { s.hub.receiver with attempted := true }, transport := u }

/-- All tasks go on waiting after a call that failed. -/
theorem quiet_afterFailure (hu : s.hub.Unreceived) (hr : s.hub.receiver.received = false)
    (hc : s.hub.receiver.closing = false) (hw : ∀ t ∈ s.hub.tasks, t.stage = .waiting .track) (u : QueueTransport) :
    (s.afterFailure u).hub.step? = none := by
  refine List.findSome?_eq_none_iff.mpr fun t ht => ?_
  obtain ⟨q, hj⟩ := hu.reads t ht
  rw [Hub.move?_of_waiting (h := (s.afterFailure u).hub) hr ht hj (hw t ht)]
  exact if_neg (by simp [afterFailure, setHub, hc])

/-- What a call to receive comes to that is not turned away and cannot open some stream. -/
theorem step_receive_of_failed (hh : s.hub.held = true) (hm : s.markShown = s) {es : List Encoding} {e : Error}
    {u : QueueTransport} (he : s.hub.receiver.receive s.hub.transport es
      = ({ s.hub.receiver with attempted := true }, u, .error e)) (hq : (s.afterFailure u).hub.step? = none) :
    s.step (.receiver (.receive es)) = (s.afterFailure u, report s (s.afterFailure u) (.failed e)) := by
  have hp : s.perform (.receiver (.receive es)) = (s.afterFailure u, .failed e) := by
    rw [perform_receive hh, Session.receive, he]
    rfl
  have hs : (s.afterFailure u).setHub (s.afterFailure u).hub.settle = s.afterFailure u := by
    rw [(Hub.settle_of_quiet hq).1]
    rfl
  have hshown : (s.afterFailure u).markShown = s.afterFailure u := congrArg (afterFailure · u) hm
  simp only [step, act, hp, hs, hshown]

/-- A receiver that was not called before and is not stopped has not received and was not told to stop. -/
theorem fresh_after (settings : Settings) (kind : Kind) (cs : List Command)
    (hphase : ((new settings kind).after cs).hub.receiver.phase ≠ .stopped)
    (hfresh : ∀ x ∈ (new settings kind).history cs, x.attempts = false) :
    ((new settings kind).after cs).hub.receiver.attempted = false
      ∧ ((new settings kind).after cs).hub.receiver.received = false
      ∧ ((new settings kind).after cs).hub.receiver.closing = false := by
  have hm := @Invariant.after _ remembers_invariant cs (new settings kind) [] ⟨by simp [new, Hub.new], by simp⟩
  have ha : ((new settings kind).after cs).hub.receiver.attempted = false := Bool.eq_false_iff.mpr fun h => by
    obtain ⟨x, hx, hxa⟩ := hm.attempted.mp h
    rw [hfresh x hx] at hxa
    cases hxa
  have hr : ((new settings kind).after cs).hub.receiver.received = false := Bool.eq_false_iff.mpr fun h => by
    rw [(accounted_after settings kind cs).sound.attempted h] at ha
    cases ha
  exact ⟨ha, hr, Bool.eq_false_iff.mpr fun h => hphase (by rw [(unreceived_after settings kind cs hr).phase, h]; rfl)⟩

/-- A receiver that is not to turn a call away, and cannot open some stream, fails with the error of that stream. -/
theorem receive_of_firstRefused {es : List Encoding} {opened : List (Channel × Ssrc)} {ch : Channel} {ssrc : Ssrc}
    (h : FirstRefused s.hub.transport es opened ch ssrc) (hn : s.hub.receiver.refuseReceive es = none) :
    ∃ u, s.hub.receiver.receive s.hub.transport es
      = ({ s.hub.receiver with attempted := true }, u, .error (QueueTransport.openRefusal ch ssrc)) := by
  obtain ⟨-, herr⟩ := h.openings hn
  rcases s.hub.receiver.receive_cases s.hub.transport es with ⟨e, he, -⟩ | ⟨u, e, -, he⟩ | ⟨u, ls, -, -, he⟩
  · rw [hn] at he
    cases he
  · rw [he] at herr
    cases herr
    exact ⟨u, he⟩
  · rw [he] at herr
    cases herr

/-- A call rolls back that comes to nothing but the error of the first stream that cannot be opened. -/
theorem rollsBack_of_firstRefused {es : List Encoding} {opened : List (Channel × Ssrc)} {ch : Channel} {ssrc : Ssrc}
    (h : FirstRefused s.hub.transport es opened ch ssrc) (hn : s.hub.receiver.refuseReceive es = none)
    (hnodup : opened.Nodup)
    (hstep : s.step (.receiver (.receive es)) = (s.afterFailure (s.hub.receiver.receive s.hub.transport es).2.1,
      report s (s.afterFailure (s.hub.receiver.receive s.hub.transport es).2.1)
        (.failed (QueueTransport.openRefusal ch ssrc)))) :
    s.RollsBack es opened ch ssrc where
  first := h
  reply := by rw [hstep]; rfl
  tried := (h.openings hn).1
  noted ch' := by rw [hstep]; exact h.noted hn ch'
  undone := ⟨(h.undone hn).1, hnodup⟩
  controlFirst := (h.undone hn).2
  stream ch' x := by rw [hstep]; exact h.stream hn hnodup ch' x
  rest := by rw [hstep]; rfl

/-- A receiver that was not called before and is not stopped, some of whose streams cannot be opened: the call fails
with the error of the first of them, nothing is left open that it has opened, and nothing else is left of it than that
the receiver was called, now and whatever comes later. -/
theorem receive_rolls_back (settings : Settings) (kind : Kind) (cs : List Command) (es : List Encoding)
    (hheld : ((new settings kind).after cs).hub.held = true)
    (hphase : ((new settings kind).after cs).hub.receiver.phase ≠ .stopped)
    (hfresh : ∀ x ∈ (new settings kind).history cs, x.attempts = false)
    (hes : es ≠ []) (hrids : (es.map Encoding.rid).Nodup)
    (hssrcs : ((es.map Encoding.ssrc).filter (· ≠ 0)).Nodup)
    (hfails : ∃ x ∈ toOpen es, x.2 ∈ (((new settings kind).after cs).hub.transport.channel x.1).refusesOpen) :
    ∃ opened ch ssrc, ((new settings kind).after cs).RollsBack es opened ch ssrc
      ∧ ∀ ds, (((new settings kind).after cs).step (.receiver (.receive es))).1.StaysTrackless ds := by
  obtain ⟨ha, hr, hc⟩ := fresh_after settings kind cs hphase hfresh
  have hu := unreceived_after settings kind cs hr
  have hq : ((new settings kind).after cs).hub.step? = none := step?_after rfl cs
  have hm : ((new settings kind).after cs).markShown = (new settings kind).after cs := markShown_after rfl cs
  have hw : ∀ t ∈ ((new settings kind).after cs).hub.tasks, t.stage = .waiting .track :=
    fun t ht => waiting_of_quiet (atGates_after settings kind cs) hq hu hr hc ht
  have hnext : (new settings kind).after (cs ++ [.receiver (.receive es)])
      = (((new settings kind).after cs).step (.receiver (.receive es))).1 := after_append _ _ _
  have hproper := proper_after settings kind (cs ++ [.receiver (.receive es)])
  have htidy := tidy_after settings kind (cs ++ [.receiver (.receive es)])
  rw [hnext] at hproper htidy
  clear hnext hfresh
  generalize (new settings kind).after cs = s at *
  have hn : s.hub.receiver.refuseReceive es = none := by simp [refuseReceive, hes, hrids, hphase, ha]
  obtain ⟨opened, ch, ssrc, hfirst⟩ := exists_firstRefused hfails
  obtain ⟨u, he⟩ := receive_of_firstRefused hfirst hn
  have hq' := quiet_afterFailure hu hr hc hw u
  have hstep := step_receive_of_failed hheld hm he hq'
  refine ⟨opened, ch, ssrc, rollsBack_of_firstRefused hfirst hn (hfirst.nodup hssrcs) (by rw [hstep, he]), fun ds => ?_⟩
  rw [hstep] at hproper htidy ⊢
  refine staysTrackless_of_forfeited ?_ hq' (congrArg (afterFailure · u) hm) ds
  exact {
    proper := hproper
    tidy := htidy
    sound := hproper.sound
    unreceived := ⟨hu.phase, hu.reads⟩
    received := hr
    attempted := rfl
    closing := hc
    events := rfl
    parked := fun t ht => ⟨hw t ht, .inr (.inl ht)⟩ }

/-- Two of the three streams that could be opened cannot be closed; a read waits. -/
theorem receive_rolls_back_unclosed :
    let cs : List Command := [.transport (.refuseOpen .control 2), .transport (.refuseClose .media 2 true),
      .transport (.refuseClose .control 1 true), .transport (.push .media 1 [0]),
      .reading (.spawn "t" (some ⟨.control "q", .decoded⟩))]
    let s := (new {} .video).after cs
    s.hub.tasks ≠ [] ∧ ∃ opened ch ssrc, s.RollsBack [⟨"z", 0⟩, ⟨"q", 1⟩, ⟨"h", 2⟩, ⟨"f", 3⟩] opened ch ssrc
      ∧ ∀ ds, (s.step (.receiver (.receive [⟨"z", 0⟩, ⟨"q", 1⟩, ⟨"h", 2⟩, ⟨"f", 3⟩]))).1.StaysTrackless ds :=
  ⟨by decide +kernel, receive_rolls_back {} .video _ _ (by decide +kernel) (by decide +kernel) (by decide +kernel)
    (by decide) (by decide) (by decide) ⟨(.control, 2), by decide, by decide +kernel⟩⟩

end Session

end MediaRelay
