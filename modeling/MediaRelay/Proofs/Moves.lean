import MediaRelay.Hub.Settle
import MediaRelay.Proofs.Streams

/-!
# What a move can be

`Hub.Move` lists the moves of tasks once, each with what must have been the case for it; every later proof about moves
is by cases on it (`move_of_move?`). What a read that is done comes to is said by `read_done`.
-/

namespace MediaRelay

/-! ## Reads -/

/-- What a receiver's read of a stream comes to. -/
theorem Receiver.read_of_atStream {r : Receiver Ssrc} {t : QueueTransport} {q : Read} {ch : Channel} {s : Ssrc}
    (h : r.standing q.source = .atStream ch s) :
    (r.read t q).1 = (t.readStream ch s (q.buffer r.mtu)).1
      ∧ ((t.stream ch s).closed = true ∧ (r.read t q).2 = .done (.error .closedPipe)
        ∨ (t.stream ch s).closed = false ∧ (t.stream ch s).queued = [] ∧ (r.read t q).2 = .awaitsDatagram
        ∨ ∃ d, (t.stream ch s).closed = false ∧ (t.stream ch s).accepted[(t.stream ch s).taken]? = some d
            ∧ (r.read t q).2 = .done (if q.buffer r.mtu < d.length then .error .shortBuffer else q.data d)) := by
  have hr : Transport.readStream t ch s (q.buffer r.mtu)
      = ((t.readStream ch s (q.buffer r.mtu)).1, ((t.stream ch s).read (q.buffer r.mtu)).2) := rfl
  simp only [Receiver.read, h, hr]
  rcases (t.stream ch s).read_cases (q.buffer r.mtu) with ⟨hc, he⟩ | ⟨hc, hq, he⟩ | ⟨d, hc, hd, he⟩ <;> rw [he]
  · exact ⟨rfl, .inl ⟨hc, rfl⟩⟩
  · exact ⟨rfl, .inr (.inl ⟨hc, hq, rfl⟩)⟩
  · by_cases hn : q.buffer r.mtu < d.length
    · simp only [if_pos hn]
      exact ⟨trivial, .inr (.inr ⟨d, hc, hd, by rw [if_pos hn]⟩)⟩
    · simp only [if_neg hn]
      exact ⟨trivial, .inr (.inr ⟨d, hc, hd, by rw [if_neg hn]⟩)⟩

/-- A read leaves the transport alone, or reads one stream of it. -/
theorem Receiver.read_transport (r : Receiver Ssrc) (t : QueueTransport) (q : Read) :
    (r.read t q).1 = t ∨ ∃ ch s, r.standing q.source = .atStream ch s
      ∧ (r.read t q).1 = (t.readStream ch s (q.buffer r.mtu)).1 := by
  cases hs : r.standing q.source with
  | atStream ch s => exact .inr ⟨ch, s, rfl, (Receiver.read_of_atStream hs).1⟩
  | _ => exact .inl (by simp only [Receiver.read, hs])

namespace Hub

/-- What a read that is done did. -/
inductive Reads (h : Hub) (q : Read) : QueueTransport → Except Error Data → Prop
  /-- The receiver is gone. -/
  | gone {rid : String} (hq : q.source = .media rid) (ha : h.isAlive = false) :
    Reads h q h.transport (.error .closedPipe)
  /-- There is no stream to read. -/
  | failed {e : Error} (hs : h.receiver.standing q.source = .failed e) : Reads h q h.transport (.error e)
  /-- The stream was closed. -/
  | ended {ch : Channel} {s : Ssrc} (hs : h.receiver.standing q.source = .atStream ch s)
      (hc : (h.transport.stream ch s).closed = true) :
      Reads h q (h.transport.readStream ch s (q.buffer h.receiver.mtu)).1 (.error .closedPipe)
  /-- The first datagram of the stream was taken. -/
  | took {ch : Channel} {s : Ssrc} {d : Datagram} (hs : h.receiver.standing q.source = .atStream ch s)
      (hc : (h.transport.stream ch s).closed = false)
      (hd : (h.transport.stream ch s).accepted[(h.transport.stream ch s).taken]? = some d) :
      Reads h q (h.transport.readStream ch s (q.buffer h.receiver.mtu)).1
        (if q.buffer h.receiver.mtu < d.length then .error .shortBuffer else q.data d)

theorem receiver_read_done {h : Hub} {q : Read} {r : Except Error Data}
    (hr : (h.receiver.read h.transport q).2 = .done r) : Reads h q (h.receiver.read h.transport q).1 r := by
  cases hs : h.receiver.standing q.source with
  | failed e =>
    simp only [Receiver.read, hs] at hr ⊢
    cases hr
    exact .failed hs
  | awaitsTrack => simp only [Receiver.read, hs] at hr; cases hr
  | awaitsLayer => simp only [Receiver.read, hs] at hr; cases hr
  | atStream ch s =>
    obtain ⟨ht, ⟨hc, he⟩ | ⟨-, -, he⟩ | ⟨d, hc, hd, he⟩⟩ := Receiver.read_of_atStream (t := h.transport) hs <;>
      rw [he] at hr <;> cases hr <;> rw [ht]
    · exact .ended hs hc
    · exact .took hs hc hd

/-- A read that is done changes nothing but the transport. -/
theorem read_done {h g : Hub} {q : Read} {r : Except Error Data} (hr : h.read q = (g, .done r)) :
    ∃ u, g = { h with transport := u } ∧ Reads h q u r := by
  unfold Hub.read at hr
  split at hr
  · next rid hq ha =>
    cases hr
    exact ⟨h.transport, rfl, .gone hq ha⟩
  · have hp := congrArg Prod.snd hr
    have hg := congrArg Prod.fst hr
    exact ⟨_, hg.symm, receiver_read_done hp⟩

/-- What a read of a receiver that is there comes to. -/
theorem read_of_alive {h : Hub} (ha : h.isAlive = true) (q : Read) :
    h.read q = ({ h with transport := (h.receiver.read h.transport q).1 }, (h.receiver.read h.transport q).2) := by
  unfold Hub.read
  rw [ha]
  cases q.source <;> rfl

/-- A read of decoded media gives packets. -/
theorem Reads.media {h : Hub} {rid : String} {u : QueueTransport} {data : Data}
    (hr : Reads h ⟨.media rid, .decoded⟩ u (.ok data)) : ∃ p, data = .media p := by
  generalize hx : (.ok data : Except Error Data) = x at hr
  cases hr with
  | gone => cases hx
  | failed => cases hx
  | ended => cases hx
  | took =>
    split at hx
    · cases hx
    · simp only [Read.data, Source.channel] at hx
      cases hd : decodeMedia _ with
      | error e => rw [hd] at hx; cases hx
      | ok p => rw [hd] at hx; cases hx; exact ⟨p, rfl⟩

/-! ## Moves -/

/-- The moves of a task, and the hub after each. -/
inductive Move (h : Hub) (t : Task) : Hub → Prop
  /-- A read comes to its next gate. -/
  | park {g : Gate} (hj : t.job.isReading) (hg : ∀ time, g ≠ .deadline time)
      (hr : (Stage.waiting g).rank < t.stage.rank) : Move h t (h.park t g)
  | read {q : Read} {u : QueueTransport} {r : Except Error Data} (hj : t.job = .read q) (hq : Reads h q u r) :
      Move h t (retire { h with transport := u } t (.read r))
  /-- A pump forwards a packet. -/
  | forward {p : Pump} {u : QueueTransport} {packet : Rtp.Packet} {e : Egress} (hj : t.job = .pump p)
      (hh : p.forwarder.has p.rid) (hc : h.isCancelled p.token = false)
      (hq : Reads h ⟨.media p.rid, .decoded⟩ u (.ok (.media packet)))
      (hf : p.forwarder.forward h.egress p.rid packet = (e, .ok ())) :
      Move h t (resume { h with transport := u, egress := e } t t.job)
  /-- A pump has read a packet that cannot be forwarded. -/
  | refuse {p : Pump} {u : QueueTransport} {packet : Rtp.Packet} {e : Egress} {cause : Error} (hj : t.job = .pump p)
      (hh : p.forwarder.has p.rid) (hc : h.isCancelled p.token = false)
      (hq : Reads h ⟨.media p.rid, .decoded⟩ u (.ok (.media packet)))
      (hf : p.forwarder.forward h.egress p.rid packet = (e, .error cause)) :
      Move h t (failPump { h with transport := u, egress := e } t p cause)
  /-- A pump cannot read. -/
  | fail {p : Pump} {u : QueueTransport} {cause : Error} (hj : t.job = .pump p) (hh : p.forwarder.has p.rid)
      (hc : h.isCancelled p.token = false) (hq : Reads h ⟨.media p.rid, .decoded⟩ u (.error cause)) :
      Move h t (failPump { h with transport := u } t p cause)
  /-- A pump has nowhere to forward to. -/
  | unrouted {p : Pump} (hj : t.job = .pump p) (hh : p.forwarder.has p.rid = false) :
      Move h t (h.failPump t p (.noOutboundTrack p.rid))
  /-- A pump is cancelled. -/
  | cease {p : Pump} (hj : t.job = .pump p) (hh : p.forwarder.has p.rid) (hc : h.isCancelled p.token) :
      Move h t (h.retire t (.pump p.rid (.ok ())))
  /-- A scheduler is cancelled, or has no period. -/
  | expire {s : Scheduler} (hj : t.job = .feedback s) (hc : h.isCancelled s.token = true ∨ s.period = 0) :
      Move h t (h.retire t .feedback)
  /-- A scheduler gives feedback. -/
  | round {s : Scheduler} {time : Nat} (hj : t.job = .feedback s) (hc : h.isCancelled s.token = false)
      (hp : s.period ≠ 0) (hs : t.stage = .waiting (.deadline time)) (hd : time ≤ h.clock) :
      Move h t (park { h with feedback := h.feedback.writeRound (h.ssrcOf s.rid) s.bitrate } t
        (.deadline (h.clock + s.period)))
  /-- A scheduler begins. -/
  | begin {s : Scheduler} (hj : t.job = .feedback s) (hc : h.isCancelled s.token = false) (hp : s.period ≠ 0)
      (hs : t.stage = .ready) : Move h t (h.park t (.deadline (h.clock + s.period)))
  | announce {rids : List String} (hj : t.job = .announce rids) : Move h t (h.announce t rids)
  | greet {name rid : String} {u : QueueTransport} {r : Except Error Data} (hj : t.job = .greet name rid)
      (hq : Reads h ⟨.media rid, .decoded⟩ u r) : Move h t (greeted t name { h with transport := u } r)

section Inversion

variable {h g : Hub} {t : Task}

theorem move_of_park? {gate : Gate} (hj : t.job.isReading) (hg : ∀ time, gate ≠ .deadline time)
    (hp : h.park? t gate = some g) : Move h t g := by
  unfold park? at hp
  split at hp
  · next hr => cases hp; exact .park hj hg hr
  · cases hp

/-- Going on with a read comes to its next gate or finishes it. -/
theorem move_of_goOn? {q : Read} {finish : Hub → Except Error Data → Hub} (hj : t.job.isReading)
    (hf : ∀ u r, Reads h q u r → Move h t (finish { h with transport := u } r)) (hm : h.goOn? t q finish = some g) :
    Move h t g := by
  unfold goOn? at hm
  split at hm
  · next hr =>
    cases hm
    obtain ⟨u, rfl, hq⟩ := read_done hr
    exact hf u _ hq
  · exact move_of_park? hj (by intro _ hc; cases hc) hm
  · exact move_of_park? hj (by intro _ hc; cases hc) hm
  · exact move_of_park? hj (by intro _ hc; cases hc) hm

theorem move_of_movePump? {p : Pump} (hj : t.job = .pump p) (hm : h.movePump? t p = some g) : Move h t g := by
  unfold movePump? at hm
  split at hm
  · next hh => cases hm; exact .unrouted hj (by simpa using hh)
  · next hh =>
    have hh : p.forwarder.has p.rid := by simpa using hh
    split at hm
    · next hc => cases hm; exact .cease hj hh hc
    · next hc =>
      have hc : h.isCancelled p.token = false := by simpa using hc
      refine move_of_goOn? (by rw [hj]; rfl) (fun u r hq => ?_) hm
      cases r with
      | error cause => exact .fail hj hh hc hq
      | ok data =>
        obtain ⟨packet, rfl⟩ := hq.media
        unfold pumped
        dsimp only
        split
        · next hf => exact .forward hj hh hc hq hf
        · next hf => exact .refuse hj hh hc hq hf

theorem move_of_moveScheduler? {s : Scheduler} (hj : t.job = .feedback s) (hm : h.moveScheduler? t s = some g) :
    Move h t g := by
  unfold moveScheduler? at hm
  split at hm
  · next hc => cases hm; exact .expire hj hc
  · next hc =>
    have hl : h.isCancelled s.token = false := by
      cases hl : h.isCancelled s.token with
      | false => rfl
      | true => exact absurd (Or.inl hl) hc
    have hp : s.period ≠ 0 := fun e => hc (Or.inr e)
    split at hm
    · next time hs =>
      split at hm
      · next hd => cases hm; exact .round hj hl hp hs hd
      · cases hm
    · cases hm
    · next hs => cases hm; exact .begin hj hl hp hs

/-- Every move is one of those listed. -/
theorem move_of_move? (hm : h.move? t = some g) : Move h t g := by
  unfold move? at hm
  split at hm
  · next q hj => exact move_of_goOn? (by rw [hj]; rfl) (fun u r hq => .read hj hq) hm
  · next hj => exact move_of_movePump? hj hm
  · next hj => exact move_of_moveScheduler? hj hm
  · next hj => cases hm; exact .announce hj
  · next hj => exact move_of_goOn? (by rw [hj]; rfl) (fun u r hq => .greet hj hq) hm

end Inversion

/-! ## What tasks cannot do -/

/-- What is kept when a relay is marked as started and when the tasks of a layer are started is kept when the relay is
started. -/
theorem startRelay_keeps {P : Hub → Prop} {h : Hub} {index : Nat} (hp : P h)
    (mark : P { h with relays := h.relays.modify index fun r => { r with started := true } })
    (layer : ∀ g r rid, P g → P (g.startLayer index r rid)) (rids : List String) : P (h.startRelay index rids).1 := by
  have layers : ∀ (r : Relay) (rids : List String) (g : Hub), P g →
      P (rids.foldl (fun h rid => h.startLayer index r rid) g) := by
    intro r rids
    induction rids with
    | nil => exact fun g hg => hg
    | cons rid rids ih => exact fun g hg => ih _ (layer g r rid hg)
  unfold startRelay
  split
  · exact hp
  · split
    · exact hp
    · dsimp only
      split
      · exact mark
      · exact layers _ rids _ mark

/-- The settings, the receiver, the hold on it, its handler and the clock are the same. -/
structure Framed (h g : Hub) : Prop where
  settings : g.settings = h.settings
  receiver : g.receiver = h.receiver
  held : g.held = h.held
  handler : g.handler = h.handler
  clock : g.clock = h.clock

theorem Framed.refl (h : Hub) : h.Framed h :=
  ⟨rfl, rfl, rfl, rfl, rfl⟩

theorem Framed.trans {h g k : Hub} (hg : h.Framed g) (hk : g.Framed k) : h.Framed k :=
  ⟨hk.settings.trans hg.settings, hk.receiver.trans hg.receiver, hk.held.trans hg.held, hk.handler.trans hg.handler,
    hk.clock.trans hg.clock⟩

theorem framed_startLayer (h : Hub) (index : Nat) (r : Relay) (rid : String) : h.Framed (h.startLayer index r rid) := by
  unfold startLayer
  dsimp only
  split <;> exact ⟨rfl, rfl, rfl, rfl, rfl⟩

theorem framed_startRelay (h : Hub) (index : Nat) (rids : List String) : h.Framed (h.startRelay index rids).1 :=
  startRelay_keeps (.refl h) ⟨rfl, rfl, rfl, rfl, rfl⟩
    (fun g r rid hg => hg.trans (g.framed_startLayer index r rid)) rids

/-- Only the failing pump goes. -/
theorem failPump_fields (h : Hub) (t : Task) (p : Pump) (cause : Error) :
    (h.failPump t p cause).transport = h.transport ∧ (h.failPump t p cause).egress = h.egress
      ∧ (h.failPump t p cause).tasks = h.others t.id := by
  unfold failPump
  split <;> exact ⟨rfl, rfl, rfl⟩

/-- A pump that has got a packet forwards it. -/
theorem egress_pumped_packet (h : Hub) (t : Task) (p : Pump) (packet : Rtp.Packet) :
    (pumped t p h (.ok (.media packet))).egress = (p.forwarder.forward h.egress p.rid packet).1 := by
  unfold pumped
  dsimp only
  rcases p.forwarder.forward h.egress p.rid packet with ⟨e, cause | ⟨⟩⟩
  · exact (failPump_fields _ _ _ _).2.1
  · rfl

/-- A pump that has not got a packet writes nothing. -/
theorem egress_pumped_error (h : Hub) (t : Task) (p : Pump) (cause : Error) :
    (pumped t p h (.error cause)).egress = h.egress :=
  (failPump_fields _ _ _ _).2.1

theorem framed_failPump (h : Hub) (t : Task) (p : Pump) (cause : Error) : h.Framed (h.failPump t p cause) := by
  unfold failPump
  split <;> exact ⟨rfl, rfl, rfl, rfl, rfl⟩

theorem framed_announce (h : Hub) (t : Task) (rids : List String) : h.Framed (h.announce t rids) := by
  unfold announce
  split
  · exact ⟨rfl, rfl, rfl, rfl, rfl⟩
  · next index hi =>
    refine .trans ?_ ((h.dismiss t).framed_startRelay index rids)
    exact ⟨rfl, rfl, rfl, rfl, rfl⟩
  · dsimp only
    split <;> exact ⟨rfl, rfl, rfl, rfl, rfl⟩

/-- No task changes the receiver, its handler or the clock. -/
theorem Move.framed {h g : Hub} {t : Task} (m : Move h t g) : h.Framed g := by
  cases m with
  | refuse | fail =>
    refine .trans ?_ (framed_failPump _ t _ _)
    exact ⟨rfl, rfl, rfl, rfl, rfl⟩
  | unrouted => exact framed_failPump _ t _ _
  | announce => exact h.framed_announce t _
  | greet =>
    unfold greeted
    split <;> exact ⟨rfl, rfl, rfl, rfl, rfl⟩
  | _ => exact ⟨rfl, rfl, rfl, rfl, rfl⟩

end Hub

end MediaRelay
