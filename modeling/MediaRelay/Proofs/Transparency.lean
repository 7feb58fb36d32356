import MediaRelay.Proofs.Conservation
import MediaRelay.Proofs.Delivery
import MediaRelay.Proofs.Packing

/-!
# What comes out of a relay is what went in

A packet that can be written is pushed to the stream of a layer, read off it by a pump, and handed to the writer of an
outbound track: there it is as it was but for the SSRC, perhaps the payload type, and the count of blank extension
bytes (`StaticTrack.publish`).

- `Change.wrote_of_pump`: what a pump leaves at the writers in the change in which it takes a datagram;
- `Session.accepted_write`: the datagram of the packet is the next one of its stream;
- `Session.relay_transparent`: so every pump that takes it publishes the packet, and a relay that is left alone does
  take it.
-/

namespace MediaRelay

/-- A packet as a static track publishes it, after it went over the wire. -/
def StaticTrack.publish (st : StaticTrack) (p : Rtp.Packet) : Rtp.Packet :=
  { p with ssrc := st.ssrc, payloadType := st.payloadType.getD p.payloadType, blankExtensionBytes := p.filling }

/-- The outbound track of a number is a static one that is bound to a writer, which takes packets. -/
structure Egress.Bound (e : Egress) (track : Nat) (st : StaticTrack) (name : String) : Prop where
  track : e.tracks[track]? = some (.static st)
  writer : st.writer = some name
  opened : (e.writer name).closed = false
  healthy : (e.writer name).failing = false

theorem StaticTrack.stamp_eq_publish (st : StaticTrack) (p : Rtp.Packet) :
    st.stamp { p with blankExtensionBytes := p.filling, ssrc := st.ssrc } = st.publish p := by
  unfold stamp publish
  cases st.payloadType <;> rfl

theorem Egress.Bound.fate {e : Egress} {track : Nat} {st : StaticTrack} {name : String} (h : e.Bound track st name)
    (p : Rtp.Packet) : e.fate track { p with blankExtensionBytes := p.filling } = .ok (some (name, st.publish p)) := by
  simp [Egress.fate, h.track, h.writer, h.opened, h.healthy, ← st.stamp_eq_publish]

/-! ## What a pump leaves at the writers -/

/-- The packet of the datagram of a writable packet. -/
theorem decodeMedia_datagram {p : Rtp.Packet} (hp : p.Writable) :
    decodeMedia p.datagram = .ok { p with blankExtensionBytes := p.filling } := by
  rw [decodeMedia, Rtp.Packet.decode_datagram hp]

namespace Change

variable {x : Change} {ssrc : Ssrc} {t : Task} {q : Pump} {track : Nat}

/-- In the change in which a pump takes a datagram that is a packet, it leaves at the writers what is the fate of the
packet. -/
theorem wrote_of_pump (hx : x.Handles) (hc : x.cause = .move t) (hj : t.job = .pump q)
    (hroute : q.forwarder.routes.find? q.rid = some track) {d : Datagram} {p : Rtp.Packet}
    (ht : x.taken .media ssrc = [d]) (hlen : d.length ≤ x.before.receiver.mtu) (hd : decodeMedia d = .ok p)
    (name : String) : x.wrote name = recordAt name (x.before.egress.fate track p) := by
  have hquery : t.job.query? = some ⟨.media q.rid, .decoded⟩ := by rw [hj]; rfl
  have hread : ∃ n, x.streamRead? = some (.media, ssrc, n) := by
    by_contra hn
    rw [hx.idle (not_exists.mp hn)] at ht
    cases ht
  obtain ⟨n, hr⟩ := hread
  have hn : n = x.before.receiver.mtu := by
    simp only [streamRead?, hc, hquery] at hr
    split at hr
    · cases hr
    · exact (Hub.target?_eq_some_iff.mp hr).2.2
  cases hx.reads hr with
  | ended _ _ hnil | waits _ _ _ hnil =>
    rw [hnil] at ht
    cases ht
  | takes _ _ hs htd =>
    cases ht.symm.trans htd
    simp only [Shows, hc] at hs
    have hs := hs _ hquery
    rw [if_neg (by omega)] at hs
    simp only [Read.progress, Read.data, Source.channel, hd, Except.map] at hs
    obtain ⟨u, hs⟩ := hs
    have hw := (x.before.egress.forward_fate hroute p).1 name
    have he : x.after.egress = (q.forwarder.forward x.before.egress q.rid p).1 := by
      rw [hs, Hub.finish, hj]
      exact Hub.egress_pumped_packet _ t q p
    rw [wrote, he, hw, List.drop_left]

/-- A change that takes something from a stream takes the next datagram. -/
theorem Handles.takes_next (hx : x.Handles) {ch : Channel} (ht : x.taken ch ssrc ≠ []) :
    ∃ d, x.taken ch ssrc = [d]
      ∧ (x.before.transport.stream ch ssrc).accepted[(x.before.transport.stream ch ssrc).taken]? = some d := by
  have hread : ∃ n, x.streamRead? = some (ch, ssrc, n) := by
    by_contra hn
    exact ht (hx.idle (not_exists.mp hn))
  obtain ⟨n, hr⟩ := hread
  cases hx.reads hr with
  | ended _ _ hnil | waits _ _ _ hnil => exact absurd hnil ht
  | takes _ hq _ htd =>
    rw [QueueStream.queued, List.head?_drop] at hq
    exact ⟨_, htd, hq⟩

/-- A pump takes the datagram that comes after `k` others in a stream, while the outbound track of its RID is bound to
a writer that takes packets. -/
structure Relays (x : Change) (ssrc : Ssrc) (k : Nat) (st : StaticTrack) (name : String) : Prop where
  pump : ∃ t q track, x.cause = .move t ∧ t.job = .pump q ∧ q.forwarder.routes.find? q.rid = some track
    ∧ x.before.egress.Bound track st name
  next : (x.before.transport.stream .media ssrc).taken = k
  takes : x.taken .media ssrc ≠ []

/-- A pump that takes the datagram of a writable packet publishes the packet, and nothing elsewhere. -/
theorem Relays.wrote {k : Nat} {st : StaticTrack} {name : String} (hr : x.Relays ssrc k st name) (hx : x.Handles)
    {p : Rtp.Packet} (hp : p.Writable) (hlen : p.datagram.length ≤ x.before.receiver.mtu)
    (hd : ∀ d, (x.before.transport.stream .media ssrc).accepted[k]? = some d → d = p.datagram) :
    x.wrote name = [st.publish p] ∧ ∀ other, other ≠ name → x.wrote other = [] := by
  obtain ⟨t, q, track, hc, hj, hroute, hb⟩ := hr.pump
  obtain ⟨d, htaken, hnext⟩ := hx.takes_next hr.takes
  rw [hr.next] at hnext
  obtain rfl := hd d hnext
  have hw := wrote_of_pump hx hc hj hroute htaken hlen (decodeMedia_datagram hp)
  simp only [hb.fate, recordAt] at hw
  exact ⟨by rw [hw, if_pos rfl], fun other ho => by rw [hw, if_neg (Ne.symm ho)]⟩

end Change

/-- A relay was started for a layer that is bound to a stream, its packets go to an outbound track, and nothing was
closed, stopped, cancelled or let go of. -/
structure Hub.Relaying (h : Hub) (relay track : Nat) (rid : String) (ssrc : Ssrc) : Prop where
  relay : ∃ r, h.relays[relay]? = some r ∧ r.started = true ∧ r.forwarder.routes.find? rid = some track
    ∧ h.isCancelled r.token = false
  layer : ∃ l, h.receiver.layer? rid = some l ∧ l.isReady = true ∧ l.ssrc = ssrc
  held : h.held = true
  going : h.receiver.closing = false
  stream : (h.transport.stream .media ssrc).closed = false

theorem Hub.Relaying.undisturbed {h : Hub} {relay track : Nat} {rid : String} {ssrc : Ssrc}
    (hr : h.Relaying relay track rid ssrc) : h.Undisturbed relay rid ssrc track := by
  obtain ⟨r, hget, -, hroute, hc⟩ := hr.relay
  obtain ⟨l, hl, hready, rfl⟩ := hr.layer
  refine ⟨hr.held, hr.going, fun ls hls => ?_, fun k hk _ => ?_, hr.stream, fun r' hr' => ?_⟩
  · rw [← Receiver.layers_of_track hls]
    exact List.mem_map.mpr ⟨l, List.mem_of_find?_eq_some hl, by simpa using List.find?_some hl⟩
  · rw [hl] at hk
    cases hk
    rfl
  · rw [hget] at hr'
    cases hr'
    exact ⟨hc, hroute⟩

namespace Session

variable {s : Session} {past : List Change} {relay track : Nat} {rid : String} {ssrc : Ssrc} {p : Rtp.Packet}

/-- What is settled of a relay that is left alone: its pump has taken all datagrams of the stream, or it has given up at
the last that it has taken. -/
theorem Delivering.settled (hd : Delivering s past relay track rid ssrc) (hq : s.hub.step? = none)
    (hr : s.hub.Relaying relay track rid ssrc) :
    (s.hub.transport.stream .media ssrc).taken = (s.hub.transport.stream .media ssrc).accepted.length
      ∨ ∃ init last, handled past relay rid ssrc = init ++ [last]
        ∧ (fate s.hub.receiver.mtu track last).isOk = false := by
  have hu := hr.undisturbed
  obtain ⟨r, hget, hst, -⟩ := hr.relay
  obtain ⟨l, hl, hready, rfl⟩ := hr.layer
  obtain ⟨a, o⟩ := hd.proper.owned
  cases hd.progress hu with
  | unstarted h =>
    rw [h r hget] at hst
    cases hst
  | running _ hp _ =>
    have hnil := queued_of_settled hq hu hd.accounted o hl hready hp
    rw [QueueStream.queued, List.drop_eq_nil_iff] at hnil
    exact .inl (Nat.le_antisymm hd.stream hnil)
  | failed _ _ hH _ hlast => exact .inr ⟨_, _, hH, hlast⟩

/-- Where a datagram is among those that were handled. -/
theorem handled_split {H : List (Datagram × Egress)} {ds : List Datagram} {n k : Nat} {d : Datagram}
    (hH : H.map Prod.fst = ds.take n) (hk : k < H.length) (hd : ds[k]? = some d) :
    ∃ init e rest, H = init ++ (d, e) :: rest ∧ init.length = k := by
  have hfst : (H.map Prod.fst)[k]? = some (H[k]).1 := by
    rw [List.getElem?_map, List.getElem?_eq_getElem hk, Option.map_some]
  refine ⟨H.take k, (H[k]).2, H.drop (k + 1), ?_, List.length_take_of_le (Nat.le_of_lt hk)⟩
  rw [hH, List.getElem?_take] at hfst
  split at hfst
  · rw [hd] at hfst
    rw [Option.some.inj hfst, ← List.drop_eq_getElem_cons hk, List.take_append_drop]
  · cases hfst

/-- What is recorded of datagrams that were handled, around one of a writable packet that came while its outbound track
was bound. -/
theorem flatMap_fate_of_bound {mtu : Nat} (hp : p.Writable) (hlen : p.datagram.length ≤ mtu) {e : Egress}
    {st : StaticTrack} {name : String} (hb : e.Bound track st name) (init rest : List (Datagram × Egress)) :
    (init ++ (p.datagram, e) :: rest).flatMap (fun x => recordAt name (fate mtu track x))
      = init.flatMap (fun x => recordAt name (fate mtu track x)) ++ st.publish p
        :: rest.flatMap (fun x => recordAt name (fate mtu track x)) := by
  have hfate : fate mtu track (p.datagram, e) = .ok (some (name, st.publish p)) := by
    rw [fate, if_neg (Nat.not_lt.mpr hlen), decodeMedia_datagram hp]
    exact hb.fate p
  rw [List.flatMap_append, List.flatMap_cons, hfate]
  simp [recordAt]

/-! ## Packets that are written to a stream -/

theorem perform_write (hp : p.Writable) (ho : (s.hub.transport.stream .media ssrc).closed = false) :
    (s.perform (.transport (.pushMedia ssrc p))).2 = .done := by
  have ho' : (s.hub.transport.stream .media ssrc).closed ≠ true := by simp [ho]
  simp only [perform, performTransport, onTransport, QueueTransport.pushMedia, Rtp.Packet.encode_eq hp,
    QueueTransport.push, QueueTransport.onStream, QueueStream.push, if_neg ho', Reply.ofResult]

theorem pushed_write (hp : p.Writable) (h g : Hub) :
    (Change.mk (.command (.transport (.pushMedia ssrc p)) .done) h g).pushed .media ssrc = [p.datagram] := by
  simp [Change.pushed, TransportCommand.datagram?, Rtp.Packet.encode_eq hp, Except.toOption]

/-- The datagram of a packet that is written is the next one of its stream. -/
theorem accepted_write (settings : Settings) (kind : Kind) (cs ds : List Command) (hp : p.Writable)
    (ho : (((new settings kind).after cs).hub.transport.stream .media ssrc).closed = false) :
    ∃ rest, (((new settings kind).after (cs ++ .transport (.pushMedia ssrc p) :: ds)).hub.transport.stream .media
        ssrc).accepted
      = (((new settings kind).after cs).hub.transport.stream .media ssrc).accepted ++ p.datagram :: rest := by
  have hend := (records_after settings kind (cs ++ .transport (.pushMedia ssrc p) :: ds) .media ssrc).pushed
  have hcs := (records_after settings kind cs .media ssrc).pushed
  have hdone := perform_write (s := (new settings kind).after cs) hp ho
  rw [← hend, ← hcs, history_append, List.flatMap_append, history, changes,
    performChanges_of_ne (fun _ h => by cases h), hdone, List.append_assoc, List.flatMap_append, List.flatMap_singleton,
    pushed_write hp]
  exact ⟨_, rfl⟩

/-- Every packet that can be written and fits the buffers of the receiver is accepted by a stream that is open; every
pump that takes it while its outbound track is bound publishes it there and nowhere else; and a relay that is left alone
and alone takes from the stream does so, unless it has given up before. -/
theorem relay_transparent (settings : Settings) (kind : Kind) (cs ds : List Command) (hp : p.Writable)
    (hsize : p.size ≤ settings.receiverMtu)
    (hopen : (((new settings kind).after cs).hub.transport.stream .media ssrc).closed = false) :
    let write : Command := .transport (.pushMedia ssrc p)
    let past := (new settings kind).history (cs ++ write :: ds)
    let k := (((new settings kind).after cs).hub.transport.stream .media ssrc).accepted.length
    (((new settings kind).after cs).perform write).2 = .done
      ∧ (∀ x ∈ past, ∀ st name, x.Relays ssrc k st name →
          x.wrote name = [st.publish p] ∧ ∀ other, other ≠ name → x.wrote other = [])
      ∧ ∀ relay track rid, ((new settings kind).after (cs ++ write :: ds)).hub.Relaying relay track rid ssrc →
          OnlyPump past relay rid ssrc →
          (∃ init last, handled past relay rid ssrc = init ++ [last] ∧ init.length < k
            ∧ (fate settings.receiverMtu track last).isOk = false)
          ∨ ∃ init e rest, handled past relay rid ssrc = init ++ (p.datagram, e) :: rest ∧ init.length = k
            ∧ ∀ st name, e.Bound track st name → recorded past relay rid name
              = init.flatMap (fun x => recordAt name (fate settings.receiverMtu track x)) ++ st.publish p
                :: rest.flatMap (fun x => recordAt name (fate settings.receiverMtu track x)) := by
  intro write past k
  obtain ⟨rest, hacc⟩ := accepted_write settings kind cs ds hp hopen
  have hget : (((new settings kind).after (cs ++ write :: ds)).hub.transport.stream .media ssrc).accepted[k]?
      = some p.datagram := by
    rw [hacc, List.getElem?_append_right (Nat.le_refl _), Nat.sub_self]
    rfl
  have hgrown := grown_after (Receiver.sound_new kind settings.receiverMtu) (s := new settings kind) (cs ++ write :: ds)
  have hmtu : ((new settings kind).after (cs ++ write :: ds)).hub.receiver.mtu = settings.receiverMtu :=
    hgrown.first.receiver.mtu
  have hlen : p.datagram.length ≤ settings.receiverMtu := by rwa [Rtp.Packet.length_datagram hp]
  refine ⟨perform_write hp hopen, fun x hx st name hr => ?_, fun relay track rid hr hown => ?_⟩
  · obtain ⟨-, hon⟩ := hgrown.before x hx
    refine hr.wrote (handles_history settings kind _ x hx) hp (by rw [← hon.receiver.mtu, hmtu]; exact hlen) ?_
    -- what was accepted before is there in the end
    intro d hd
    obtain ⟨new, hnew⟩ := (hon.transport .media ssrc).accepted
    rw [← hnew, List.getElem?_append_left (List.getElem?_eq_some_iff.mp hd).1, hd] at hget
    exact Option.some.inj hget
  · have hd := delivering_after settings kind (cs ++ write :: ds) relay track rid ssrc
    have hH := hd.taken hown
    have hrec := hd.recorded hr.undisturbed
    have hgone := hd.settled (step?_after rfl _) hr
    rw [hmtu] at hrec hgone
    generalize handled past relay rid ssrc = H at *
    -- either all was taken, and so more than had been accepted before, or the pump gave up, perhaps before that
    have hreached : k < H.length ∨ ∃ init last, H = init ++ [last] ∧ init.length < k
        ∧ (fate settings.receiverMtu track last).isOk = false := by
      rcases hgone with htaken | ⟨init, last, hsplit, hlast⟩
      · have hl := congrArg List.length hH
        rw [List.length_map, htaken, List.take_length, hacc, List.length_append, List.length_cons] at hl
        exact .inl (by omega)
      · rcases Nat.lt_or_ge init.length k with hk | hk
        · exact .inr ⟨init, last, hsplit, hk, hlast⟩
        · rw [hsplit, List.length_append, List.length_singleton]
          exact .inl (Nat.lt_succ_of_le hk)
    rcases hreached with hk | hgave
    · obtain ⟨init, e, rest, hsplit, hinit⟩ := handled_split hH hk hget
      refine .inr ⟨init, e, rest, hsplit, hinit, fun st name hb => ?_⟩
      rw [hrec, hsplit, flatMap_fate_of_bound hp hlen hb]
    · exact .inl hgave

/-- A packet with two elements of different lengths, sources and padding goes through a relay that puts its own payload
type on it. -/
theorem relay_transparent_padded :
    let p : Rtp.Packet :=
      { padded := true, extended := true, marker := true, payloadType := 127, sequence := 65535, csrcs := [7, 8],
        profile := 0xBEDE, extensions := [⟨1, [1, 2, 3]⟩, ⟨14, [0]⟩], payload := [9, 9, 9, 9] }
    let cs : List Command := [.outbound (.add "out" 100 "video" "stream" (some 97) (some "w")),
      .relay (.add "r" [("q", "out")]), .receiver (.receive [⟨"q", 1⟩])]
    let write : Command := .transport (.pushMedia 1 p)
    p.Writable ∧ (((new {} .video).after cs).perform write).2 = .done
      ∧ (((new {} .video).after (cs ++ [write])).hub.egress.writer "w").written
        = [{ p with ssrc := 100, payloadType := 97, blankExtensionBytes := 2 }]
      ∧ ∃ init e rest, handled ((new {} .video).history (cs ++ [write])) 0 "q" 1 = init ++ (p.datagram, e) :: rest
        ∧ init.length = 0 := by
  intro p cs write
  have hp : p.Writable := ⟨⟨by decide, by decide, by decide, by decide, by decide⟩, by decide, by decide⟩
  obtain ⟨hdone, -, hrelay⟩ := @relay_transparent 1 p {} .video cs [] hp (by decide) (by decide +kernel)
  refine ⟨hp, hdone, by decide +kernel, ?_⟩
  have hr : ((new {} .video).after (cs ++ [write])).hub.Relaying 0 0 "q" 1 :=
    ⟨⟨_, (Option.some_get (by decide +kernel)).symm, by decide +kernel, by decide +kernel, by decide +kernel⟩,
      ⟨⟨"q", 1, .bound 1 1 false⟩, by decide +kernel, by decide, rfl⟩, by decide +kernel, by decide +kernel,
      by decide +kernel⟩
  have hfirst : (((new {} .video).after cs).hub.transport.stream .media 1).accepted.length = 0 := by decide +kernel
  rw [hfirst] at hrelay
  obtain ⟨init, -, -, hlt, -⟩ | ⟨init, e, rest, hH, hl, -⟩ := hrelay 0 0 "q" hr (by decide +kernel)
  · exact absurd hlt (Nat.not_lt_zero _)
  · exact ⟨init, e, rest, hH, hl⟩

end Session

/-! ## Packets whose extension block is too long -/

/-- What an only task, a pump that is not cancelled, leaves at the writers first when all tasks run: what is the fate of
the packet that waits for it. -/
theorem Hub.prefix_settle {h : Hub} {t : Task} {q : Pump} {track : Nat} {ssrc : Ssrc} (htasks : h.tasks = [t])
    (hj : t.job = .pump q) (hroute : q.forwarder.routes.find? q.rid = some track) (hc : h.isCancelled q.token = false)
    (hr : h.target? ⟨.media q.rid, .decoded⟩ = some (.media, ssrc, h.receiver.mtu))
    (ho : (h.transport.stream .media ssrc).closed = false) {d : Datagram} {p : Rtp.Packet}
    (hq : (h.transport.stream .media ssrc).accepted[(h.transport.stream .media ssrc).taken]? = some d)
    (hlen : d.length ≤ h.receiver.mtu) (hd : decodeMedia d = .ok p) (name : String) :
    (h.egress.writer name).written ++ recordAt name (h.egress.fate track p)
      <+: (h.settle.egress.writer name).written := by
  have hquery : t.job.query? = some ⟨.media q.rid, .decoded⟩ := by rw [hj]; rfl
  have hread := Hub.read_of_target hr
  have hattempt : (h.transport.readStream .media ssrc h.receiver.mtu).2 = .done (.ok d) := by
    show ((h.transport.stream .media ssrc).read h.receiver.mtu).2 = _
    rcases (h.transport.stream .media ssrc).read_cases h.receiver.mtu with ⟨hcl, -⟩ | ⟨-, hnil, -⟩ | ⟨d', -, hd', he⟩
    · cases ho.symm.trans hcl
    · rw [QueueStream.queued, List.drop_eq_nil_iff] at hnil
      exact absurd (List.getElem?_eq_some_iff.mp hq).1 (Nat.not_lt.mpr hnil)
    · cases hq.symm.trans hd'
      rw [he, if_neg (Nat.not_lt.mpr hlen)]
  have hdone : (h.read ⟨.media q.rid, .decoded⟩).2 = .done (.ok (.media p)) := by
    rw [hread, hattempt]
    simp [Read.progress, Read.data, Source.channel, hd, Except.map]
  generalize hg : Hub.finish t (h.read ⟨.media q.rid, .decoded⟩).1 (.ok (.media p)) = g
  have hm : h.move? t = some g := by
    rw [Hub.move?_of_query hquery (by simp [Hub.quits, hj, Forwarder.has, hroute, hc]), Hub.goOn?_of_done hdone, hg]
  have hstream : g.transport.stream .media ssrc = ((h.transport.stream .media ssrc).read h.receiver.mtu).1 := by
    rw [← hg, Hub.transport_finish, hread]
    show (h.transport.readStream .media ssrc h.receiver.mtu).1.stream .media ssrc = _
    exact QueueTransport.stream_onStream_self _ _ _ _
  have htaken : (Change.mk (.move t) h g).taken .media ssrc = [d] := Session.taken_of_readStream hq ho hstream
  have hwrote := Change.wrote_of_pump (Hub.handles_move hm) rfl hj hroute htaken hlen hd name
  have m := Hub.move_of_move? hm
  have hfirst : (g.egress.writer name).written
      = (h.egress.writer name).written ++ recordAt name (h.egress.fate track p) := by
    rw [← hwrote]
    exact (List.prefix_iff_eq_append.mp (m.onward.egress name)).symm
  have hstep : h.step? = some g := by
    rw [Hub.step?, htasks, List.findSome?_cons, hm]
  rw [← hfirst]
  cases hn : h.weight with
  | zero =>
    have hsettled := h.step?_settle
    rw [Hub.settle, hn, Hub.run, hstep] at hsettled
    cases hsettled
  | succ n =>
    have hrun : h.settle = Hub.run n g := by
      rw [Hub.settle, hn, Hub.run, hstep]
    rw [hrun]
    refine (@Hub.run_keeps (fun k _ => g.Onward k) (fun k past u k' hk hmove => hk.trans ?_) n g []
      (Hub.Onward.refl g)).egress name
    exact (Hub.move_of_move? (Hub.of_mover? hmove).2).onward

namespace Session

variable {p : Rtp.Packet}

/-- A packet whose only element takes as many bytes as can not be told. -/
def overlong (bytes : List UInt8) : Rtp.Packet :=
  { extended := true, profile := 1, extensions := [⟨0, bytes⟩] }

/-- An element of 65536 bytes is said to have none, and so becomes the payload. -/
theorem fate_overlong {bytes : List UInt8} (hb : bytes.length = 65536) :
    ∃ d, Rtp.encode (overlong bytes) = .ok d ∧ d.length = 65552
      ∧ decodeMedia d = .ok { overlong [] with payload := bytes } := by
  have hn : Rtp.Layout.whole.length [⟨0, bytes⟩] = 65536 := by
    simp [Rtp.Layout.length, Rtp.Layout.overhead, hb]
  have hw : Rtp.extensionWords 65536 = 0 := by decide
  refine ⟨(overlong bytes).layOut (Bytes.ofWord16 1 ++ Bytes.ofWord16 0 ++ bytes), ?_, ?_, ?_⟩
  · have hblock : (overlong bytes).encodeExtensions = .ok (Bytes.ofWord16 1 ++ Bytes.ofWord16 0 ++ bytes) := by
      simp [Rtp.Packet.encodeExtensions, overlong, Rtp.layout, hn, hw, Rtp.Layout.encodeElement]
    rw [Rtp.encode, hblock]
    refine if_pos ?_
    simp [Rtp.Packet.layOut, Rtp.Packet.size, Rtp.Packet.extensionSize, overlong, Rtp.layout, hn, hb, Bytes.roundUp4]
  · simp [Rtp.Packet.layOut, overlong, hb]
  · have hd : Rtp.decode ((overlong bytes).layOut (Bytes.ofWord16 1 ++ Bytes.ofWord16 0 ++ bytes))
        = .ok { overlong [] with payload := bytes } := by
      rw [Rtp.Packet.layOut]
      simp only [overlong, List.append_nil, List.flatMap_nil, Bool.false_eq_true, if_false]
      rfl
    rw [decodeMedia, hd]

/-- Large buffers, and no feedback. -/
def largeBuffers (s : Settings) : Settings :=
  { s with mtu := 70000, feedback := false }

/-- A track, a relay and a layer that is bound. -/
def oneLayer : List Command :=
  [.outbound (.add "out" 5 "video" "stream" none (some "w")), .relay (.add "r" [("", "out")]),
    .receiver (.receive [⟨"", 7⟩])]

/-- What becomes of a packet whose element takes 65536 bytes. -/
theorem written_overlong {bytes : List UInt8} (hb : bytes.length = 65536) :
    ∃ rest, (((new (largeBuffers {}) .video).after
      (oneLayer ++ [.transport (.pushMedia 7 (overlong bytes))])).hub.egress.writer "w").written
        = { overlong [] with ssrc := 5, payload := bytes } :: rest := by
  obtain ⟨d, hencode, hlen, hdecode⟩ := fate_overlong hb
  -- before the packet is written the pump of the relay waits, and nothing else runs
  have hone : ((new (largeBuffers {}) .video).after oneLayer).hub.tasks.length = 1 := by decide +kernel
  have hpump : ∀ t ∈ ((new (largeBuffers {}) .video).after oneLayer).hub.tasks, t.isPumpOf 0 "" = true := by
    decide +kernel
  have hrelay : ((new (largeBuffers {}) .video).after oneLayer).hub.Relaying 0 0 "" 7 :=
    ⟨⟨_, (Option.some_get (by decide +kernel)).symm, by decide +kernel, by decide +kernel, by decide +kernel⟩,
      ⟨⟨"", 7, .bound 7 7 false⟩, by decide +kernel, by decide, rfl⟩, by decide +kernel, by decide +kernel,
      by decide +kernel⟩
  have htarget : ((new (largeBuffers {}) .video).after oneLayer).hub.target? ⟨.media "", .decoded⟩
      = some (.media, 7, 70000) := by decide +kernel
  have hmtu : ((new (largeBuffers {}) .video).after oneLayer).hub.receiver.mtu = 70000 := by decide +kernel
  have hstream : ((new (largeBuffers {}) .video).after oneLayer).hub.transport.stream .media 7 = {} := by decide +kernel
  have hbound : ((new (largeBuffers {}) .video).after oneLayer).hub.egress.Bound 0
      ⟨5, "video", "stream", none, some "w"⟩ "w" := ⟨by decide +kernel, rfl, by decide +kernel, by decide +kernel⟩
  have hempty : (((new (largeBuffers {}) .video).after oneLayer).hub.egress.writer "w").written = [] := by
    decide +kernel
  obtain ⟨a, o⟩ := (proper_after (largeBuffers {}) .video oneLayer).owned
  rw [after_append, after_cons, after_nil, step_fst]
  generalize (new (largeBuffers {}) .video).after oneLayer = s at *
  obtain ⟨t, htasks⟩ := List.length_eq_one_iff.mp hone
  have ht : t ∈ s.hub.tasks := htasks ▸ List.mem_singleton_self t
  obtain ⟨q, hj, hr, hi⟩ := Hub.isPumpOf_iff.mp (hpump t ht)
  obtain ⟨hc, hroute⟩ := hrelay.undisturbed.pump o ht hj hr hi
  have hpushed : ((s.hub.transport.push .media 7 d).1.stream .media 7) = { accepted := [d] } := by
    rw [QueueTransport.push, QueueTransport.stream_onStream_self, hstream]
    rfl
  have hperform : (s.perform (.transport (.pushMedia 7 (overlong bytes)))).1.hub
      = { s.hub with transport := (s.hub.transport.push .media 7 d).1 } := by
    simp [perform, performTransport, onTransport, QueueTransport.pushMedia, hencode, setHub]
  have hprefix := @Hub.prefix_settle { s.hub with transport := (s.hub.transport.push .media 7 d).1 } t q 0 7
    htasks hj hroute hc (by rw [hi]; exact hmtu.symm ▸ htarget) (by rw [hpushed]) d _ (by rw [hpushed]; rfl)
    (by rw [hlen]; exact hmtu.symm ▸ (by decide : 65552 ≤ 70000)) hdecode "w"
  have hfate : s.hub.egress.fate 0 { overlong [] with payload := bytes }
      = .ok (some ("w", { overlong [] with ssrc := 5, payload := bytes })) := by
    simp [Egress.fate, hbound.track, hbound.opened, hbound.healthy, StaticTrack.stamp]
  dsimp only at hprefix
  rw [hempty, hfate, ← hperform, List.nil_append] at hprefix
  obtain ⟨rest, hw⟩ := hprefix
  exact ⟨rest, hw.symm⟩

theorem lost_overlong {bytes : List UInt8} (hb : bytes.length = 65536) :
    (overlong bytes).WellFormed ∧ (overlong bytes).size ≤ (largeBuffers {}).receiverMtu
      ∧ ∃ q rest, (((new (largeBuffers {}) .video).after (oneLayer ++ [.transport (.pushMedia 7 (overlong
          bytes))])).hub.egress.writer "w").written = q :: rest
        ∧ q.extensions ≠ (overlong bytes).extensions ∧ q.payload ≠ (overlong bytes).payload := by
  obtain ⟨d, hencode, hlen, -⟩ := fate_overlong hb
  obtain ⟨rest, hw⟩ := written_overlong hb
  have hne : bytes ≠ [] := fun h => by
    rw [h] at hb
    cases hb
  refine ⟨⟨(by decide : (2 : UInt8) ≤ 3), (by decide : (96 : UInt8) ≤ 127), Nat.zero_le _, (fun h => by cases h),
    fun _ => ⟨rfl, by rw [hb]⟩⟩, ?_, _, rest, hw, fun he => ?_, hne⟩
  · rw [← Rtp.length_of_encode hencode, hlen]
    decide
  · exact hne (congrArg Rtp.Extension.payload (List.cons.inj he).1).symm

/-- The number of words of an extension block is counted in 16 bits of the number of its bytes, so what takes more is
lost: a well-formed packet of 65552 bytes comes to the writer with its element as its payload. One that has been read
with blank bytes in its extension block cannot be written. -/
theorem overlong_extension_lost :
    let p := overlong (List.replicate 65536 0xaa)
    let blank : Rtp.Packet := { extended := true, profile := 0xBEDE, blankExtensionBytes := 1 }
    (p.WellFormed ∧ p.size ≤ (largeBuffers {}).receiverMtu
        ∧ ∃ q rest, (((new (largeBuffers {}) .video).after
          (oneLayer ++ [.transport (.pushMedia 7 p)])).hub.egress.writer "w").written = q :: rest
          ∧ q.extensions ≠ p.extensions ∧ q.payload ≠ p.payload)
      ∧ blank.WellFormed ∧ Rtp.encode blank = .error (.sizeMismatch 19 20) :=
  ⟨lost_overlong List.length_replicate, ⟨by decide, by decide, by decide, by decide, by decide⟩, by decide⟩

end Session

end MediaRelay
