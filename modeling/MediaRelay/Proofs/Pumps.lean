import MediaRelay.Proofs.Fate
import MediaRelay.Proofs.Names

/-!
# Pumps that nobody disturbs

- `Hub.Undisturbed`: nothing keeps the pump of a relay's layer from its work;
- `Undisturbed.took`, `fate_of_read`: what such a pump does with the next datagram is what the fate says;
- `Undisturbed.move`, `unstarted_move`, `Deed.unstarted`: as long as the pump is not disturbed, it is either still to
  be started or it runs until a datagram makes it give up.
-/

namespace MediaRelay

/-! ## A pump that nobody disturbs -/

/-- Nothing keeps the pump of a relay's layer from its work: the receiver is there and not being stopped, the layer is
not bound to another stream, the stream is open, and the relay is neither closed nor without a track for the layer. -/
structure Hub.Undisturbed (h : Hub) (relay : Nat) (rid : String) (ssrc : Ssrc) (track : Nat) : Prop where
  held : h.held = true
  going : h.receiver.closing = false
  layer : ∀ ls, h.receiver.track = some ls → rid ∈ ls.map Layer.rid
  bound : ∀ l, h.receiver.layer? rid = some l → l.isReady → l.ssrc = ssrc
  stream : (h.transport.stream .media ssrc).closed = false
  relay : ∀ r, h.relays[relay]? = some r →
    h.isCancelled r.token = false ∧ r.forwarder.routes.find? rid = some track

namespace Hub

variable {h g : Hub} {relay track : Nat} {rid : String} {ssrc : Ssrc} {t : Task} {past : List Change}

/-- What is not disturbed later has not been disturbed before. -/
theorem Undisturbed.earlier (hg : g.Undisturbed relay rid ssrc track) (ho : h.Onward g) (hs : h.receiver.Sound) :
    h.Undisturbed relay rid ssrc track where
  held := ho.held hg.held
  going := by
    cases hc : h.receiver.closing with
    | false => rfl
    | true => exact absurd (ho.receiver.closing hc) (by rw [hg.going]; decide)
  layer ls hls := by
    obtain ⟨ls', hls', hf⟩ := ho.receiver.track ls hls
    rw [← map_rid_onward hf]
    exact hg.layer ls' hls'
  bound l hl hr := by
    obtain ⟨l', hl', hll⟩ := ho.receiver.layer? hl
    have hz := (hs.ready l (List.mem_of_find?_eq_some hl)).mp hr
    rw [← hg.bound l' hl' (hll.ready hr)]
    exact (hll.ssrc.resolve_right fun h => hz h.1).symm
  stream := by
    cases hc : (h.transport.stream .media ssrc).closed with
    | false => rfl
    | true => exact absurd ((ho.transport .media ssrc).closed hc) (by rw [hg.stream]; decide)
  relay r hr := by
    obtain ⟨r', hr', hrr⟩ := ho.relays relay r hr
    obtain ⟨hc, hf⟩ := hg.relay r' hr'
    rw [hrr.forwarder] at hf
    rw [hrr.token] at hc
    refine ⟨?_, hf⟩
    cases hh : h.isCancelled r.token with
    | false => rfl
    | true => exact absurd (ho.isCancelled hh) (by rw [hc]; decide)

/-- Where the reads of an undisturbed pump stand. -/
theorem Undisturbed.standing (hu : h.Undisturbed relay rid ssrc track) (ha : h.receiver.Accounted past) :
    h.receiver.standing (.media rid) = .awaitsTrack ∨ h.receiver.standing (.media rid) = .awaitsLayer
      ∨ h.receiver.standing (.media rid) = .atStream .media ssrc := by
  unfold Receiver.standing
  rw [if_neg (by rw [hu.going]; decide)]
  cases hr : h.receiver.received with
  | false => exact .inl (if_pos (by decide))
  | true =>
    right
    rw [if_neg (by decide)]
    rw [ha.sound.received] at hr
    obtain ⟨ls, hls⟩ := Option.isSome_iff_exists.mp hr
    obtain ⟨l, hl, hlr⟩ := List.mem_map.mp (hu.layer ls hls)
    have hm : l ∈ h.receiver.layers := by rwa [Receiver.layers_of_track hls]
    have hsome : (h.receiver.layer? rid).isSome := by
      refine List.find?_isSome.mpr ⟨l, hm, by simp [hlr]⟩
    obtain ⟨k, hk⟩ := Option.isSome_iff_exists.mp hsome
    simp only [hls, Receiver.layerOf?, hk, Option.isNone_some, Bool.false_eq_true, if_false]
    have hkm := List.mem_of_find?_eq_some hk
    cases hb : k.binding with
    | unbound => exact .inl (by simp [Layer.standing, hb])
    | released =>
      obtain ⟨m, c, hb'⟩ := ha.sound.bound hu.going k hkm (by simp [Layer.isReady, hb, Binding.isReady])
      rw [hb] at hb'
      cases hb'
    | bound m c cc =>
      obtain ⟨rfl, -⟩ := ha.named k hkm m c cc hb
      have := hu.bound k hk (by simp [Layer.isReady, hb, Binding.isReady])
      exact .inr (by simp [Layer.standing, hb, Source.channel, this])

/-- The reads of an undisturbed pump stand at the stream of the layer once it is bound. -/
theorem Undisturbed.standing_bound (hu : h.Undisturbed relay rid ssrc track) (ha : h.receiver.Accounted past)
    {l : Layer Ssrc} (hl : h.receiver.layer? rid = some l) (hready : l.isReady) :
    h.receiver.standing (.media rid) = .atStream .media ssrc := by
  have hmem := List.mem_of_find?_eq_some hl
  have htr : h.receiver.track = some h.receiver.layers := Receiver.track_of_layers_ne_nil (List.ne_nil_of_mem hmem)
  obtain ⟨m, c, hb⟩ := ha.sound.bound hu.going l hmem hready
  obtain ⟨rfl, -⟩ := ha.named l hmem m c false hb
  have hrec : h.receiver.received = true := by rw [ha.sound.received, htr]; rfl
  unfold Receiver.standing
  rw [if_neg (by rw [hu.going]; decide), if_neg (by rw [hrec]; decide),
    if_neg (by rw [htr]; exact Bool.false_ne_true)]
  simp [Receiver.layerOf?, hl, Layer.standing, hb, Source.channel, hu.bound l hl hready]

/-- A read of an undisturbed pump that is done has taken a datagram. -/
theorem Undisturbed.took (hu : h.Undisturbed relay rid ssrc track) (ha : h.receiver.Accounted past)
    {u : QueueTransport} {r : Except Error Data} (hq : Reads h ⟨.media rid, .decoded⟩ u r) :
    ∃ d, (h.transport.stream .media ssrc).accepted[(h.transport.stream .media ssrc).taken]? = some d
      ∧ u = (h.transport.readStream .media ssrc h.receiver.mtu).1
      ∧ r = if h.receiver.mtu < d.length then .error .shortBuffer else (decodeMedia d).map .media := by
  have hst := hu.standing ha
  cases hq with
  | gone _ hal =>
    rw [isAlive, hu.held] at hal
    cases hal
  | failed hs => rcases hst with h' | h' | h' <;> rw [h'] at hs <;> cases hs
  | ended hs hc =>
    rcases hst with h' | h' | h' <;> rw [h'] at hs <;> cases hs
    rw [hu.stream] at hc
    cases hc
  | @took ch s d hs hc hd =>
    rcases hst with h' | h' | h' <;> rw [h'] at hs <;> cases hs
    exact ⟨d, hd, rfl, rfl⟩

/-- The token of a pump whose relay is not disturbed is not cancelled. -/
theorem Undisturbed.pump (hu : h.Undisturbed relay rid ssrc track) {names : Table String Token} {a : Leases}
    (o : Owned h names a) (ht : t ∈ h.tasks) {p : Pump} (hj : t.job = .pump p) (hr : p.relay = some relay)
    (hi : p.rid = rid) : h.isCancelled p.token = false ∧ p.forwarder.routes.find? p.rid = some track := by
  obtain ⟨⟨r, m, hget, htok, -⟩, hf, hm⟩ := o.pump t ht p relay hj hr
  obtain ⟨hc, hroute⟩ := hu.relay r hget
  refine ⟨?_, by rw [hf r hget, hi]; exact hroute⟩
  have hmc : m ∉ h.tokens.cancelled := hm m (by rw [htok]; rfl)
  simp only [Hub.isCancelled, TokenPool.isCancelled, Bool.or_eq_false_iff] at hc ⊢
  rw [htok, hu.going]
  refine ⟨rfl, ?_⟩
  simp only [List.any_cons, Bool.or_eq_false_iff]
  exact ⟨by simpa using hmc, hc.2⟩

/-- A datagram that was read as a packet has the fate of the packet. -/
theorem fate_of_read {mtu track : Nat} {d : Datagram} {packet : Rtp.Packet}
    (hr : (.ok (.media packet) : Except Error Data)
      = if mtu < d.length then .error .shortBuffer else (decodeMedia d).map .media) (e : Egress) :
    fate mtu track (d, e) = e.fate track packet := by
  unfold fate
  split at hr
  · cases hr
  · next hlen =>
    rw [if_neg hlen]
    cases hd : decodeMedia d with
    | error c => rw [hd] at hr; cases hr
    | ok p => rw [hd] at hr; cases hr; rfl

/-- What an undisturbed pump does in a move: it waits, or takes a datagram, whose fate decides what it leaves and
whether it goes on. -/
theorem Undisturbed.move (hu : h.Undisturbed relay rid ssrc track) (ha : h.receiver.Accounted past)
    {names : Table String Token} {a : Leases} (o : Owned h names a) (ht : t ∈ h.tasks)
    (hp : t.isPumpOf relay rid = true) (m : Hub.Move h t g) :
    (g.transport = h.transport ∧ g.egress = h.egress ∧ g.HasPump relay rid)
      ∨ ∃ d, (h.transport.stream .media ssrc).accepted[(h.transport.stream .media ssrc).taken]? = some d
          ∧ g.transport = (h.transport.readStream .media ssrc h.receiver.mtu).1
          ∧ (∀ name, (g.egress.writer name).written
              = (h.egress.writer name).written ++ recordAt name (fate h.receiver.mtu track (d, h.egress)))
          ∧ if (fate h.receiver.mtu track (d, h.egress)).isOk then g.HasPump relay rid
            else g.tasks = h.others t.id := by
  obtain ⟨p, hj, hr, hi⟩ := isPumpOf_iff.mp hp
  obtain ⟨hc, hroute⟩ := hu.pump o ht hj hr hi
  have hhas : p.forwarder.has p.rid = true := by simp [Forwarder.has, hroute]
  cases m with
  | park hread =>
    refine .inl ⟨rfl, rfl, { t with stage := _ }, List.mem_append_right _ (List.mem_singleton.mpr rfl), ?_⟩
    exact hp
  | read hj' => rw [hj] at hj'; cases hj'
  | expire hj' => rw [hj] at hj'; cases hj'
  | round hj' => rw [hj] at hj'; cases hj'
  | begin hj' => rw [hj] at hj'; cases hj'
  | announce hj' => rw [hj] at hj'; cases hj'
  | greet hj' => rw [hj] at hj'; cases hj'
  | unrouted hj' hh =>
    rw [hj] at hj'
    cases hj'
    rw [hhas] at hh
    cases hh
  | cease hj' _ hcc =>
    rw [hj] at hj'
    cases hj'
    rw [hc] at hcc
    cases hcc
  | @forward p' u packet e hj' _ _ hq hf =>
    rw [hj] at hj'
    cases hj'
    rw [hi] at hq
    obtain ⟨d, hd, hut, hres⟩ := hu.took ha hq
    obtain ⟨hw, hok⟩ := h.egress.forward_fate hroute packet
    rw [hf] at hw hok
    rw [← fate_of_read hres h.egress] at hw hok
    refine .inr ⟨d, hd, hut, hw, ?_⟩
    cases hx : fate h.receiver.mtu track (d, h.egress) with
    | error c => rw [hx] at hok; cases hok
    | ok y => exact ⟨_, List.mem_cons_self, hp⟩
  | @refuse p' u packet e cause hj' _ _ hq hf =>
    rw [hj] at hj'
    cases hj'
    rw [hi] at hq
    obtain ⟨d, hd, hut, hres⟩ := hu.took ha hq
    obtain ⟨hw, hok⟩ := h.egress.forward_fate hroute packet
    rw [hf] at hw hok
    rw [← fate_of_read hres h.egress] at hw hok
    obtain ⟨hgt, hge, hgk⟩ := failPump_fields { h with transport := u, egress := e } t p cause
    refine .inr ⟨d, hd, hgt.trans hut, ?_, ?_⟩
    · rw [hge]
      exact hw
    · cases hx : fate h.receiver.mtu track (d, h.egress) with
      | error c => exact hgk
      | ok y => rw [hx] at hok; cases hok
  | @fail p' u cause hj' _ _ hq =>
    rw [hj] at hj'
    cases hj'
    rw [hi] at hq
    obtain ⟨d, hd, hut, hres⟩ := hu.took ha hq
    obtain ⟨hgt, hge, hgk⟩ := failPump_fields { h with transport := u } t p cause
    have hx : fate h.receiver.mtu track (d, h.egress) = .error cause := by
      unfold fate
      split at hres
      · next hlen => cases hres; exact if_pos hlen
      · next hlen =>
        rw [if_neg hlen]
        cases hdec : decodeMedia d with
        | error c => rw [hdec] at hres; cases hres; rfl
        | ok p' => rw [hdec] at hres; cases hres
    refine .inr ⟨d, hd, hgt.trans hut, ?_, ?_⟩
    · rw [hge, hx]
      simp [recordAt]
    · rw [hx]
      exact hgk

/-! ## When the pump starts -/

theorem not_unstarted_of_hasPump {names : Table String Token} {a : Leases} (o : Owned h names a)
    (hp : h.HasPump relay rid) : ¬ h.Unstarted relay := by
  intro hu
  obtain ⟨t, ht, hp⟩ := hp
  obtain ⟨p, hj, hr, -⟩ := isPumpOf_iff.mp hp
  obtain ⟨⟨-, m, -, -, hm⟩, -⟩ := o.pump t ht p relay hj hr
  obtain ⟨r, hget, hs⟩ := o.started m relay p.rid hm
  rw [hu r hget] at hs
  cases hs

/-- A relay has only one pump for a layer. -/
theorem not_hasPump_of_others {names : Table String Token} {a : Leases} (o : Owned h names a) (ht : t ∈ h.tasks)
    (hp : t.isPumpOf relay rid = true) (hg : g.tasks = h.others t.id) : ¬ g.HasPump relay rid := by
  rintro ⟨u, hu, hup⟩
  rw [hg] at hu
  obtain ⟨hu, hne⟩ := Owned.mem_others.mp hu
  obtain ⟨p, hj, hpr, hpi⟩ := isPumpOf_iff.mp hp
  obtain ⟨q, hk, hqr, hqi⟩ := isPumpOf_iff.mp hup
  exact hne (congrArg Task.id (o.single u hu t ht q p hk hj (by rw [hqr]; rfl) (hqr.trans hpr.symm)
    (hqi.trans hpi.symm)))

/-- A relay that has been started stays so. -/
theorem Onward.unstarted (ho : h.Onward g) (hu : g.Unstarted relay) : h.Unstarted relay := by
  intro r hr
  obtain ⟨r', hr', hrr⟩ := ho.relays relay r hr
  cases hs : r.started with
  | false => rfl
  | true => exact absurd (hrr.started hs) (by rw [hu r' hr']; decide)

/-- A relay that starts undisturbed for the layers of the track has a pump for each. -/
theorem Undisturbed.startRelay {index : Nat} {rids : List String}
    (hg : (h.startRelay index rids).1.Undisturbed relay rid ssrc track) (hr : rid ∈ rids) (hu : h.Unstarted relay) :
    (h.startRelay index rids).1.Unstarted relay ∨ (h.startRelay index rids).1.HasPump relay rid := by
  rcases h.startRelay_cases index rids with he | ⟨r, hget, -, hrel, hcan, hrest⟩
  · rw [he]
    exact .inl hu
  · by_cases hi : index = relay
    · subst hi
      right
      rcases hrest with ⟨hc, -⟩ | ⟨new, hn⟩
      · have hg' := (hg.relay { r with started := true } (by rw [hrel, List.getElem?_modify, hget]; simp)).1
        unfold Hub.isCancelled TokenPool.isCancelled at hg' hc
        rw [hcan, (h.framed_startRelay index rids).receiver] at hg'
        rw [hg'] at hc
        cases hc
      · obtain ⟨u, hu, hp⟩ := hn.each rid hr
        exact ⟨u, hn.tasks ▸ List.mem_append_right _ hu, hp⟩
    · exact .inl (unstarted_of_modify hrel (fun _ he => absurd he hi) hu)

/-- A pump that runs was there before, or its relay had not been started. -/
theorem TasksFrom.pump (hf : h.TasksFrom g) (hu : t ∈ g.tasks) (hp : t.isPumpOf relay rid = true) :
    h.HasPump relay rid ∨ h.Unstarted relay := by
  obtain ⟨p, hj, hr, hi⟩ := isPumpOf_iff.mp hp
  rcases hf.origin t hu with ⟨v, hv, -, hvj | hvj⟩ | ⟨-, hnew⟩
  · exact .inl ⟨v, hv, isPumpOf_iff.mpr ⟨p, hvj ▸ hj, hr, hi⟩⟩
  · rw [hj] at hvj
    cases hvj.1
  · exact .inr (hnew p relay hj hr)

/-- What a move of another task does to the pump of a layer. -/
theorem pump_of_move {names : Table String Token} {a : Leases} (o : Owned h names a) (ht : t ∈ h.tasks)
    (hp : t.isPumpOf relay rid = false) (m : Hub.Move h t g) :
    (h.HasPump relay rid → g.HasPump relay rid) ∧ (g.HasPump relay rid → h.HasPump relay rid ∨ h.Unstarted relay) := by
  obtain ⟨hf, hk⟩ := m.tasksFrom ht
  refine ⟨fun ⟨u, hu, hup⟩ => ⟨u, hk u (Owned.mem_others.mpr ⟨hu, fun e => ?_⟩), hup⟩, fun ⟨u, hu, hup⟩ => ?_⟩
  · rw [List.inj_on_of_nodup_map o.ids hu ht e, hp] at hup
    cases hup
  · exact hf.pump hu hup

/-- A relay that has not been started stays so in a move, or its pumps run. -/
theorem unstarted_move {names : Table String Token} {a : Leases} (o : Owned h names a) (ht : t ∈ h.tasks)
    (m : Hub.Move h t g) (hg : g.Undisturbed relay rid ssrc track) (hu : h.Unstarted relay) :
    g.Unstarted relay ∨ g.HasPump relay rid := by
  rcases m.starts hu with hu' | ⟨rids, hj, rfl⟩
  · exact .inl hu'
  · obtain ⟨hne, hrids⟩ := o.announced t ht rids hj
    refine hg.startRelay ?_ hu
    rw [← hrids]
    apply hg.layer _
    rw [((h.dismiss t).framed_startRelay relay rids).receiver]
    exact Receiver.track_of_layers_ne_nil fun e => hne (hrids.symm.trans (congrArg (List.map Layer.rid) e))

end Hub

namespace Session

variable {s : Session} {relay track : Nat} {rid : String} {ssrc : Ssrc}

/-- A relay that has not been started stays so in a deed, or its pumps run. -/
theorem Deed.unstarted {c : Command} {g : Hub} {names : Table String Token} (d : s.Deed c g names)
    (hs : s.hub.receiver.Sound) (hg : g.Undisturbed relay rid ssrc track) (hu : s.hub.Unstarted relay) :
    g.Unstarted relay ∨ g.HasPump relay rid := by
  rcases d.starts hu with hu' | ⟨hr, rfl⟩
  · exact .inl hu'
  · refine hg.startRelay ?_ hu
    obtain ⟨ls, hls⟩ := Option.isSome_iff_exists.mp (hs.received ▸ hr)
    rw [Receiver.layers_of_track hls]
    apply hg.layer ls
    rw [(s.hub.framed_startRelay _ _).receiver]
    exact hls

/-- A pump that a relay has started has no name by which it could be dropped. -/
theorem Deed.hasPump {c : Command} {g : Hub} {names : Table String Token} (d : s.Deed c g names) (hp : s.Proper)
    (h : s.hub.HasPump relay rid) : g.HasPump relay rid := by
  obtain ⟨t, ht, htp⟩ := h
  obtain ⟨p, hj, hr, -⟩ := Hub.isPumpOf_iff.mp htp
  refine ⟨t, d.tasksFrom.2 t ht fun name hn => ?_, htp⟩
  rw [((hp.named name t.id hn).2 t ht rfl).1 p hj] at hr
  cases hr

end Session

end MediaRelay
