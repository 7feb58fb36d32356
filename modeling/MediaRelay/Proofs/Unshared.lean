import MediaRelay.Proofs.Lockstep
import MediaRelay.Proofs.Reception
import MediaRelay.Proofs.Stopping

/-!
# Streams that layers do not share

Nothing keeps an application from giving one SSRC to two layers, and then each takes part of the packets
(`layers_share`).

- `Change.ssrcs` lists the SSRCs that a change gives to layers; those of a run are the SSRCs of its layers
  (`gives_after`), so layers share no SSRC exactly if none was given twice (`distinct_iff`);
- `layers_unshared`: then each stream feeds one layer, and relays hand its packets to the track of that layer only.
-/

namespace MediaRelay

/-- The SSRCs that a change gives to layers. -/
def Change.ssrcs (x : Change) : List Ssrc :=
  match x.cause with
  | .command (.receiver (.receive es)) (.track _) => (es.map Encoding.ssrc).filter (· ≠ 0)
  | .command (.receiver (.bind _ ssrc)) .done => [ssrc]
  | _ => []

/-- Only commands that change the receiver give SSRCs to layers. -/
theorem Change.ssrcs_of_keeps {c : Command} (hc : c.changesReceiver = false) (reply : Reply) (h g : Hub) :
    (Change.mk (.command c reply) h g).ssrcs = [] := by
  unfold ssrcs
  split
  · next he => rw [(Cause.command.inj he).1] at hc; cases hc
  · next he => rw [(Cause.command.inj he).1] at hc; cases hc
  · rfl

/-! ## Layers and the SSRCs that were given -/

namespace Receiver

variable {r r' : Receiver Ssrc} {past : List Change}

/-- The SSRCs of the layers that are ready. -/
def ssrcs (r : Receiver Ssrc) : List Ssrc :=
  (r.layers.filter Layer.isReady).map Layer.ssrc

theorem map_ssrc_opened {es : List Encoding} {ls : List (Layer Ssrc)}
    (h : List.Forall₂ (Encoding.Opened QueueTransport) es ls) :
    (ls.filter Layer.isReady).map Layer.ssrc = (es.map Encoding.ssrc).filter (· ≠ 0) := by
  induction h with
  | nil => rfl
  | @cons e l es ls h _ ih =>
    by_cases hz : e.ssrc = 0
    · have hr : l.isReady ≠ true := fun hr => h.isReady_iff.mp hr (h.ssrc.trans hz)
      rw [List.filter_cons_of_neg hr, List.map_cons, List.filter_cons_of_neg (by simpa using hz), ih]
    · have hr : l.isReady = true := h.isReady_iff.mpr (h.ssrc ▸ hz)
      rw [List.filter_cons_of_pos hr, List.map_cons, List.map_cons, List.filter_cons_of_pos (by simpa using hz), ih,
        h.ssrc]

/-- Binding changes one layer, and those before and after it stay as they are. -/
theorem Sound.map_bindLayer (h : r.Sound) {rid : String} {l : Layer Ssrc} (hl : r.layer? rid = some l)
    (ssrc m c : Ssrc) : ∃ pre post, r.layers = pre ++ l :: post
      ∧ r.layers.map (bindLayer rid ssrc m c) = pre ++ { l with ssrc, binding := .bound m c false } :: post := by
  have hrid : l.rid = rid := by simpa using List.find?_some hl
  obtain ⟨pre, post, hls⟩ := List.append_of_mem (List.mem_of_find?_eq_some hl)
  have hn := h.rids
  rw [hls, List.map_append, List.map_cons] at hn
  have hsame : ∀ ls : List (Layer Ssrc), (∀ k ∈ ls, k.rid ≠ rid) → ls.map (bindLayer rid ssrc m c) = ls :=
    fun ls hk => (List.map_congr_left fun k hkm => by rw [bindLayer, if_neg (hk k hkm)]; rfl).trans (List.map_id ls)
  have hpre : ∀ k ∈ pre, k.rid ≠ rid := fun k hk e =>
    (List.nodup_append.mp hn).2.2 _ (List.mem_map_of_mem hk) _ List.mem_cons_self (e.trans hrid.symm)
  have hpost : ∀ k ∈ post, k.rid ≠ rid := fun k hk e =>
    (List.nodup_cons.mp (List.nodup_append.mp hn).2.1).1 (List.mem_map.mpr ⟨k, hk, e.trans hrid.symm⟩)
  refine ⟨pre, post, hls, ?_⟩
  rw [hls, List.map_append, List.map_cons, hsame pre hpre, hsame post hpost, bindLayer, if_pos hrid]

/-- Binding gives one more SSRC. -/
theorem Sound.ssrcs_bindLayer (h : r.Sound) {rid : String} {ssrc m c : Ssrc} {l : Layer Ssrc}
    (hl : r.layer? rid = some l) (hready : l.isReady = false) :
    List.Perm (((r.layers.map (bindLayer rid ssrc m c)).filter Layer.isReady).map Layer.ssrc) (r.ssrcs ++ [ssrc]) := by
  obtain ⟨pre, post, hls, hmap⟩ := h.map_bindLayer hl ssrc m c
  rw [ssrcs, hmap, hls, List.filter_append, List.filter_append, List.filter_cons_of_neg (a := l) (by simp [hready]),
    List.filter_cons_of_pos rfl, List.map_append, List.map_cons, List.map_append]
  exact List.perm_middle.trans (List.perm_append_singleton _ _).symm

/-- Stopping takes no SSRC from a layer. -/
theorem Sound.ssrcs_stop (h : r.Sound) (t : QueueTransport) : (r.stop t).1.ssrcs = r.ssrcs := by
  have hc := stop_closed h.received t
  unfold ssrcs
  generalize (r.stop t).1.layers = ls' at hc
  generalize r.layers = ls at hc
  induction hc with
  | nil => rfl
  | @cons l l' ls ls' hl _ ih =>
    cases hr : l.isReady with
    | false =>
      rw [List.filter_cons_of_neg (a := l) (by simp [hr]),
        List.filter_cons_of_neg (a := l') (by simp [hl.isReady_eq, hr]), ih]
    | true =>
      rw [List.filter_cons_of_pos hr, List.filter_cons_of_pos (hl.isReady_eq.trans hr), List.map_cons, List.map_cons,
        hl.ssrc_eq, ih]

/-- If the SSRCs of the layers are different, they tell the layers apart. -/
theorem Sound.eq_of_ssrc_eq (h : r.Sound) (hn : r.ssrcs.Nodup) {k l : Layer Ssrc} (hk : k ∈ r.layers)
    (hl : l ∈ r.layers) (he : k.ssrc = l.ssrc) (hz : k.ssrc ≠ 0) : k = l := by
  refine List.inj_on_of_nodup_map hn ?_ ?_ he
  · exact List.mem_filter.mpr ⟨hk, (h.ready k hk).mpr hz⟩
  · exact List.mem_filter.mpr ⟨hl, (h.ready l hl).mpr (he ▸ hz)⟩

/-- Layers that are ready have different SSRCs exactly if these are pairwise different. -/
theorem Sound.distinct_iff_nodup (h : r.Sound) : r.Distinct ↔ r.ssrcs.Nodup := by
  refine ⟨fun hd => ?_, fun hn k hk l hl hkr _ he => ?_⟩
  · refine List.Nodup.map_on (fun k hk l hl he => ?_) ((List.Nodup.of_map _ h.rids).filter _)
    obtain ⟨hk, hkr⟩ := List.mem_filter.mp hk
    obtain ⟨hl, hlr⟩ := List.mem_filter.mp hl
    exact List.inj_on_of_nodup_map h.rids hk hl (hd k hk l hl hkr hlr he)
  · rw [h.eq_of_ssrc_eq hn hk hl he ((h.ready k hk).mp hkr)]

end Receiver

namespace Session

open Receiver

variable {s : Session} {past : List Change}

/-- A receiver that has not been asked to receive has no layers. -/
theorem ssrcs_of_not_attempted {r : Receiver Ssrc} (hs : r.Sound) (ha : r.attempted = false) : r.ssrcs = [] := by
  have hr : r.received = false := Bool.eq_false_iff.mpr fun hr => by
    rw [hs.attempted hr] at ha
    cases ha
  have ht : r.track = none := Option.isSome_eq_false_iff.mp (hs.received ▸ hr) |> Option.isNone_iff_eq_none.mp
  rw [ssrcs, layers, ht]
  rfl

theorem perform_bind (hh : s.hub.held = true) (rid : String) (ssrc : Ssrc) :
    s.perform (.receiver (.bind rid ssrc))
      = (s.setHub { s.hub with receiver := (s.hub.receiver.bind s.hub.transport rid ssrc).1,
                               transport := (s.hub.receiver.bind s.hub.transport rid ssrc).2.1 },
        .ofResult (s.hub.receiver.bind s.hub.transport rid ssrc).2.2) :=
  perform_of_held hh _

/-- The layers have the SSRCs that they had, and those that were given to them. -/
def Gets (s : Session) (x : Change) : Prop :=
  List.Perm x.after.receiver.ssrcs (s.hub.receiver.ssrcs ++ x.ssrcs)

theorem gets_nothing {x : Change} (hr : x.after.receiver.ssrcs = s.hub.receiver.ssrcs) (hx : x.ssrcs = []) :
    s.Gets x := by
  rw [Gets, hr, hx, List.append_nil]

theorem gets_receive (hs : s.hub.receiver.Sound) (hh : s.hub.held = true) (es : List Encoding) :
    s.Gets ⟨.command (.receiver (.receive es)) (s.perform (.receiver (.receive es))).2, s.hub,
      (s.perform (.receiver (.receive es))).1.hub⟩ := by
  rw [perform_receive hh]
  unfold Session.receive
  rcases s.hub.receiver.receive_cases s.hub.transport es with ⟨e, -, he⟩ | ⟨u, e, -, he⟩ | ⟨u, ls, hn, ho, he⟩ <;>
    rw [he]
  · exact gets_nothing rfl rfl
  · exact gets_nothing rfl rfl
  · rw [Gets, ssrcs_of_not_attempted hs (of_refuseReceive hn).2.2.2]
    exact .of_eq (map_ssrc_opened ho)

theorem gets_bind (hs : s.hub.receiver.Sound) (hh : s.hub.held = true) (rid : String) (ssrc : Ssrc) :
    s.Gets ⟨.command (.receiver (.bind rid ssrc)) (s.perform (.receiver (.bind rid ssrc))).2, s.hub,
      (s.perform (.receiver (.bind rid ssrc))).1.hub⟩ := by
  rw [perform_bind hh]
  rcases s.hub.receiver.bind_cases s.hub.transport rid ssrc with
    ⟨e, -, he⟩ | ⟨u, e, -, -, he⟩ | ⟨u, m, c, hn, -, he⟩ <;> rw [he]
  · exact gets_nothing rfl rfl
  · exact gets_nothing rfl rfl
  · obtain ⟨-, -, l, hl, hready⟩ := of_refuseBind hn
    refine .trans (.of_eq ?_) (hs.ssrcs_bindLayer (m := m) (c := c) hl hready)
    exact congrArg (fun ls => (ls.filter Layer.isReady).map Layer.ssrc)
      (s.hub.receiver.layers_map (bindLayer rid ssrc m c))

/-- What a command gives to layers they have. -/
theorem gets_perform {c : Command} (hs : s.hub.receiver.Sound) (hc : ∀ n, c ≠ .advance n) :
    s.Gets ⟨.command c (s.perform c).2, s.hub, (s.perform c).1.hub⟩ := by
  by_cases hr : c.changesReceiver = true
  · cases c with
    | receiver c =>
      cases hh : s.hub.held with
      | false =>
        rw [perform_of_not_held hh hr]
        refine gets_nothing rfl ?_
        cases c <;> rfl
      | true =>
        cases c with
        | receive es => exact gets_receive hs hh es
        | bind rid ssrc => exact gets_bind hs hh rid ssrc
        | stop => exact gets_nothing ((perform_stop hh).1 ▸ hs.ssrcs_stop s.hub.transport) rfl
        | _ => cases hr
    | _ => cases hr
  · refine gets_nothing ?_ (Change.ssrcs_of_keeps (Bool.not_eq_true _ ▸ hr) _ _ _)
    rcases (deed_of_perform hc).receiver_cases with ⟨hg, -⟩ | ⟨es, rfl, -⟩ | ⟨rid, ssrc, rfl, -⟩ | ⟨rfl, -⟩
    · rw [hg]
    all_goals exact absurd rfl hr

/-- The layers have the SSRCs that were given to them. -/
structure Gives (s : Session) (past : List Change) : Prop where
  sound : s.hub.receiver.Sound
  perm : List.Perm s.hub.receiver.ssrcs (past.flatMap Change.ssrcs)

theorem gives_invariant : Invariant Gives where
  move _ _ t _ h hm := by
    have hr := (Hub.move_of_move? (Hub.of_mover? hm).2).framed.receiver
    refine ⟨hr ▸ h.sound, ?_⟩
    rw [List.flatMap_append, List.flatMap_singleton]
    exact hr.symm ▸ (List.append_nil _).symm ▸ h.perm
  clock _ _ _ h := ⟨h.sound, h.perm⟩
  command _ _ _ h hc := by
    refine ⟨sound_perform h.sound hc, ?_⟩
    rw [List.flatMap_append, List.flatMap_singleton]
    exact (gets_perform h.sound hc).trans (h.perm.append_right _)
  shown _ _ h := ⟨h.sound, h.perm⟩

theorem gives_after (settings : Settings) (kind : Kind) (cs : List Command) :
    ((new settings kind).after cs).Gives ((new settings kind).history cs) :=
  @Invariant.after _ gives_invariant cs _ [] ⟨sound_new kind settings.receiverMtu, .refl _⟩

/-- In every state that a session comes to, layers share no SSRC exactly if none was given to layers twice. -/
theorem distinct_iff (settings : Settings) (kind : Kind) (cs : List Command) :
    ((new settings kind).after cs).hub.receiver.Distinct
      ↔ (((new settings kind).history cs).flatMap Change.ssrcs).Nodup := by
  have h := gives_after settings kind cs
  rw [h.sound.distinct_iff_nodup, h.perm.nodup_iff]

end Session

/-! ## What a layer is fed -/

/-- A change takes one datagram from a media stream, and what it writes to outbound tracks, if anything, is the packet
of that datagram, to the track of a RID. -/
inductive Change.HandsOn (x : Change) (f : Forwarder) (rid : String) (ssrc : Ssrc) : Prop
  | nothing {d : Datagram} (ht : x.taken .media ssrc = [d]) (he : x.after.egress = x.before.egress) :
    HandsOn x f rid ssrc
  | packet {d : Datagram} {p : Rtp.Packet} {track : Nat} (ht : x.taken .media ssrc = [d]) (hd : decodeMedia d = .ok p)
    (hf : f.routes.find? rid = some track)
    (he : x.after.egress = (x.before.egress.write track (Forwarder.stamp x.before.egress track p)).1) :
    HandsOn x f rid ssrc

/-- Each layer has its stream for itself. -/
structure Unshared (past : List Change) (h : Hub) : Prop where
  /-- No two layers have the same SSRC, once it is known. -/
  distinct : ∀ k ∈ h.receiver.layers, ∀ l ∈ h.receiver.layers, k.ssrc = l.ssrc → k.ssrc ≠ 0 → k = l
  /-- A stream that was given to a layer feeds that layer and no other. -/
  feeds : ∀ ssrc ∈ past.flatMap Change.ssrcs, ∃ l ∈ h.receiver.layers, l.isReady = true ∧ l.ssrc = ssrc
    ∧ ∀ rid, h.receiver.standing (.media rid) = .atStream .media ssrc → rid = l.rid
  /-- Datagrams that relays take from a stream go to the track of its layer, if anywhere. -/
  relayed : ∀ x ∈ past, ∀ t p j, x.cause = .move t → t.job = .pump p → p.relay = some j → ∀ ssrc,
    x.taken .media ssrc ≠ [] → ∃ l ∈ h.receiver.layers, l.rid = p.rid ∧ l.isReady = true ∧ l.ssrc = ssrc
      ∧ ∃ r, h.relays[j]? = some r ∧ x.HandsOn r.forwarder l.rid ssrc
  /-- The layer that is found by an SSRC is the only one that is bound to it. -/
  found : ∀ ssrc, ssrc ≠ 0 → ∀ l, h.receiver.layerOfSsrc? ssrc = some l →
    l.isReady = true ∧ l.ssrc = ssrc ∧ ∀ k ∈ h.receiver.layers, k.ssrc = ssrc → k = l

namespace Hub

variable {h g : Hub} {t : Task} {p : Pump} {past : List Change} {ssrc : Ssrc}

/-- Forwarding a packet is writing it to the track of the RID, if there is one. -/
theorem fst_forward (f : Forwarder) (e : Egress) (rid : String) (packet : Rtp.Packet) :
    (f.forward e rid packet).1 = e
      ∨ ∃ track, f.routes.find? rid = some track
        ∧ (f.forward e rid packet).1 = (e.write track (Forwarder.stamp e track packet)).1 := by
  unfold Forwarder.forward
  split
  · exact .inl rfl
  · next track hf => exact .inr ⟨track, hf, rfl⟩

/-- A pump that takes a datagram takes it from the stream of its layer and hands it on. -/
theorem handsOn_move (ha : h.receiver.Accounted past) (hm : h.move? t = some g) (hj : t.job = .pump p)
    (ht : (Change.mk (.move t) h g).taken .media ssrc ≠ []) :
    (∃ l ∈ h.receiver.layers, l.rid = p.rid ∧ l.isReady = true ∧ l.ssrc = ssrc)
      ∧ (Change.mk (.move t) h g).HandsOn p.forwarder p.rid ssrc := by
  have hx := handles_move hm
  have hq : t.job.query? = some ⟨.media p.rid, .decoded⟩ := by rw [hj]; rfl
  obtain ⟨n, hr⟩ : ∃ n, (Change.mk (.move t) h g).streamRead? = some (.media, ssrc, n) := by
    by_contra hn
    exact ht (hx.idle (not_exists.mp hn))
  constructor
  · simp only [Change.streamRead?, hq] at hr
    split at hr
    · cases hr
    · obtain ⟨-, hs, -⟩ := target?_eq_some_iff.mp hr
      obtain ⟨-, k, hk, hkr, c, cc, hb⟩ := Receiver.layer_of_standing hs
      have hready : k.isReady = true := by simp [Layer.isReady, hb, Binding.isReady]
      exact ⟨k, hk, hkr, hready, (ha.named k hk ssrc c cc hb).1.symm⟩
  · cases hx.reads hr with
    | ended _ _ he => exact absurd he ht
    | waits _ _ _ he => exact absurd he ht
    | @takes d _ _ hs he =>
      -- the datagram is lost, or no packet, or its packet is forwarded
      have hs := hs _ hq
      by_cases hlen : n < d.length
      · rw [if_pos hlen] at hs
        obtain ⟨u, hg⟩ := hs
        refine .nothing he (hg ▸ ?_)
        simp only [finish, hj]
        exact egress_pumped_error _ t p _
      · rw [if_neg hlen] at hs
        cases hd : decodeMedia d with
        | error cause =>
          simp only [Read.progress, Read.data, Source.channel, hd, Except.map] at hs
          obtain ⟨u, hg⟩ := hs
          refine .nothing he (hg ▸ ?_)
          simp only [finish, hj]
          exact egress_pumped_error _ t p cause
        | ok packet =>
          simp only [Read.progress, Read.data, Source.channel, hd, Except.map] at hs
          obtain ⟨u, hg⟩ := hs
          simp only [finish, hj] at hg
          have hge : g.egress = (p.forwarder.forward h.egress p.rid packet).1 := by
            rw [hg]
            exact egress_pumped_packet _ t p packet
          rcases fst_forward p.forwarder h.egress p.rid packet with hk | ⟨track, hf, hw⟩
          · exact .nothing he (hge.trans hk)
          · exact .packet he hd hf (hge.trans hw)

end Hub

/-! ## Runs -/

namespace Session

open Receiver

variable {s : Session} {past : List Change}

/-- A datagram that the pump of a relay takes is of the stream of the pump's layer, and goes where the relay sends the
packets of that layer. -/
def RelaysOwn (x : Change) : Prop :=
  ∀ t p j, x.cause = .move t → t.job = .pump p → p.relay = some j → ∀ ssrc, x.taken .media ssrc ≠ [] →
    (∃ l ∈ x.before.receiver.layers, l.rid = p.rid ∧ l.isReady = true ∧ l.ssrc = ssrc)
      ∧ ∃ r, x.before.relays[j]? = some r ∧ x.HandsOn r.forwarder p.rid ssrc

theorem relaysOwn_history (settings : Settings) (kind : Kind) (cs : List Command) :
    ∀ x ∈ (new settings kind).history cs, RelaysOwn x := by
  have along : Along (fun _ x => RelaysOwn x) [] ((new settings kind).history cs) := by
    refine (accounted_invariant.and proper_invariant).along ?_ ?_ cs
      ⟨accounted_new kind settings.receiverMtu, proper_new settings kind⟩
    · rintro s past t g ⟨ha, hp⟩ hm _ p j ⟨⟩ hj hr ssrc ht
      obtain ⟨htm, hmove⟩ := Hub.of_mover? hm
      obtain ⟨a, o⟩ := hp.owned
      obtain ⟨⟨r, m, hget, -, -⟩, hf, -⟩ := o.pump t htm p j hj hr
      obtain ⟨hl, hx⟩ := Hub.handsOn_move ha hmove hj ht
      exact ⟨hl, r, hget, hf r hget ▸ hx⟩
    · rintro s past c - - t p j ⟨⟩
  exact fun x hx => (along.of_mem hx).elim fun _ h => h

/-- As long as no SSRC is given to layers twice, each layer has its stream for itself. -/
theorem layers_unshared (settings : Settings) (kind : Kind) (cs : List Command)
    (hn : (((new settings kind).history cs).flatMap Change.ssrcs).Nodup) :
    Unshared ((new settings kind).history cs) ((new settings kind).after cs).hub := by
  have hg := gives_after settings kind cs
  have ha := accounted_after settings kind cs
  have ho := grown_after (s := new settings kind) (sound_new kind settings.receiverMtu) cs
  have hown := relaysOwn_history settings kind cs
  generalize (new settings kind).after cs = s at *
  generalize (new settings kind).history cs = past at *
  have distinct : ∀ k ∈ s.hub.receiver.layers, ∀ l ∈ s.hub.receiver.layers, k.ssrc = l.ssrc → k.ssrc ≠ 0 → k = l :=
    fun k hk l hl => hg.sound.eq_of_ssrc_eq (hg.perm.nodup_iff.mpr hn) hk hl
  have given : ∀ ssrc ∈ past.flatMap Change.ssrcs, ∃ l ∈ s.hub.receiver.layers, l.isReady = true ∧ l.ssrc = ssrc := by
    intro ssrc hs
    obtain ⟨l, hl, rfl⟩ := List.mem_map.mp (hg.perm.mem_iff.mpr hs)
    exact ⟨l, (List.mem_filter.mp hl).1, (List.mem_filter.mp hl).2, rfl⟩
  refine ⟨distinct, fun ssrc hs => ?_, fun x hx t p j hc hj hr ssrc ht => ?_, fun ssrc hz l hl => ?_⟩
  · obtain ⟨l, hl, hready, rfl⟩ := given ssrc hs
    refine ⟨l, hl, hready, rfl, fun rid hst => ?_⟩
    obtain ⟨-, k, hk, hkr, c, cc, hb⟩ := layer_of_standing hst
    have hks := (ha.named k hk _ c cc hb).1
    rw [← hkr, distinct k hk l hl hks.symm (hks ▸ (hg.sound.ready l hl).mp hready)]
  · obtain ⟨⟨l, hl, hlr, hready, hls⟩, r, hget, hx'⟩ := hown x hx t p j hc hj hr ssrc ht
    obtain ⟨hsound, honward⟩ := ho.before x hx
    obtain ⟨l', hl', hll⟩ := honward.receiver.layer? (hsound.layer?_eq hl)
    obtain ⟨r', hget', hrr⟩ := honward.relays j r hget
    have hz := (hsound.ready l hl).mp hready
    refine ⟨l', List.mem_of_find?_eq_some hl', hll.rid.trans hlr, hll.ready hready, ?_, r', hget', ?_⟩
    · exact (hll.ssrc.resolve_right fun h => hz h.1).trans hls
    · rw [hrr.forwarder, hll.rid, hlr]
      exact hx'
  · have hmem := List.mem_of_find?_eq_some hl
    have hls : l.ssrc = ssrc := by simpa using List.find?_some hl
    refine ⟨(hg.sound.ready l hmem).mpr (hls ▸ hz), hls, fun k hk hks => ?_⟩
    exact distinct k hk l hmem (hks.trans hls.symm) (hks ▸ hz)

/-- One layer is bound from the start, and the other one later. -/
theorem layers_unshared_bound_late :
    let cs : List Command := [.outbound (.add "oq" 100 "video" "stream" none (some "wq")),
      .outbound (.add "oh" 200 "video" "stream" none (some "wh")), .relay (.add "r" [("q", "oq"), ("h", "oh")]),
      .receiver (.receive [⟨"q", 0⟩, ⟨"h", 2⟩]), .receiver (.bind "q" 1),
      .transport (.pushMedia 2 { payload := [2] }), .transport (.pushMedia 1 { payload := [1] })]
    let s := (new {} .video).after cs
    (((new {} .video).history cs).flatMap Change.ssrcs).Nodup
      ∧ (s.hub.egress.writer "wq").written = [{ ssrc := 100, payload := [1] }]
      ∧ (s.hub.egress.writer "wh").written = [{ ssrc := 200, payload := [2] }]
      ∧ Unshared ((new {} .video).history cs) s.hub :=
  ⟨by decide +kernel, by decide +kernel, by decide +kernel, layers_unshared {} .video _ (by decide +kernel)⟩

/-- If two layers have one SSRC, a relay hands one packet to the track of the one and the next packet to that of the
other. A stream whose control stream cannot be opened feeds no layer, and a layer that has no SSRC yet is found by the
SSRC zero. -/
theorem layers_share :
    let s := (new {} .video).after [.outbound (.add "oa" 100 "video" "stream" none (some "wa")),
      .outbound (.add "ob" 200 "video" "stream" none (some "wb")), .relay (.add "r" [("a", "oa"), ("b", "ob")]),
      .receiver (.receive [⟨"a", 7⟩, ⟨"b", 7⟩]), .transport (.pushMedia 7 { payload := [1] }),
      .transport (.pushMedia 7 { payload := [2] })]
    let s' := (new {} .video).after [.receiver (.receive [⟨"a", 0⟩]), .transport (.refuseOpen .control 5),
      .receiver (.bind "a" 5)]
    s.hub.receiver.layers = [⟨"a", 7, .bound 7 7 false⟩, ⟨"b", 7, .bound 7 7 false⟩]
      ∧ (s.hub.egress.writer "wa").written = [{ ssrc := 100, payload := [1] }]
      ∧ (s.hub.egress.writer "wb").written = [{ ssrc := 200, payload := [2] }]
      ∧ s'.hub.transport.media.opened = [5]
      ∧ s'.hub.receiver.layerOfSsrc? 0 = some ⟨"a", 0, .unbound⟩ ∧ s'.hub.receiver.layerOfSsrc? 5 = none := by
  decide +kernel

end Session

end MediaRelay
