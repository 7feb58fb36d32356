import MediaRelay.Proofs.Deeds
import MediaRelay.Proofs.History
import MediaRelay.Proofs.Moves
import MediaRelay.Proofs.Receiving

/-!
# What a run of a session does to the receiver

- only three commands change the receiver, and no task does (`Deed.receiver_cases`);
- `Change.stopClosings` and `Change.openClosings` are the streams that a change attempts to close;
- `Receiver.Accounted` relates the layers to what earlier stops have closed, in every state that a session comes to
  (`accounted_after`).
-/

namespace MediaRelay

/-! ## The closes of a change -/

/-- What the receiver attempts to close in a change that stops it. -/
def Change.stopClosings (c : Change) : List (Closing Ssrc) :=
  match c.cause with
  | .command (.receiver .stop) _ =>
    if c.before.held then c.before.receiver.closingsOfStop c.before.transport else []
  | _ => []

/-- What the receiver attempts to close in a change that was to open streams. -/
def Change.openClosings (c : Change) : List (Closing Ssrc) :=
  match c.cause with
  | .command (.receiver (.receive es)) _ =>
    if c.before.held then c.before.receiver.closingsOfReceive c.before.transport es else []
  | .command (.receiver (.bind rid ssrc)) _ =>
    if c.before.held then c.before.receiver.closingsOfBind c.before.transport rid ssrc else []
  | _ => []

/-- What the stops of a run have attempted to close, in order. -/
def stopClosings (past : List Change) : List (Closing Ssrc) :=
  past.flatMap Change.stopClosings

/-- Whether stops of a run have closed a stream. -/
def ClosedByStop (past : List Change) (ch : Channel) (ssrc : Ssrc) : Prop :=
  ⟨ch, ssrc, .ok ()⟩ ∈ stopClosings past

theorem stopClosings_append (past new : List Change) :
    stopClosings (past ++ new) = stopClosings past ++ stopClosings new :=
  List.flatMap_append

theorem stopClosings_singleton (c : Change) : stopClosings [c] = c.stopClosings := by
  simp [stopClosings]

/-! ## Changes of the receiver -/

namespace Hub

theorem receiver_read (h : Hub) (q : Read) : (h.read q).1.receiver = h.receiver := by
  obtain ⟨u, hu, -⟩ := h.read_transport q
  rw [hu]

end Hub

namespace Session

variable {s : Session} {c : Command} {g : Hub}

/-- A command changes the receiver only by receiving, binding or stopping. -/
theorem Deed.receiver_cases {names : Table String Token} (d : s.Deed c g names) :
    (g.receiver = s.hub.receiver ∧ ∀ reply, (Change.mk (.command c reply) s.hub g).stopClosings = [])
      ∨ (∃ es, c = .receiver (.receive es) ∧ g.receiver = (s.hub.receiver.receive s.hub.transport es).1)
      ∨ (∃ rid ssrc, c = .receiver (.bind rid ssrc) ∧ g.receiver = (s.hub.receiver.bind s.hub.transport rid ssrc).1)
      ∨ (c = .receiver .stop ∧ s.hub.held ∧ g.receiver = (s.hub.receiver.stop s.hub.transport).1) := by
  have noStop : ∀ {c : Command}, c.changesReceiver = false → ∀ reply (g : Hub),
      (Change.mk (.command c reply) s.hub g).stopClosings = [] := by
    intro c hc reply g
    unfold Change.stopClosings
    dsimp only
    split
    · next h => cases h; cases hc
    · rfl
  cases d with
  | idle hc => exact .inl ⟨rfl, fun reply => noStop hc reply _⟩
  | gone hh =>
    refine .inl ⟨rfl, fun reply => ?_⟩
    unfold Change.stopClosings
    dsimp only
    split
    · rw [if_neg (by rw [hh]; decide)]
    · rfl
  | handle hc | write hc => exact .inl ⟨rfl, fun reply => noStop hc reply _⟩
  | receiveFailed => exact .inr (.inl ⟨_, rfl, rfl⟩)
  | receive => exact .inr (.inl ⟨_, rfl, rfl⟩)
  | bind => exact .inr (.inr (.inl ⟨_, _, rfl, rfl⟩))
  | stop hh => exact .inr (.inr (.inr ⟨rfl, hh, rfl⟩))
  | read q => exact .inl ⟨s.hub.receiver_read q, fun _ => rfl⟩
  | startRelay => exact .inl ⟨(s.hub.framed_startRelay _ _).receiver, fun _ => rfl⟩
  | _ => exact .inl ⟨rfl, fun _ => rfl⟩

end Session

/-! ## What has been closed and what is still to be closed -/

namespace Receiver

variable {r : Receiver Ssrc} {past : List Change}

/-- Layers that are ready have different SSRCs. -/
def Distinct (r : Receiver Ssrc) : Prop :=
  ∀ k ∈ r.layers, ∀ l ∈ r.layers, k.isReady → l.isReady → k.ssrc = l.ssrc → k.rid = l.rid

instance (r : Receiver Ssrc) : Decidable r.Distinct :=
  inferInstanceAs (Decidable (∀ k ∈ r.layers, ∀ l ∈ r.layers, k.isReady → l.isReady → k.ssrc = l.ssrc → k.rid = l.rid))

/-- If ready layers have different SSRCs later they had before. -/
theorem Onward.distinct {r r' : Receiver Ssrc} (h : r.Onward r') (hs : r.Sound) (hd : r'.Distinct) : r.Distinct := by
  intro k hk l hl hkr hlr e
  obtain ⟨ls', hls', hf⟩ := h.track _ (track_of_layers_ne_nil (List.ne_nil_of_mem hk))
  have hlater : ∀ j ∈ r.layers, ∃ j' ∈ r'.layers, j.Onward j' := fun j hj => by
    rw [layers_of_track hls']
    exact exists_of_mem_left hf hj
  obtain ⟨k', hk', hkk⟩ := hlater k hk
  obtain ⟨l', hl', hll⟩ := hlater l hl
  have hsame : ∀ j j' : Layer Ssrc, j ∈ r.layers → j.isReady → j.Onward j' → j'.ssrc = j.ssrc :=
    fun j j' hj hjr hjj => hjj.ssrc.elim id fun hz => absurd hz.1 ((hs.ready j hj).mp hjr)
  have := hd k' hk' l' hl' (hkk.ready hkr) (hll.ready hlr)
    (by rw [hsame k k' hk hkr hkk, hsame l l' hl hlr hll, e])
  rwa [hkk.rid, hll.rid] at this

/-- The streams of the layers of a receiver and those that stops have closed make up all that was ever bound. -/
structure Accounted (r : Receiver Ssrc) (past : List Change) : Prop where
  sound : r.Sound
  named : ∀ l ∈ r.layers, ∀ m c cc, l.binding = .bound m c cc → m = l.ssrc ∧ c = l.ssrc
  covered : ∀ l ∈ r.layers, l.isReady → ∀ ch, (ch, l.ssrc) ∈ l.toClose ∨ ClosedByStop past ch l.ssrc
  owned : ∀ ch ssrc, ClosedByStop past ch ssrc → ∃ l ∈ r.layers, l.isReady ∧ l.ssrc = ssrc
  unclosed : r.Distinct → ∀ l ∈ r.layers, ∀ x ∈ l.toClose, ¬ ClosedByStop past x.1 x.2

theorem accounted_new (kind : Kind) (mtu : Nat) : Accounted { kind, mtu } [] where
  sound := sound_new kind mtu
  named l hl := by cases hl
  covered l hl := by cases hl
  owned ch ssrc h := by cases h
  unclosed _ l hl := by cases hl

/-- What has the same layers is accounted for just as well. -/
theorem Accounted.of_layers_eq {r' : Receiver Ssrc} {past' : List Change} (h : r.Accounted past) (hs : r'.Sound)
    (hl : r'.layers = r.layers) (hp : stopClosings past' = stopClosings past) : r'.Accounted past' where
  sound := hs
  named := by rw [hl]; exact h.named
  covered := by unfold ClosedByStop; rw [hl, hp]; exact h.covered
  owned := by unfold ClosedByStop; rw [hl, hp]; exact h.owned
  unclosed := by unfold ClosedByStop Distinct; rw [hl, hp]; exact h.unclosed

/-! ## Streams that are still to be closed -/

/-- The streams that are to be closed belong to the layer. -/
theorem Accounted.of_mem_toClose (h : r.Accounted past) {l : Layer Ssrc} (hl : l ∈ r.layers) {x : Channel × Ssrc}
    (hx : x ∈ l.toClose) : l.isReady ∧ x.2 = l.ssrc := by
  unfold Layer.toClose at hx
  cases hb : l.binding with
  | unbound => rw [hb] at hx; cases hx
  | released => rw [hb] at hx; cases hx
  | bound m c cc =>
    obtain ⟨rfl, rfl⟩ := h.named l hl m c cc hb
    rw [hb] at hx
    refine ⟨by simp [Layer.isReady, hb, Binding.isReady], ?_⟩
    cases cc <;> simp at hx
    · rcases hx with rfl | rfl <;> rfl
    · rw [hx]

theorem nodup_toClose_layer (l : Layer Ssrc) : l.toClose.Nodup := by
  unfold Layer.toClose
  cases l.binding with
  | bound m c cc => cases cc <;> simp
  | _ => exact List.nodup_nil

theorem Accounted.nodup_toClose (h : r.Accounted past) (hd : r.Distinct) : (toClose r.layers).Nodup := by
  refine List.nodup_flatMap.mpr ⟨fun l _ => nodup_toClose_layer l, ?_⟩
  have hp : r.layers.Pairwise fun k l => k.rid ≠ l.rid := List.pairwise_map.mp h.sound.rids
  refine hp.imp_of_mem fun {k l} hk hl hne x hxk hxl => hne ?_
  obtain ⟨hrk, hsk⟩ := h.of_mem_toClose hk hxk
  obtain ⟨hrl, hsl⟩ := h.of_mem_toClose hl hxl
  exact hd k hk l hl hrk hrl (hsk.symm.trans hsl)

/-! ## Each operation keeps the account -/

/-- Opening a pair of queues gives the queues of the SSRC. -/
theorem openPair_named {t u : QueueTransport} {ssrc m c : Ssrc} (h : openPair t ssrc = (u, .ok (m, c))) :
    m = ssrc ∧ c = ssrc := by
  simp only [openPair, Transport.openStream, QueueTransport.openStream] at h
  split at h
  · cases h
  · next hm =>
    split at hm
    · cases hm
    · cases hm
      split at h
      · next hc =>
        split at hc
        · cases hc
        · cases hc; cases h; exact ⟨rfl, rfl⟩
      · cases h

/-- A layer that has just been opened holds the queues of its SSRC, if any. -/
theorem binding_of_opened {e : Encoding} {l : Layer Ssrc} (h : e.Opened QueueTransport l) (hr : l.isReady) :
    l.binding = .bound l.ssrc l.ssrc false := by
  have hz := h.isReady_iff.mp hr
  rw [h.ssrc] at hz
  obtain ⟨t, u, m, c, hp, hb⟩ := h.bound hz
  obtain ⟨rfl, rfl⟩ := openPair_named hp
  rw [hb, h.ssrc]

/-- The streams of a layer that holds the queues of its SSRC. -/
theorem mem_toClose_of_bound {l : Layer Ssrc} (hb : l.binding = .bound l.ssrc l.ssrc false) (ch : Channel) :
    (ch, l.ssrc) ∈ l.toClose := by
  cases ch <;> simp [Layer.toClose, hb]

/-- A receiver that receives has not closed anything. -/
theorem Accounted.none_closed (h : r.Accounted past) {es : List Encoding} (hr : r.refuseReceive es = none)
    (ch : Channel) (ssrc : Ssrc) : ¬ ClosedByStop past ch ssrc := by
  intro hc
  obtain ⟨-, -, -, ha⟩ := of_refuseReceive hr
  obtain ⟨l, hl, -⟩ := h.owned ch ssrc hc
  have ht := track_of_layers_ne_nil (List.ne_nil_of_mem hl)
  have := h.sound.attempted (by rw [h.sound.received, ht]; rfl)
  rw [ha] at this
  cases this

theorem accounted_receive (h : r.Accounted past) (t : QueueTransport) (es : List Encoding) {past' : List Change}
    (hp : stopClosings past' = stopClosings past) : (r.receive t es).1.Accounted past' := by
  have hs := sound_receive h.sound t es
  rcases r.receive_cases t es with ⟨e, -, he⟩ | ⟨u, e, -, he⟩ | ⟨u, ls, hr, ho, he⟩ <;> rw [he] at hs ⊢
  · exact h.of_layers_eq hs rfl hp
  · exact h.of_layers_eq hs rfl hp
  · have hnone : ∀ ch ssrc, ¬ ClosedByStop past' ch ssrc := by
      unfold ClosedByStop
      rw [hp]
      exact h.none_closed hr
    exact {
      sound := hs
      named := fun l hl m c cc hb => by
        obtain ⟨e, -, heo⟩ := exists_of_mem_right ho hl
        have := binding_of_opened heo (by simp [Layer.isReady, hb, Binding.isReady])
        rw [hb] at this
        cases this
        exact ⟨rfl, rfl⟩
      covered := fun l hl hready ch => by
        obtain ⟨e, -, heo⟩ := exists_of_mem_right ho hl
        exact .inl (mem_toClose_of_bound (binding_of_opened heo hready) ch)
      owned := fun ch ssrc hc => absurd hc (hnone ch ssrc)
      unclosed := fun _ l _ x _ => hnone x.1 x.2 }

/-- Binding leaves a layer of another RID as it was. -/
theorem bindLayer_of_ne {rid : String} {ssrc m c : Ssrc} {l : Layer Ssrc} (h : l.rid ≠ rid) :
    bindLayer rid ssrc m c l = l := by
  rw [bindLayer, if_neg h]

theorem accounted_bind (h : r.Accounted past) (t : QueueTransport) (rid : String) (ssrc : Ssrc)
    {past' : List Change} (hp : stopClosings past' = stopClosings past) : (r.bind t rid ssrc).1.Accounted past' := by
  have hs := sound_bind h.sound t rid ssrc
  rcases r.bind_cases t rid ssrc with ⟨e, -, he⟩ | ⟨u, e, -, -, he⟩ | ⟨u, m, c, hr, ho, he⟩ <;> rw [he] at hs ⊢
  · exact h.of_layers_eq hs rfl hp
  · exact h.of_layers_eq hs rfl hp
  · obtain ⟨hm, hc⟩ := openPair_named ho
    rw [hm, hc] at hs ⊢
    obtain ⟨-, -, l₀, hl₀, hready₀⟩ := of_refuseBind hr
    have hls := r.layers_map (bindLayer rid ssrc ssrc ssrc)
    have hbound : ∀ k, k.rid = rid →
        bindLayer rid ssrc ssrc ssrc k = { k with ssrc, binding := .bound ssrc ssrc false } :=
      fun k hk => by rw [bindLayer, if_pos hk]
    have hne : ∀ k ∈ r.layers, k.isReady → k.rid ≠ rid := fun k hk hkr e => by
      rw [h.sound.layer_unique hk e hl₀, hready₀] at hkr
      cases hkr
    have hp' : ∀ ch x, ClosedByStop past' ch x ↔ ClosedByStop past ch x := fun ch x => by
      unfold ClosedByStop
      rw [hp]
    exact {
      sound := hs
      named := fun l hl m' c' cc hb => by
        rw [hls] at hl
        obtain ⟨k, hk, rfl⟩ := List.mem_map.mp hl
        by_cases hkr : k.rid = rid
        · rw [hbound k hkr] at hb ⊢
          cases hb
          exact ⟨rfl, rfl⟩
        · rw [bindLayer_of_ne hkr] at hb ⊢
          exact h.named k hk m' c' cc hb
      covered := fun l hl hready ch => by
        rw [hls] at hl
        obtain ⟨k, hk, rfl⟩ := List.mem_map.mp hl
        by_cases hkr : k.rid = rid
        · rw [hbound k hkr]
          exact .inl (mem_toClose_of_bound rfl ch)
        · rw [bindLayer_of_ne hkr] at hready ⊢
          exact (h.covered k hk hready ch).imp id (hp' _ _).mpr
      owned := fun ch x hx => by
        obtain ⟨k, hk, hkr, hkx⟩ := h.owned ch x ((hp' _ _).mp hx)
        refine ⟨k, ?_, hkr, hkx⟩
        rw [hls]
        exact List.mem_map.mpr ⟨k, hk, bindLayer_of_ne (hne k hk hkr)⟩
      unclosed := fun hd l hl x hx hclosed => by
        -- a stream that was closed belongs to a layer that was ready before, so not to the one that is bound now
        have hold : r.Distinct := fun k hk k' hk' hkr hkr' e => by
          refine hd k ?_ k' ?_ hkr hkr' e <;> rw [hls]
          · exact List.mem_map.mpr ⟨k, hk, bindLayer_of_ne (hne k hk hkr)⟩
          · exact List.mem_map.mpr ⟨k', hk', bindLayer_of_ne (hne k' hk' hkr')⟩
        have hl' := hl
        rw [hls] at hl
        obtain ⟨k, hk, rfl⟩ := List.mem_map.mp hl
        by_cases hkr : k.rid = rid
        · obtain ⟨j, hj, hjr, hjx⟩ := h.owned _ _ ((hp' _ _).mp hclosed)
          have hxm : x.2 = ssrc := by
            rw [hbound k hkr] at hx
            simp [Layer.toClose] at hx
            rcases hx with rfl | rfl <;> rfl
          refine hne j hj hjr (Eq.trans ?_ hkr)
          have := hd j ?_ _ hl' hjr ?_ ?_
          · rwa [rid_bindLayer] at this
          · rw [hls]
            exact List.mem_map.mpr ⟨j, hj, bindLayer_of_ne (hne j hj hjr)⟩
          · rw [hbound k hkr]
            rfl
          · rw [hbound k hkr]
            exact hjx.trans hxm
        · rw [bindLayer_of_ne hkr] at hx
          exact h.unclosed hold k hk x hx ((hp' _ _).mp hclosed) }

/-- What stopping does to what stops have closed. -/
theorem closedByStop_snoc {past' : List Change} {log : List (Closing Ssrc)}
    (hp : stopClosings past' = stopClosings past ++ log) (ch : Channel) (ssrc : Ssrc) :
    ClosedByStop past' ch ssrc ↔ ClosedByStop past ch ssrc ∨ ⟨ch, ssrc, .ok ()⟩ ∈ log := by
  unfold ClosedByStop
  rw [hp, List.mem_append]

/-- What layers were bound to is what they are bound to after a stop. -/
theorem Layer.Closed.bound_of {log : List (Closing Ssrc)} {l l' : Layer Ssrc} (h : l.Closed log l') {m c : Ssrc}
    {cc : Bool} (hb : l'.binding = .bound m c cc) : ∃ cc', l.binding = .bound m c cc' := by
  cases h with
  | kept => exact ⟨cc, hb⟩
  | half hb' => cases hb; exact ⟨_, hb'⟩
  | full => cases hb

theorem accounted_stop (h : r.Accounted past) (t : QueueTransport) {past' : List Change}
    (hp : stopClosings past' = stopClosings past ++ r.closingsOfStop t) : (r.stop t).1.Accounted past' := by
  have hs := sound_stop h.sound t
  have hcl := stop_closed h.sound.received t
  have hp' := closedByStop_snoc hp
  have hplan : ∀ c ∈ r.closingsOfStop t, ∃ l ∈ r.layers, c.target ∈ l.toClose := fun c hc => by
    by_cases hph : r.phase = .stopped
    · rw [closingsOfStop_of_stopped hph] at hc
      cases hc
    · have := (stop_sweep h.sound.received hph t).prefix_plan.mem (List.mem_map_of_mem hc)
      exact List.mem_flatMap.mp this
  exact {
    sound := hs
    named := fun l' hl' m c cc hb => by
      obtain ⟨l, hl, hll⟩ := exists_of_mem_right hcl hl'
      obtain ⟨cc', hb'⟩ := Layer.Closed.bound_of hll hb
      rw [hll.ssrc_eq]
      exact h.named l hl m c cc' hb'
    covered := fun l' hl' hready ch => by
      obtain ⟨l, hl, hll⟩ := exists_of_mem_right hcl hl'
      rw [hll.isReady_eq] at hready
      rw [hll.ssrc_eq, hp']
      rcases h.covered l hl hready ch with hx | hx
      · exact (hll.toClose hx).imp id .inr
      · exact .inr (.inl hx)
    owned := fun ch ssrc hx => by
      rcases (hp' ch ssrc).mp hx with hx | hx
      · obtain ⟨l, hl, hlr, hls⟩ := h.owned ch ssrc hx
        obtain ⟨l', hl', hll⟩ := exists_of_mem_left hcl hl
        exact ⟨l', hl', by rwa [hll.isReady_eq], by rwa [hll.ssrc_eq]⟩
      · obtain ⟨l, hl, hlx⟩ := hplan _ hx
        obtain ⟨hlr, hls⟩ := h.of_mem_toClose hl hlx
        obtain ⟨l', hl', hll⟩ := exists_of_mem_left hcl hl
        exact ⟨l', hl', by rwa [hll.isReady_eq], by rw [hll.ssrc_eq]; exact hls.symm⟩
    unclosed := fun hd l' hl' x hx hclosed => by
      have hold : r.Distinct := fun k hk k' hk' hkr hkr' e => by
        obtain ⟨j, hj, hjk⟩ := exists_of_mem_left hcl hk
        obtain ⟨j', hj', hjk'⟩ := exists_of_mem_left hcl hk'
        have := hd j hj j' hj' (by rwa [hjk.isReady_eq]) (by rwa [hjk'.isReady_eq])
          (by rw [hjk.ssrc_eq, hjk'.ssrc_eq, e])
        rwa [hjk.rid_eq, hjk'.rid_eq] at this
      by_cases hph : r.phase = .stopped
      · rw [stop_of_stopped hph] at hl'
        rw [closingsOfStop_of_stopped hph, List.append_nil] at hp
        unfold ClosedByStop at hclosed
        rw [hp] at hclosed
        exact h.unclosed hold l' hl' x hx hclosed
      · have hsw := stop_sweep h.sound.received hph t
        have hmem : x ∈ toClose (r.stop t).1.layers := List.mem_flatMap.mpr ⟨l', hl', hx⟩
        have hnodup := h.nodup_toClose hold
        rw [hsw.plan_eq] at hnodup
        rcases (hp' _ _).mp hclosed with hc | hc
        · have hplan' : x ∈ toClose r.layers := by
            rw [hsw.plan_eq]
            exact List.mem_append_right _ hmem
          obtain ⟨l, hl, hlx⟩ := List.mem_flatMap.mp hplan'
          exact h.unclosed hold l hl x hlx hc
        · refine List.disjoint_of_nodup_append hnodup (a := x) ?_ hmem
          exact List.mem_map.mpr ⟨_, List.mem_filter.mpr ⟨hc, rfl⟩, rfl⟩ }

end Receiver

/-! ## Runs -/

namespace Session

open Receiver

/-- What runs keep: the receiver is accounted for. -/
theorem accounted_perform {s : Session} {past : List Change} {c : Command} (h : s.hub.receiver.Accounted past)
    (hc : ∀ n, c ≠ .advance n) (reply : Reply) :
    (s.perform c).1.hub.receiver.Accounted (past ++ [⟨.command c reply, s.hub, (s.perform c).1.hub⟩]) := by
  rcases (deed_of_perform hc).receiver_cases with ⟨hr, hn⟩ | ⟨es, rfl, hr⟩ | ⟨rid, ssrc, rfl, hr⟩ | ⟨rfl, hh, hr⟩ <;>
    rw [hr]
  · apply h.of_layers_eq h.sound rfl
    rw [stopClosings_append, stopClosings_singleton, hn, List.append_nil]
  · apply accounted_receive h s.hub.transport es
    rw [stopClosings_append, stopClosings_singleton]
    exact List.append_nil _
  · apply accounted_bind h s.hub.transport rid ssrc
    rw [stopClosings_append, stopClosings_singleton]
    exact List.append_nil _
  · apply accounted_stop h s.hub.transport
    rw [stopClosings_append, stopClosings_singleton]
    simp only [Change.stopClosings, if_pos hh]

theorem accounted_move {s : Session} {past : List Change} {t : Task} {g : Hub} (h : s.hub.receiver.Accounted past)
    (hm : s.hub.mover? = some (t, g)) : g.receiver.Accounted (past ++ [⟨.move t, s.hub, g⟩]) := by
  rw [(Hub.move_of_move? (Hub.of_mover? hm).2).framed.receiver]
  apply h.of_layers_eq h.sound rfl
  rw [stopClosings_append, stopClosings_singleton]
  exact List.append_nil _

theorem accounted_invariant : Invariant fun s past => s.hub.receiver.Accounted past where
  move _ _ _ _ h hm := accounted_move h hm
  clock _ _ _ h := h
  command _ _ _ h hc := accounted_perform h hc _
  shown _ _ h := h

/-- In every state that a session comes to the receiver is accounted for. -/
theorem accounted_after (settings : Settings) (kind : Kind) (cs : List Command) :
    ((new settings kind).after cs).hub.receiver.Accounted ((new settings kind).history cs) :=
  @Invariant.after _ accounted_invariant cs _ [] (accounted_new kind settings.receiverMtu)

theorem sound_perform {s : Session} {c : Command} (h : s.hub.receiver.Sound) (hc : ∀ n, c ≠ .advance n) :
    (s.perform c).1.hub.receiver.Sound := by
  rcases (deed_of_perform hc).receiver_cases with ⟨hr, -⟩ | ⟨es, -, hr⟩ | ⟨rid, ssrc, -, hr⟩ | ⟨-, -, hr⟩ <;> rw [hr]
  · exact h
  · exact sound_receive h _ es
  · exact sound_bind h _ rid ssrc
  · exact sound_stop h _

end Session

end MediaRelay
