import MediaRelay.Proofs.Delivery
import MediaRelay.Proofs.Rounds

/-!
# How the layers of a relay fail

A `Fault` is what makes the pump of a layer end with an error, and `Change.Fails` says that one did in a change.

- `Hub.publishes_move`: the relay publishes a failure if its pump fails in a move, and else it publishes nothing;
- `Hub.Spent`: nothing but a scheduler that is cancelled is left of the tasks of a layer; that is so when its pump has
  failed (`spent_failPump`) and ever after (`Spent.next`), and such tasks touch nothing (`Spent.spares`);
- `Session.failing_after`: so it is in every run, and no layer fails twice.
-/

namespace MediaRelay

/-! ## Faults -/

/-- What goes wrong for the pump of a layer in a change. -/
inductive Fault (x : Change) (p : Pump) : Error → Prop
  /-- It has nowhere to forward to, and reads nothing. -/
  | unrouted (hf : p.forwarder.has p.rid = false) (ht : x.after.transport = x.before.transport) :
    Fault x p (.noOutboundTrack p.rid)
  /-- Its read fails. -/
  | unread {e : Error} (hf : p.forwarder.has p.rid = true)
      (hr : (x.before.read ⟨.media p.rid, .decoded⟩).2 = .done (.error e)) : Fault x p e
  /-- The packet that it has read cannot be forwarded, and not because whoever takes the packets has gone. -/
  | unforwarded {packet : Rtp.Packet} {e : Error} (hf : p.forwarder.has p.rid = true)
      (hr : (x.before.read ⟨.media p.rid, .decoded⟩).2 = .done (.ok (.media packet)))
      (hw : (p.forwarder.forward x.before.egress p.rid packet).2 = .error e) (hc : e.isClosedPipe = false) :
      Fault x p e

/-- In a change the pump of a relay's layer ends with an error while the token of the layer is not cancelled. -/
structure Change.Fails (x : Change) (j : Nat) (f : Failure) : Prop where
  pump : ∃ t p, x.cause = .move t ∧ t.job = .pump p ∧ p.relay = some j ∧ p.rid = f.rid
    ∧ x.before.isCancelled p.token = false ∧ Fault x p f.cause
  ssrc : f.ssrc = x.before.ssrcOf f.rid

/-- A change publishes the failure of a layer of a relay if its pump fails in it, and else none. -/
def Change.Publishes (x : Change) (j : Nat) : Prop :=
  (∃ f, x.Fails j f ∧ x.after.published j = x.before.published j ++ [f])
    ∨ (∀ f, ¬ x.Fails j f) ∧ x.after.published j = x.before.published j

/-- No task that a relay runs for a layer takes a datagram, leaves a packet or gives feedback in a change. -/
def Change.Spares (x : Change) (j : Nat) (rid : String) : Prop :=
  ∀ r, x.before.relays[j]? = some r → ∀ t, x.cause = .move t → t.serves r.token rid = true →
    x.after.transport = x.before.transport ∧ x.after.egress = x.before.egress ∧ x.after.feedback = x.before.feedback

/-- Only one thing can go wrong at a time. -/
theorem Fault.unique {x : Change} {p : Pump} {e e' : Error} (h : Fault x p e) (h' : Fault x p e') : e = e' := by
  cases h with
  | unrouted hf =>
    cases h' with
    | unrouted => rfl
    | unread hf' | unforwarded hf' => cases hf.symm.trans hf'
  | unread hf hr =>
    cases h' with
    | unrouted hf' => cases hf.symm.trans hf'
    | unread _ hr' | unforwarded _ hr' =>
      cases hr.symm.trans hr'
      try rfl
  | unforwarded hf hr hw =>
    cases h' with
    | unrouted hf' => cases hf.symm.trans hf'
    | unread _ hr' => cases hr.symm.trans hr'
    | unforwarded _ hr' hw' =>
      cases hr.symm.trans hr'
      cases hw.symm.trans hw'
      rfl

theorem Change.Fails.unique {x : Change} {j : Nat} {f f' : Failure} (h : x.Fails j f) (h' : x.Fails j f') : f = f' := by
  obtain ⟨t, p, ht, hj, -, hi, -, hfault⟩ := h.pump
  obtain ⟨t', p', ht', hj', -, hi', -, hfault'⟩ := h'.pump
  cases ht.symm.trans ht'
  cases hj.symm.trans hj'
  have hrid := hi.symm.trans hi'
  have hssrc := h.ssrc
  rw [hrid, ← h'.ssrc] at hssrc
  obtain ⟨rid, ssrc, cause⟩ := f
  obtain ⟨rid', ssrc', cause'⟩ := f'
  obtain rfl : rid = rid' := hrid
  obtain rfl : ssrc = ssrc' := hssrc
  exact congrArg (Failure.mk rid ssrc) (hfault.unique hfault')

/-- Commands are no failures of layers. -/
theorem Change.not_fails_command (c : Command) (reply : Reply) (h g : Hub) (j : Nat) (f : Failure) :
    ¬ (Change.mk (.command c reply) h g).Fails j f := by
  intro hf
  obtain ⟨t, -, ht, -⟩ := hf.pump
  cases ht

/-- Forwarding never fails because whoever takes the packets has gone. -/
theorem Forwarder.not_isClosedPipe {f : Forwarder} {e : Egress} {rid : String} {p : Rtp.Packet} {cause : Error}
    (h : (f.forward e rid p).2 = .error cause) : cause.isClosedPipe = false := by
  unfold forward at h
  split at h
  · cases h
    rfl
  · unfold delivered at h
    dsimp only at h
    split at h
    · cases h
    · split at h
      · cases h
      · next hc =>
        cases h
        simpa using hc

namespace Owned

variable {h : Hub} {names : Table String Token} {a : Leases} {u : Task} {j : Nat} {r : Relay} {rid : String}

/-- Who serves a layer of a relay has the token of that layer. -/
theorem token_of_serves (o : Owned h names a) (ha : h.Apart) (hu : u ∈ h.tasks) (hr : h.relays[j]? = some r)
    (hs : u.serves r.token rid = true) : ∃ m, u.job.token? = some ⟨m :: r.token.ids, true⟩ ∧ a m = some (j, rid) := by
  obtain ⟨m, rid', hk, hm, hs'⟩ := o.of_belongsTo ha hu hr (Task.belongsTo_iff_serves.mpr ⟨_, hs⟩)
  cases Task.serves_unique hs' hs
  exact ⟨m, hk, hm⟩

/-- A pump that serves a layer of a relay is the relay's. -/
theorem isPumpOf_of_serves (o : Owned h names a) (ha : h.Apart) (hu : u ∈ h.tasks) (hr : h.relays[j]? = some r)
    (hs : u.serves r.token rid = true) {p : Pump} (hj : u.job = .pump p) : u.isPumpOf j rid = true := by
  obtain ⟨m, hk, hm⟩ := o.token_of_serves ha hu hr hs
  rw [hj] at hk
  have hk : p.token = ⟨m :: r.token.ids, true⟩ := Option.some.inj hk
  obtain ⟨hp, rfl⟩ := o.of_mem_pump hu hj hm (by rw [hk]; exact List.mem_cons_self)
  exact Hub.isPumpOf_iff.mpr ⟨p, hj, hp, rfl⟩

theorem serves_of_isPumpOf (o : Owned h names a) (hu : u ∈ h.tasks) (hp : u.isPumpOf j rid = true) :
    ∃ r, h.relays[j]? = some r ∧ u.serves r.token rid = true := by
  obtain ⟨p, hj, hr, rfl⟩ := Hub.isPumpOf_iff.mp hp
  obtain ⟨⟨r, m, hget, htok, -⟩, -⟩ := o.pump u hu p j hj hr
  exact ⟨r, hget, by simp [Task.serves, hj, htok]⟩

end Owned

namespace Hub

variable {h g : Hub} {t u : Task} {p : Pump} {j : Nat} {r : Relay} {rid : String} {names : Table String Token}
  {a : Leases}

/-- What has been published stays published. -/
theorem Onward.published (ho : h.Onward g) (j : Nat) : h.published j <+: g.published j := by
  unfold Hub.published
  cases hr : h.relays[j]? with
  | none => exact List.nil_prefix
  | some r =>
    obtain ⟨r', hr', hon⟩ := ho.relays j r hr
    rw [hr']
    exact hon.failures

/-! ## Moves of pumps -/

/-- A pump that gives up tells its relay. -/
theorem relay_failPump (hr : h.relays[j]? = some r) (hp : p.relay = some j) (t : Task) (e : Error) :
    (h.failPump t p e).relays[j]? = some { r with failures := r.failures ++ [⟨p.rid, h.ssrcOf p.rid, e⟩] } := by
  simp only [failPump, hp, List.getElem?_modify, hr, if_pos, Option.map_eq_map, Option.map_some]

theorem published_failPump_self (hr : h.relays[j]? = some r) (hp : p.relay = some j) (t : Task) (e : Error) :
    (h.failPump t p e).published j = h.published j ++ [⟨p.rid, h.ssrcOf p.rid, e⟩] := by
  simp only [published, relay_failPump hr hp, hr]

theorem move_of_unrouted (hj : t.job = .pump p) (hf : p.forwarder.has p.rid = false) (hm : h.move? t = some g) :
    g = h.failPump t p (.noOutboundTrack p.rid) := by
  simp only [move?, hj, movePump?, hf] at hm
  exact (Option.some.inj hm).symm

/-- What a pump does in a move. -/
inductive PumpMove (h : Hub) (t : Task) (p : Pump) (g : Hub) : Prop
  /-- It gives up. -/
  | fails {e : Error} {u : QueueTransport} {f : Egress} (hfault : Fault ⟨.move t, h, g⟩ p e)
      (hc : p.forwarder.has p.rid = true → h.isCancelled p.token = false)
      (hg : g = failPump { h with transport := u, egress := f } t p e)
  /-- It is cancelled. -/
  | quits (hc : h.isCancelled p.token = true) (hr : g.relays = h.relays)
  | goesOn (hn : ∀ e, ¬ Fault ⟨.move t, h, g⟩ p e) (hr : g.relays = h.relays) (ht : ∃ u ∈ g.tasks, u.job = t.job)

/-- A pump that has somewhere to forward to and is not cancelled goes on as long as its reads and packets do. -/
theorem pumpMove_of_read (hj : t.job = .pump p) (hf : p.forwarder.has p.rid = true)
    (hc : h.isCancelled p.token = false) (hm : h.move? t = some g) : PumpMove h t p g := by
  have hq : t.job.query? = some ⟨.media p.rid, .decoded⟩ := by rw [hj]; rfl
  have hrouted : p.forwarder.has p.rid ≠ false := by rw [hf]; exact Bool.noConfusion
  rw [move?_of_query hq (by simp [quits, hj, hf, hc])] at hm
  rcases (h.read ⟨.media p.rid, .decoded⟩).2.cases_gate? with ⟨x, hx⟩ | ⟨gate, hgate⟩
  · rw [goOn?_of_done hx] at hm
    obtain ⟨v, hv, -⟩ := h.read_transport ⟨.media p.rid, .decoded⟩
    simp only [hv, finish, hj] at hm
    have hm := Option.some.inj hm
    cases x with
    | error e => exact .fails (.unread hf hx) (fun _ => hc) hm.symm
    | ok d =>
      obtain ⟨u, -, hr⟩ := read_done (Prod.ext rfl hx)
      obtain ⟨packet, rfl⟩ := hr.media
      simp only [pumped] at hm
      split at hm
      · next f hw =>
        refine .goesOn (fun e hfault => ?_) (by rw [← hm]; rfl) ⟨⟨t.id, t.job, .ready⟩, ?_, rfl⟩
        · cases hfault with
          | unrouted hf' => exact hrouted hf'
          | unread _ hr => cases hx.symm.trans hr
          | unforwarded _ hr hw' =>
            cases hx.symm.trans hr
            rw [hw] at hw'
            cases hw'
        · rw [← hm]
          exact List.mem_cons_self
      · next f e hw =>
        have hw' : (p.forwarder.forward h.egress p.rid packet).2 = .error e := by rw [hw]
        exact .fails (.unforwarded hf hx hw' (Forwarder.not_isClosedPipe hw')) (fun _ => hc) hm.symm
  · rw [goOn?_of_gate hgate] at hm
    obtain ⟨-, rfl⟩ := park?_eq_some hm
    refine .goesOn (fun e hfault => ?_) rfl ⟨t.at gate, List.mem_append_right _ (List.mem_singleton_self _), rfl⟩
    cases hfault with
    | unrouted hf' => exact hrouted hf'
    | unread _ hr | unforwarded _ hr =>
      rw [hr] at hgate
      cases hgate

theorem pumpMove (hj : t.job = .pump p) (hm : h.move? t = some g) : PumpMove h t p g := by
  cases hf : p.forwarder.has p.rid with
  | false =>
    have hg := move_of_unrouted hj hf hm
    refine .fails (u := h.transport) (f := h.egress) (.unrouted hf ?_) (fun hf' => absurd (hf.symm.trans hf') ?_) hg
    · rw [hg]
      exact (h.failPump_fields t p _).1
    · exact Bool.noConfusion
  | true =>
    cases hc : h.isCancelled p.token with
    | false => exact pumpMove_of_read hj hf hc hm
    | true =>
      simp only [move?, hj, movePump?, hf, hc] at hm
      exact .quits hc (by rw [← Option.some.inj hm]; rfl)

/-- What a change publishes in which a task makes a move. -/
theorem publishes_move (o : Owned h names a) (ht : t ∈ h.tasks) (hm : h.move? t = some g)
    (hk : ∀ p, t.job = .pump p → p.relay = some j → p.forwarder.has p.rid = false → h.isCancelled p.token = false) :
    (Change.mk (.move t) h g).Publishes j := by
  by_cases hp : ∃ p, t.job = .pump p ∧ p.relay = some j
  · obtain ⟨p, hj, hp⟩ := hp
    obtain ⟨⟨r, m, hr, -⟩, -⟩ := o.pump t ht p j hj hp
    -- whatever fails is this pump
    have own : ∀ f, (Change.mk (.move t) h g).Fails j f → h.isCancelled p.token = false
        ∧ Fault ⟨.move t, h, g⟩ p f.cause := fun f hf => by
      obtain ⟨t', p', ht', hj', -, -, hc, hfault⟩ := hf.pump
      cases ht'
      cases hj.symm.trans hj'
      exact ⟨hc, hfault⟩
    cases pumpMove hj hm with
    | @fails e u f hfault hc hg =>
      have hc : h.isCancelled p.token = false := by
        cases hf : p.forwarder.has p.rid with
        | true => exact hc hf
        | false => exact hk p hj hp hf
      refine .inl ⟨⟨p.rid, h.ssrcOf p.rid, e⟩, ⟨⟨t, p, rfl, hj, hp, rfl, hc, hfault⟩, rfl⟩, ?_⟩
      dsimp only
      rw [hg]
      exact published_failPump_self (h := { h with transport := u, egress := f }) hr hp t e
    | quits hc hr =>
      refine .inr ⟨fun f hf => ?_, by simp only [published, hr]⟩
      cases hc.symm.trans (own f hf).1
    | goesOn hn hr => exact .inr ⟨fun f hf => hn _ (own f hf).2, by simp only [published, hr]⟩
  · refine .inr ⟨fun f hf => ?_, (move_of_move? hm).published fun p hj hr => absurd ⟨p, hj, hr⟩ hp⟩
    obtain ⟨t', p, ht', hj, hr, -⟩ := hf.pump
    cases ht'
    exact hp ⟨p, hj, hr⟩

/-- In a move in which the pump of a layer ends it fails, or is cancelled. -/
theorem ends_move (o : Owned h names a) (ht : t ∈ h.tasks) (hm : h.move? t = some g) (hp : h.HasPump j rid)
    (hn : ¬ g.HasPump j rid) : ∃ p, t.job = .pump p ∧ p.relay = some j ∧ p.rid = rid
      ∧ (h.isCancelled p.token = true ∨ ∃ f, f.rid = rid ∧ (Change.mk (.move t) h g).Fails j f) := by
  cases htp : t.isPumpOf j rid with
  | false => exact absurd ((pump_of_move o ht htp (move_of_move? hm)).1 hp) hn
  | true =>
    obtain ⟨p, hj, hr, hi⟩ := isPumpOf_iff.mp htp
    refine ⟨p, hj, hr, hi, ?_⟩
    cases pumpMove hj hm with
    | @fails e _ _ hfault =>
      cases hc : h.isCancelled p.token with
      | true => exact .inl rfl
      | false => exact .inr ⟨⟨rid, h.ssrcOf rid, e⟩, rfl, ⟨t, p, rfl, hj, hr, hi, hc, hfault⟩, rfl⟩
    | quits hc => exact .inl hc
    | goesOn _ _ hu =>
      obtain ⟨u, hu, hju⟩ := hu
      exact absurd ⟨u, hu, isPumpOf_iff.mpr ⟨p, hju.trans hj, hr, hi⟩⟩ hn

/-! ## Layers that are spent -/

/-- A relay was started, and nothing is left of its tasks for a layer but schedulers that are cancelled. -/
structure Spent (h : Hub) (j : Nat) (rid : String) : Prop where
  started : ∃ r, h.relays[j]? = some r ∧ r.started = true
  left : ∀ r, h.relays[j]? = some r → ∀ u ∈ h.tasks, u.serves r.token rid = true →
    ∃ q, u.job = .feedback q ∧ h.isCancelled q.token = true

/-- What a layer of a relay has left when its pump has given up has the pump's token, which is cancelled. -/
theorem spent_failPump (o : Owned h names a) (ha : h.Apart) (ht : t ∈ h.tasks) (hj : t.job = .pump p)
    (hp : p.relay = some j) (v : QueueTransport) (f : Egress) (e : Error) :
    (failPump { h with transport := v, egress := f } t p e).Spent j p.rid := by
  obtain ⟨⟨r, m, hr, htok, hm⟩, -⟩ := o.pump t ht p j hj hp
  obtain ⟨r₁, hr₁, hst⟩ := o.started m j p.rid hm
  cases hr.symm.trans hr₁
  have hrel := relay_failPump (h := { h with transport := v, egress := f }) hr hp t e
  have hgone := not_hasPump_of_others o ht (isPumpOf_iff.mpr ⟨p, hj, hp, rfl⟩)
    (failPump_fields { h with transport := v, egress := f } t p e).2.2
  refine ⟨⟨_, hrel, hst⟩, fun r' hr' u hu hs => ?_⟩
  rw [hrel] at hr'
  cases hr'
  have huh : u ∈ h.tasks := by
    rw [(failPump_fields _ t p e).2.2] at hu
    exact (Owned.mem_others.mp hu).1
  obtain ⟨m', hk, hm'⟩ := o.token_of_serves ha huh hr hs
  rw [o.injective m' m _ hm' hm, ← htok] at hk
  cases hju : u.job with
  | feedback q =>
    rw [hju] at hk
    refine ⟨q, rfl, ?_⟩
    rw [show q.token = p.token from Option.some.inj hk]
    simp [Hub.isCancelled, failPump, hp, TokenPool.isCancelled, TokenPool.cancel, htok]
  | pump q => exact absurd ⟨u, hu, o.isPumpOf_of_serves ha huh hr hs hju⟩ hgone
  | _ =>
    rw [hju] at hk
    cases hk

theorem spent_of_fails (o : Owned h names a) (ha : h.Apart) (ht : t ∈ h.tasks) (hm : h.move? t = some g) {f : Failure}
    (hf : (Change.mk (.move t) h g).Fails j f) : g.Spent j f.rid := by
  obtain ⟨t', p, ht', hj, hp, hi, hc, hfault⟩ := hf.pump
  cases ht'
  cases pumpMove hj hm with
  | @fails e u v _ _ hg =>
    rw [← hi, hg]
    exact spent_failPump o ha ht hj hp u v e
  | quits hc' => cases hc'.symm.trans hc
  | goesOn hn => exact absurd hfault (hn _)

namespace Spent

/-- Nothing is started for a layer that is spent. -/
theorem next (hs : h.Spent j rid) (o : Owned h names a) (ha : h.Apart) (ho : h.Onward g)
    (hb : ∀ u ∈ g.tasks, h.Begets u) : g.Spent j rid := by
  obtain ⟨r, hr, hst⟩ := hs.started
  obtain ⟨r', hr', hon⟩ := ho.relays j r hr
  refine ⟨⟨r', hr', hon.started hst⟩, fun r₁ hr₁ u hu hus => ?_⟩
  cases hr'.symm.trans hr₁
  rw [hon.token] at hus
  obtain ⟨v, hv, -, hj⟩ := o.old_of_belongsTo ha hr hst (hb u hu) (Task.belongsTo_iff_serves.mpr ⟨_, hus⟩)
  obtain ⟨q, hq, hc⟩ := hs.left r hr v hv (Task.serves_congr hj r.token rid ▸ hus)
  exact ⟨q, hj ▸ hq, ho.isCancelled hc⟩

/-- A layer that is spent has no pump. -/
theorem not_hasPump (hs : h.Spent j rid) (o : Owned h names a) : ¬ h.HasPump j rid := by
  rintro ⟨u, hu, hp⟩
  obtain ⟨r, hr, hus⟩ := o.serves_of_isPumpOf hu hp
  obtain ⟨p, hj, -⟩ := isPumpOf_iff.mp hp
  obtain ⟨q, hq, -⟩ := hs.left r hr u hu hus
  cases hj.symm.trans hq

/-- What is left of a layer that is spent touches nothing. -/
theorem spares (hs : h.Spent j rid) (ht : t ∈ h.tasks) (hm : h.move? t = some g) :
    (Change.mk (.move t) h g).Spares j rid := by
  intro r hr t' ht' hus
  cases ht'
  obtain ⟨q, hq, hc⟩ := hs.left r hr t ht hus
  obtain ⟨e, he⟩ := move?_of_cancelled (by rw [hq]; rfl) hc fun p hp => by cases hq.symm.trans hp
  cases hm.symm.trans he
  exact ⟨rfl, rfl, rfl⟩

end Spent

/-! ## Pumps that have nowhere to forward to -/

theorem isCancelled_startRelay (h : Hub) (index : Nat) (rids : List String) (k : Token) :
    (h.startRelay index rids).1.isCancelled k = h.isCancelled k := by
  unfold Hub.isCancelled TokenPool.isCancelled
  rw [(h.framed_startRelay index rids).receiver]
  rcases h.startRelay_cases index rids with he | ⟨r, -, -, -, hc, -⟩
  · rw [he]
  · rw [hc]

theorem cancelled_failPump (h : Hub) (t : Task) (p : Pump) (e : Error) :
    (h.failPump t p e).tokens.cancelled = h.tokens.cancelled
      ∨ ∃ j, p.relay = some j ∧ (h.failPump t p e).tokens.cancelled = p.token.ids.take 1 ++ h.tokens.cancelled := by
  unfold failPump
  cases p.relay with
  | none => exact .inl rfl
  | some j => exact .inr ⟨j, rfl, rfl⟩

/-- A move cancels no token, or that of a pump of a relay. -/
theorem Move.cancelled (m : Move h t g) : g.tokens.cancelled = h.tokens.cancelled
    ∨ ∃ p j, t.job = .pump p ∧ p.relay = some j ∧ g.tokens.cancelled = p.token.ids.take 1 ++ h.tokens.cancelled := by
  cases m with
  | refuse hj | fail hj | unrouted hj =>
    exact (cancelled_failPump _ t _ _).imp id fun ⟨j, hp, hc⟩ => ⟨_, j, hj, hp, hc⟩
  | announce =>
    unfold Hub.announce
    split
    · exact .inl rfl
    · next index _ =>
      rcases (h.dismiss t).startRelay_cases index _ with he | ⟨r, -, -, -, hc, -⟩
      · rw [he]
        exact .inl rfl
      · exact .inl hc
    · dsimp only
      split <;> exact .inl rfl
  | greet =>
    unfold greeted
    split <;> exact .inl rfl
  | _ => exact .inl rfl

/-- A move cancels no tokens but those that descend from the token of the layer whose pump it is. -/
theorem Move.isCancelled_eq (m : Move h t g) (o : Owned h names a) (ht : t ∈ h.tasks) {k : Token}
    (hk : ∀ p j n, t.job = .pump p → p.relay = some j → a n = some (j, p.rid) → n ∉ k.ids) :
    g.isCancelled k = h.isCancelled k := by
  unfold Hub.isCancelled
  rw [m.framed.receiver]
  rcases m.cancelled with hc | ⟨p, j, hj, hp, hc⟩
  · exact TokenPool.isCancelled_of_append (hc.trans (List.nil_append _).symm) (by simp) _
  · obtain ⟨⟨r, n, -, htok, hn⟩, -⟩ := o.pump t ht p j hj hp
    refine TokenPool.isCancelled_of_append hc (fun n' hn' => ?_) _
    rw [htok] at hn'
    rw [List.mem_singleton.mp hn']
    exact hk p j n hj hp hn

/-- No move closes a relay. -/
theorem Move.isCancelled_relay (m : Move h t g) (o : Owned h names a) (ht : t ∈ h.tasks) (hr : r ∈ h.relays) :
    g.isCancelled r.token = h.isCancelled r.token :=
  m.isCancelled_eq o ht fun _ _ _ _ _ hn => (o.relay r hr).2.not_mem hn

/-- The pumps that have nowhere to forward to are those of relays that are not closed. -/
def Prompt (h : Hub) : Prop :=
  ∀ u ∈ h.tasks, ∀ p j r, u.job = .pump p → p.relay = some j → h.relays[j]? = some r →
    p.forwarder.has p.rid = false → h.isCancelled r.token = false

namespace Prompt

variable {names' : Table String Token} {b : Leases}

/-- The token of such a pump is not cancelled. -/
theorem pump (hp : h.Prompt) (o : Owned h names a) (hu : u ∈ h.tasks) (hj : u.job = .pump p) (hr : p.relay = some j)
    (hf : p.forwarder.has p.rid = false) : h.isCancelled p.token = false := by
  obtain ⟨⟨r, m, hget, htok, -⟩, -, hm⟩ := o.pump u hu p j hj hr
  have hc := hp u hu p j r hj hr hget hf
  have hof := (o.relay r (List.mem_of_getElem? hget)).1
  have hm : m ∉ h.tokens.cancelled := hm m (by rw [htok]; rfl)
  unfold Hub.isCancelled TokenPool.isCancelled at hc ⊢
  rw [hof] at hc
  rw [htok, List.any_cons]
  simpa [hm] using hc

/-- Relays that start are not closed. -/
theorem next (o : Owned h names a) (o' : Owned g names' b) (ha' : g.Apart) (ho : h.Onward g)
    (hb : ∀ u ∈ g.tasks, h.Begets u)
    (hold : ∀ v ∈ h.tasks, ∀ p j r, v.job = .pump p → p.relay = some j → h.relays[j]? = some r →
      p.forwarder.has p.rid = false → g.isCancelled r.token = false)
    (hnew : ∀ j r, h.relays[j]? = some r → r.started = false → ¬ g.Unstarted j → h.isCancelled r.token = false →
      g.isCancelled r.token = false) : g.Prompt := by
  intro u hu p j r hj hp hr hf
  rcases hb u hu with ⟨v, hv, -, hjv⟩ | hnew' | ⟨i, r₀, rid, hr₀, hst, hc, hs⟩
  · rw [← hjv] at hj
    obtain ⟨⟨r₀, -, hr₀, -⟩, -⟩ := o.pump v hv p j hj hp
    obtain ⟨r₁, hr₁, hon⟩ := ho.relays j r₀ hr₀
    cases hr.symm.trans hr₁
    rw [hon.token]
    exact hold v hv p j r₀ hj hp hr₀ hf
  · rw [hnew'.1 p hj] at hp
    cases hp
  · obtain ⟨r₁, hr₁, hon⟩ := ho.relays i r₀ hr₀
    rw [← hon.token] at hs
    obtain ⟨p', hj', hp', -⟩ := isPumpOf_iff.mp (o'.isPumpOf_of_serves ha' hu hr₁ hs hj)
    cases hj.symm.trans hj'
    cases hp.symm.trans hp'
    cases hr.symm.trans hr₁
    rw [hon.token]
    refine hnew j r₀ hr₀ hst (fun hun => ?_) hc
    have := o'.started_of_belongsTo ha' hu hr (Task.belongsTo_iff_serves.mpr ⟨_, hs⟩)
    rw [hun r hr] at this
    cases this

/-- No relay is closed by a move. -/
theorem move (hp : h.Prompt) (o : Owned h names a) (o' : Owned g names' b) (ha' : g.Apart) (ht : t ∈ h.tasks)
    (hm : h.move? t = some g) : g.Prompt := by
  have m := move_of_move? hm
  refine next o o' ha' m.onward (fun u hu => (retasked hm).begets ht hu) (fun v hv p j r hj hr hget hf => ?_)
    fun j r hr _ _ hc => ?_
  · rw [m.isCancelled_relay o ht (List.mem_of_getElem? hget)]
    exact hp v hv p j r hj hr hget hf
  · rw [m.isCancelled_relay o ht (List.mem_of_getElem? hr)]
    exact hc

end Prompt

end Hub

namespace Session

variable {s : Session} {past : List Change} {x : Change} {t : Task} {c : Command} {g : Hub} {j : Nat} {f : Failure}
  {names : Table String Token}

/-- Between steps no pump is there that has nowhere to forward to; a deed that starts a relay closes none. -/
theorem Deed.prompt (d : s.Deed c g names) (hq : s.hub.step? = none) (hs : s.hub.receiver.Sound) {a b : Leases}
    (o : Owned s.hub s.tokens a) (o' : Owned g names b) (ha' : g.Apart) : g.Prompt := by
  refine .next o o' ha' (d.onward hs) (fun u hu => d.begets hu) (fun v hv p j r hj _ _ hf => ?_)
    fun j r hr hst hun hc => ?_
  · rw [(Hub.of_settled hq hv).1 p hj] at hf
    cases hf
  · have hu : s.hub.Unstarted j := fun r' hr' => by
      cases hr.symm.trans hr'
      exact hst
    obtain ⟨-, rfl⟩ := (d.starts hu).resolve_left hun
    rw [s.hub.isCancelled_startRelay]
    exact hc

/-! ## Runs -/

/-- What is known of the failures of relays at any time. -/
structure Failing (s : Session) (past : List Change) : Prop where
  proper : s.Proper
  apart : s.hub.Apart
  prompt : s.hub.Prompt
  /-- The failures published are those of the past. -/
  published : ∀ j f, f ∈ s.hub.published j ↔ ∃ x ∈ past, x.Fails j f
  /-- No layer has failed twice. -/
  once : ∀ j, ((s.hub.published j).map Failure.rid).Nodup
  /-- A layer that has failed is spent. -/
  spent : ∀ j, ∀ f ∈ s.hub.published j, s.hub.Spent j f.rid
  /-- A pump that has made a move has somewhere to forward to, or its layer is spent. -/
  moved : ∀ x ∈ past, ∀ j rid, x.isPumpOf j rid = true → ∃ r, s.hub.relays[j]? = some r
    ∧ (r.forwarder.has rid = true ∨ s.hub.Spent j rid)

/-- A layer that fails has not failed before. -/
theorem Failing.fresh (hf : s.Failing past) (ht : t ∈ s.hub.tasks) (hx : x.cause = .move t) (h : x.Fails j f) :
    f.rid ∉ (s.hub.published j).map Failure.rid := by
  obtain ⟨t', p, ht', hj, hp, hi, -⟩ := h.pump
  cases hx.symm.trans ht'
  obtain ⟨a, o⟩ := hf.proper.owned
  intro hm
  obtain ⟨f', hf', he⟩ := List.mem_map.mp hm
  exact (he ▸ hf.spent j f' hf').not_hasPump o ⟨t, ht, Hub.isPumpOf_iff.mpr ⟨p, hj, hp, hi⟩⟩

/-- What a move publishes in a run. -/
theorem Failing.publishes (hf : s.Failing past) (hm : s.hub.mover? = some (t, g)) (j : Nat) :
    (Change.mk (.move t) s.hub g).Publishes j := by
  obtain ⟨ht, hm⟩ := Hub.of_mover? hm
  obtain ⟨a, o⟩ := hf.proper.owned
  exact Hub.publishes_move o ht hm fun p hj hp hn => hf.prompt.pump o ht hj hp hn

/-- A change comes next. -/
theorem Failing.next (hf : s.Failing past) {t : Session} (hx : x.before = s.hub) (hx' : x.after = t.hub)
    (proper : t.Proper) (apart : t.hub.Apart) (prompt : t.hub.Prompt) (ho : s.hub.Onward t.hub)
    (hb : ∀ u ∈ t.hub.tasks, s.hub.Begets u) (publishes : ∀ j, x.Publishes j)
    (fails : ∀ j f, x.Fails j f → f.rid ∉ (s.hub.published j).map Failure.rid ∧ t.hub.Spent j f.rid)
    (moved : ∀ j rid, x.isPumpOf j rid = true → ∃ r, t.hub.relays[j]? = some r
      ∧ (r.forwarder.has rid = true ∨ t.hub.Spent j rid)) : t.Failing (past ++ [x]) := by
  obtain ⟨a, o⟩ := hf.proper.owned
  have spent : ∀ {j rid}, s.hub.Spent j rid → t.hub.Spent j rid := fun h => h.next o hf.apart ho hb
  have grown : ∀ j, (∃ f, x.Fails j f ∧ t.hub.published j = s.hub.published j ++ [f])
      ∨ (∀ f, ¬ x.Fails j f) ∧ t.hub.published j = s.hub.published j := fun j => by
    rw [← hx, ← hx']
    exact publishes j
  refine ⟨proper, apart, prompt, fun j f => ?_, fun j => ?_, fun j f hm => ?_, fun y hy j rid hp => ?_⟩
  · simp only [List.mem_append, List.mem_singleton, or_and_right, exists_or, exists_eq_left, ← hf.published]
    rcases grown j with ⟨f', hf', he⟩ | ⟨hn, he⟩ <;> rw [he]
    · rw [List.mem_append, List.mem_singleton]
      exact or_congr_right ⟨fun h => h ▸ hf', fun h => h.unique hf'⟩
    · exact (or_iff_left (hn f)).symm
  · rcases grown j with ⟨f', hf', he⟩ | ⟨-, he⟩ <;> rw [he]
    · rw [List.map_append, List.map_singleton]
      refine List.nodup_append.mpr ⟨hf.once j, List.nodup_singleton _, fun rid hr rid' hr' e => ?_⟩
      rw [e, List.mem_singleton.mp hr'] at hr
      exact (fails j f' hf').1 hr
    · exact hf.once j
  · rcases grown j with ⟨f', hf', he⟩ | ⟨-, he⟩ <;> rw [he] at hm
    · rcases List.mem_append.mp hm with hm | hm
      · exact spent (hf.spent j f hm)
      · rw [List.mem_singleton.mp hm]
        exact (fails j f' hf').2
    · exact spent (hf.spent j f hm)
  · rcases List.mem_append.mp hy with hy | hy
    · obtain ⟨r, hr, h⟩ := hf.moved y hy j rid hp
      obtain ⟨r', hr', hon⟩ := ho.relays j r hr
      exact ⟨r', hr', h.imp (fun h => hon.forwarder ▸ h) spent⟩
    · rw [List.mem_singleton.mp hy] at hp
      exact moved j rid hp

theorem Failing.move (hf : s.Failing past) (hm : s.hub.mover? = some (t, g)) :
    (s.setHub g).Failing (past ++ [⟨.move t, s.hub, g⟩]) := by
  obtain ⟨ht, hmove⟩ := Hub.of_mover? hm
  obtain ⟨a, o⟩ := hf.proper.owned
  obtain ⟨hp', ha'⟩ := apart_invariant.move s past t g ⟨hf.proper, hf.apart⟩ hm
  obtain ⟨b, o'⟩ := hp'.owned
  have ho := (Hub.move_of_move? hmove).onward
  refine hf.next rfl rfl hp' ha' (hf.prompt.move o o' ha' ht hmove) ho
    (fun u hu => (Hub.retasked hmove).begets ht hu) (hf.publishes hm) (fun j f h => ?_) fun j rid hp => ?_
  · exact ⟨hf.fresh ht rfl h, Hub.spent_of_fails o hf.apart ht hmove h⟩
  · obtain ⟨p, hj, hr, rfl⟩ := Hub.isPumpOf_iff.mp hp
    obtain ⟨⟨r, -, hget, -⟩, hfw, -⟩ := o.pump t ht p j hj hr
    obtain ⟨r', hr', hon⟩ := ho.relays j r hget
    refine ⟨r', hr', ?_⟩
    rw [hon.forwarder, ← hfw r hget]
    cases hh : p.forwarder.has p.rid with
    | true => exact .inl rfl
    | false =>
      right
      rw [setHub, Hub.move_of_unrouted hj hh hmove]
      exact Hub.spent_failPump o hf.apart ht hj hr s.hub.transport s.hub.egress _

theorem Failing.perform (hf : s.Failing past) (hq : s.hub.step? = none) (hc : ∀ n, c ≠ .advance n) (reply : Reply) :
    (s.perform c).1.Failing (past ++ [⟨.command c reply, s.hub, (s.perform c).1.hub⟩]) := by
  have d := deed_of_perform (s := s) hc
  obtain ⟨a, o⟩ := hf.proper.owned
  obtain ⟨hp', ha'⟩ := apart_invariant.command s past c ⟨hf.proper, hf.apart⟩ hc
  obtain ⟨b, o'⟩ := hp'.owned
  have none : ∀ j f, ¬ (Change.mk (.command c reply) s.hub (s.perform c).1.hub).Fails j f :=
    Change.not_fails_command c reply _ _
  refine hf.next rfl rfl hp' ha' (d.prompt hq hf.proper.sound o o' ha') (d.onward hf.proper.sound)
    (fun u hu => d.begets hu) (fun j => .inr ⟨none j, d.published j⟩) (fun j f h => absurd h (none j f))
    fun j rid hp => ?_
  cases hp

theorem failing_invariant : InvariantOf (fun h => h.step? = none) Failing where
  settled h := h.step?_settle
  move _ _ _ _ hf hm := hf.move hm
  clock s past time hf _ := by
    obtain ⟨hp, ha⟩ := apart_invariant.clock s past time ⟨hf.proper, hf.apart⟩
    exact ⟨hp, ha, hf.prompt, hf.published, hf.once, fun j f hm => ⟨(hf.spent j f hm).started, (hf.spent j f hm).left⟩,
      fun x hx j rid hp => (hf.moved x hx j rid hp).imp fun _ h => ⟨h.1, h.2.imp id fun h => ⟨h.started, h.left⟩⟩⟩
  command _ _ _ hf hq hc := hf.perform hq hc _
  shown _ _ hf := { hf with proper := hf.proper.shown }

theorem failing_new (settings : Settings) (kind : Kind) : (new settings kind).Failing [] where
  proper := proper_new settings kind
  apart := (apart_after settings kind []).2
  prompt := fun u hu => by cases hu
  published j f := by simp [Hub.published, new, Hub.new]
  once j := by simp [Hub.published, new, Hub.new]
  spent j f hm := by simp [Hub.published, new, Hub.new] at hm
  moved x hx := by cases hx

/-- In every run that is known of the failures of relays. -/
theorem failing_after (settings : Settings) (kind : Kind) (cs : List Command) :
    ((new settings kind).after cs).Failing ((new settings kind).history cs) :=
  @InvariantOf.after _ _ failing_invariant cs _ [] rfl (failing_new settings kind)

/-! ## Changes of a run -/

/-- What a change of a run has to do with failures, given the changes before it. -/
structure FailsInOrder (past : List Change) (x : Change) : Prop where
  /-- A failure is published exactly if the pump of a layer ends with an error while the layer's token is not
  cancelled; it tells the layer, its SSRC then, and the error. -/
  publishes : ∀ j, x.Publishes j
  /-- Then the pump has ended. -/
  ended : ∀ j f, x.Fails j f → ¬ x.after.HasPump j f.rid
  /-- It ends in no other way, unless the token is cancelled. -/
  ends : ∀ j rid, x.before.HasPump j rid → ¬ x.after.HasPump j rid → ∃ t p, x.cause = .move t ∧ t.job = .pump p
    ∧ p.relay = some j ∧ p.rid = rid ∧ (x.before.isCancelled p.token = true ∨ ∃ f, f.rid = rid ∧ x.Fails j f)
  /-- A pump that has nowhere to forward to fails when it starts, before it reads anything. -/
  unrouted : ∀ t p j, x.cause = .move t → t.job = .pump p → p.relay = some j → p.forwarder.has p.rid = false →
    (∃ ssrc, x.Fails j ⟨p.rid, ssrc, .noOutboundTrack p.rid⟩) ∧ x.after.transport = x.before.transport
      ∧ ∀ y ∈ past, y.isPumpOf j p.rid = false
  /-- No task of the relay touches anything for a layer that has failed before. -/
  final : ∀ y ∈ past, ∀ j f, y.Fails j f → x.Spares j f.rid

theorem Failing.inOrder (hf : s.Failing past) (hm : s.hub.mover? = some (t, g)) :
    FailsInOrder past ⟨.move t, s.hub, g⟩ := by
  obtain ⟨ht, hmove⟩ := Hub.of_mover? hm
  obtain ⟨a, o⟩ := hf.proper.owned
  obtain ⟨b, o'⟩ := (hf.proper.move hm).owned
  refine ⟨hf.publishes hm, fun j f h => ?_, fun j rid hp hn => ?_, fun t' p j ht' hj hr hn => ?_, fun y hy j f h => ?_⟩
  · exact (Hub.spent_of_fails o hf.apart ht hmove h).not_hasPump o'
  · obtain ⟨p, h⟩ := Hub.ends_move o ht hmove hp hn
    exact ⟨t, p, rfl, h⟩
  · cases ht'
    have hg := Hub.move_of_unrouted hj hn hmove
    have htr : g.transport = s.hub.transport := by
      rw [hg]
      exact (s.hub.failPump_fields t p _).1
    refine ⟨⟨s.hub.ssrcOf p.rid, ⟨t, p, rfl, hj, hr, rfl, hf.prompt.pump o ht hj hr hn, .unrouted hn htr⟩, rfl⟩, htr,
      fun y hy => ?_⟩
    by_contra hp
    obtain ⟨r, hget, h⟩ := hf.moved y hy j p.rid (by simpa using hp)
    rcases h with h | h
    · rw [← (o.pump t ht p j hj hr).2.1 r hget, hn] at h
      cases h
    · exact h.not_hasPump o ⟨t, ht, Hub.isPumpOf_iff.mpr ⟨p, hj, hr, rfl⟩⟩
  · exact (hf.spent j f ((hf.published j f).mpr ⟨y, hy, h⟩)).spares ht hmove

theorem failsInOrder_history (settings : Settings) (kind : Kind) (cs : List Command) :
    Along FailsInOrder [] ((new settings kind).history cs) := by
  refine failing_invariant.along (fun _ _ _ _ hf hm => hf.inOrder hm) (fun s past c hf _ hc => ?_) cs rfl
    (failing_new settings kind)
  have d := deed_of_perform (s := s) hc
  have none : ∀ j f, ¬ (Change.mk (.command c (s.perform c).2) s.hub (s.perform c).1.hub).Fails j f :=
    Change.not_fails_command c _ _ _
  refine ⟨fun j => .inr ⟨none j, d.published j⟩, fun j f h => absurd h (none j f), fun j rid hp hn => ?_,
    fun t p j ht => ?_, fun y _ j f _ r _ t ht => ?_⟩
  · exact absurd (d.hasPump hf.proper hp) hn
  · cases ht
  · cases ht

end Session

end MediaRelay
