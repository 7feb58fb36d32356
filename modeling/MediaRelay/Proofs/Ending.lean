import MediaRelay.Proofs.Kinship
import MediaRelay.Proofs.Time

/-!
# How relays end

- `Hub.Down`: a relay is cancelled, and what is left of its tasks can do nothing but end; nothing brings it back
  (`Down.next`), and it publishes no failures (`Down.published_move`);
- once the hub has settled none of its tasks is left (`Down.gone`);
- `Session.nothing_outlives_teardown`: stopping the receiver ends all its relays, and closing one of them ends that one
  and touches nothing else.
-/

namespace MediaRelay

/-! ## Tasks that can only end -/

/-- Whether a job is not a pump that has nowhere to forward to. -/
def Job.Routed (j : Job) : Prop :=
  ∀ p, j = .pump p → p.forwarder.has p.rid = true

namespace Hub

variable {h g : Hub} {t u : Task} {k : Token} {j : Nat}

/-- A task that is cancelled ends at once, unless it is a pump that has nowhere to forward to. -/
theorem move?_of_cancelled (hk : u.job.token? = some k) (hc : h.isCancelled k = true) (hr : u.job.Routed) :
    ∃ e, h.move? u = some (h.retire u e) := by
  obtain ⟨id, job, stage⟩ := u
  cases job with
  | pump p =>
    cases hk
    exact ⟨.pump p.rid (.ok ()), by simp [move?, movePump?, hr p rfl, hc]⟩
  | feedback s =>
    cases hk
    exact ⟨.feedback, by simp [move?, moveScheduler?, hc]⟩
  | _ => cases hk

/-- In a hub that has settled all pumps have somewhere to forward to, and nobody is cancelled. -/
theorem of_settled (hq : h.step? = none) (hu : u ∈ h.tasks) :
    u.job.Routed ∧ ∀ k, u.job.token? = some k → h.isCancelled k = false := by
  have hm : h.move? u = none := List.findSome?_eq_none_iff.mp hq u hu
  have hr : u.job.Routed := by
    intro p hj
    by_contra hf
    have hn : h.quits u = true := by
      rw [Bool.not_eq_true] at hf
      simp [quits, hj, hf]
    obtain ⟨g, hg⟩ := quits_move hn
    rw [hm] at hg
    cases hg
  refine ⟨hr, fun k hk => ?_⟩
  by_contra hc
  obtain ⟨e, he⟩ := move?_of_cancelled hk (by simpa using hc) hr
  rw [hm] at he
  cases he

/-! ## What relays publish -/

/-- The failures that a relay has published. -/
def published (h : Hub) (j : Nat) : List Failure :=
  match h.relays[j]? with
  | some r => r.failures
  | none => []

theorem published_failPump {p : Pump} (hp : p.relay ≠ some j) (t : Task) (cause : Error) :
    (h.failPump t p cause).published j = h.published j := by
  unfold failPump
  split
  · rfl
  · next i hi =>
    have hij : i ≠ j := fun e => hp (e ▸ hi)
    simp only [published, List.getElem?_modify, hij, if_false, Option.map_eq_map, Option.map_id_fun', id]

theorem published_startRelay (h : Hub) (index : Nat) (rids : List String) :
    (h.startRelay index rids).1.published j = h.published j := by
  rcases h.startRelay_cases index rids with he | ⟨r, -, -, hr, -⟩
  · rw [he]
  · unfold published
    rw [hr, List.getElem?_modify]
    cases h.relays[j]? with
    | none => rfl
    | some r' =>
      by_cases hij : index = j <;> simp [hij]

theorem published_announce (h : Hub) (t : Task) (rids : List String) :
    (h.announce t rids).published j = h.published j := by
  unfold announce
  split
  · rfl
  · exact (h.dismiss t).published_startRelay _ rids
  · dsimp only
    split <;> rfl

/-- Pumps that are cancelled and have somewhere to forward to publish nothing. -/
theorem Move.published (m : Move h t g) (hp : ∀ p, t.job = .pump p → p.relay = some j →
    p.forwarder.has p.rid = true ∧ h.isCancelled p.token = true) : g.published j = h.published j := by
  have other : ∀ {p : Pump}, t.job = .pump p → p.forwarder.has p.rid = false ∨ h.isCancelled p.token = false →
      p.relay ≠ some j := by
    intro p hj hn hr
    obtain ⟨hf, hc⟩ := hp p hj hr
    rw [hf, hc] at hn
    simp at hn
  cases m with
  | refuse hj _ hc | fail hj _ hc => exact published_failPump (other hj (.inr hc)) t _
  | unrouted hj hf => exact published_failPump (other hj (.inl hf)) t _
  | announce => exact h.published_announce t _
  | greet =>
    unfold greeted
    split <;> rfl
  | _ => rfl

/-! ## Relays that are down -/

/-- A relay is cancelled, and so are all that are added once the receiver is told to stop; what is left of its tasks
is of some kind. -/
structure Down (h : Hub) (j : Nat) (P : Job → Prop) : Prop where
  cancelled : h.receiver.closing = true ∨ ∃ r, h.relays[j]? = some r ∧ h.isCancelled r.token = true
  left : ∀ r, h.relays[j]? = some r → ∀ u ∈ h.tasks, u.belongsTo r.token = true → P u.job

namespace Down

variable {P : Job → Prop} {names names' : Table String Token} {a b : Leases} {r : Relay}

theorem isCancelled (hd : h.Down j P) (o : Owned h names a) (hr : h.relays[j]? = some r) :
    h.isCancelled r.token = true := by
  rcases hd.cancelled with hc | ⟨r', hr', hc⟩
  · simp [Hub.isCancelled, TokenPool.isCancelled, (o.relay r (List.mem_of_getElem? hr)).1, hc]
  · rw [hr] at hr'
    cases hr'
    exact hc

/-- A relay that is down stays down. -/
theorem next (hd : h.Down j P) (o : Owned h names a) (ho : h.Onward g) (o' : Owned g names' b) (ha' : g.Apart)
    (hb : ∀ u ∈ g.tasks, h.Begets u)
    (hn : ∀ r, g.relays[j]? = some r → h.relays[j]? = none → r.started = false) : g.Down j P := by
  refine ⟨?_, fun r hr u hu hbel => ?_⟩
  · rcases hd.cancelled with hc | ⟨r, hr, hc⟩
    · exact .inl (ho.receiver.closing hc)
    · obtain ⟨r', hr', hon⟩ := ho.relays j r hr
      exact .inr ⟨r', hr', by rw [hon.token]; exact ho.isCancelled hc⟩
  · cases hr₀ : h.relays[j]? with
    | none =>
      -- the relay is new, so it has no tasks
      have hs := o'.started_of_belongsTo ha' hu hr hbel
      rw [hn r hr hr₀] at hs
      cases hs
    | some r₀ =>
      obtain ⟨r', hr', hon⟩ := ho.relays j r₀ hr₀
      rw [hr] at hr'
      cases hr'
      have hmem := List.mem_of_getElem? hr₀
      rw [hon.token] at hbel
      rcases hb u hu with ⟨v, hv, -, hj⟩ | hnew | ⟨i, r₁, rid, hr₁, -, hc, hs⟩
      · rw [← Task.belongsTo_congr hj] at hbel
        exact hj ▸ hd.left r₀ hr₀ v hv hbel
      · rw [Task.belongsTo_of_isOwn hnew.isOwn (o.ids_ne_nil hmem)] at hbel
        cases hbel
      · -- a relay that starts is not cancelled, so it is another one
        obtain ⟨k, hk, hi⟩ := Task.belongsTo_iff.mp hbel
        obtain ⟨k', hk', hi'⟩ := Task.belongsTo_iff.mp (Task.belongsTo_iff_serves.mpr ⟨rid, hs⟩)
        rw [hk] at hk'
        cases hk'
        rw [o.token_eq_of_ids (List.mem_of_getElem? hr₁) hmem (hi'.symm.trans hi), hd.isCancelled o hr₀] at hc
        cases hc

/-- A relay that is down publishes nothing. -/
theorem published_move (hd : h.Down j P) (hP : ∀ job, P job → job.Routed) (o : Owned h names a) (ha : h.Apart)
    (ht : t ∈ h.tasks) (m : Move h t g) : g.published j = h.published j := by
  refine m.published fun p hj hp => ?_
  obtain ⟨r, hr, hb⟩ := o.belongsTo_of_relay ht hj hp
  obtain ⟨k, hk, hc⟩ := o.isCancelled_of_belongsTo ha ht hr hb (hd.isCancelled o hr)
  rw [hj] at hk
  cases hk
  exact ⟨hP _ (hd.left r hr t ht hb) p hj, hc⟩

/-- Once the hub has settled nothing is left of the tasks of a relay that is down. -/
theorem gone (hd : h.Down j P) (hq : h.step? = none) (o : Owned h names a) (ha : h.Apart) :
    h.Down j fun _ => False := by
  refine ⟨hd.cancelled, fun r hr u hu hb => ?_⟩
  obtain ⟨k, hk, hc⟩ := o.isCancelled_of_belongsTo ha hu hr hb (hd.isCancelled o hr)
  rw [(of_settled hq hu).2 k hk] at hc
  cases hc

end Down

end Hub

/-! ## Relays that have ended -/

namespace Session

variable {s : Session} {c : Command} {g : Hub} {names : Table String Token} {j : Nat} {P : Job → Prop}
  {fs : List Failure}

/-- No deed publishes a failure. -/
theorem Deed.published (d : s.Deed c g names) (j : Nat) : g.published j = s.hub.published j := by
  cases d with
  | read q =>
    obtain ⟨u, hu, -⟩ := s.hub.read_transport q
    rw [hu]
    rfl
  | startRelay => exact s.hub.published_startRelay _ _
  | addRelay =>
    simp only [Hub.published, Hub.addRelay]
    cases hr : s.hub.relays[j]? with
    | some r => rw [List.getElem?_append_left (List.getElem?_eq_some_iff.mp hr).1, hr]
    | none =>
      rw [List.getElem?_append_right (List.getElem?_eq_none_iff.mp hr)]
      cases j - s.hub.relays.length <;> rfl
  | _ => rfl

/-- A relay that is added has not been started. -/
theorem Deed.unstarted_of_new (d : s.Deed c g names) {r : Relay} (hr : g.relays[j]? = some r)
    (hn : s.hub.relays[j]? = none) : r.started = false := by
  have hu : s.hub.Unstarted j := fun r' hr' => by
    rw [hn] at hr'
    cases hr'
  rcases d.starts hu with hg | ⟨-, rfl⟩
  · exact hg r hr
  · rw [Hub.getElem?_relays_eq_none (s.hub.map_token_startRelay _ _) hn] at hr
    cases hr

/-- A relay is down, and has published some failures. -/
structure Ending (s : Session) (j : Nat) (P : Job → Prop) (fs : List Failure) : Prop where
  proper : s.Proper
  apart : s.hub.Apart
  down : s.hub.Down j P
  published : s.hub.published j = fs

theorem ending_invariant (hP : ∀ job, P job → job.Routed) (j : Nat) (fs : List Failure) :
    Invariant fun s _ => s.Ending j P fs where
  move s past t g h hm := by
    obtain ⟨ht, hmove⟩ := Hub.of_mover? hm
    obtain ⟨a, o⟩ := h.proper.owned
    have m := Hub.move_of_move? hmove
    obtain ⟨hp', ha'⟩ := apart_invariant.move s past t g ⟨h.proper, h.apart⟩ hm
    obtain ⟨b, o'⟩ := hp'.owned
    refine ⟨hp', ha', h.down.next o m.onward o' ha' (fun u hu => (Hub.retasked hmove).begets ht hu) fun r hr hn => ?_,
      (h.down.published_move hP o h.apart ht m).trans h.published⟩
    have hr : g.relays[j]? = some r := hr
    rw [Hub.getElem?_relays_eq_none m.map_token hn] at hr
    cases hr
  clock s past time h := by
    obtain ⟨hp', ha'⟩ := apart_invariant.clock s past time ⟨h.proper, h.apart⟩
    exact ⟨hp', ha', ⟨h.down.cancelled, h.down.left⟩, h.published⟩
  command s past c h hc := by
    have d := deed_of_perform (s := s) hc
    obtain ⟨a, o⟩ := h.proper.owned
    obtain ⟨hp', ha'⟩ := apart_invariant.command s past c ⟨h.proper, h.apart⟩ hc
    obtain ⟨b, o'⟩ := hp'.owned
    exact ⟨hp', ha', h.down.next o (d.onward h.proper.sound) o' ha' (fun u hu => d.begets hu)
      fun r hr hn => d.unstarted_of_new hr hn, (d.published j).trans h.published⟩
  shown _ _ h := ⟨h.proper.shown, h.apart, h.down, h.published⟩

/-- Stopping the receiver takes all its relays down, those that do not exist yet too. -/
theorem ending_stop (hq : s.hub.step? = none) (hp : s.Proper) (ha : s.hub.Apart) (hh : s.hub.held = true) (j : Nat) :
    (s.perform (.receiver .stop)).1.Ending j Job.Routed (s.hub.published j) := by
  obtain ⟨hp', ha'⟩ := apart_invariant.command s [] (.receiver .stop) ⟨hp, ha⟩ (by simp)
  rw [perform_of_held hh] at hp' ha' ⊢
  refine ⟨hp', ha', ⟨.inl ?_, fun r _ u hu _ => (Hub.of_settled hq hu).1⟩, rfl⟩
  show (s.hub.receiver.stop s.hub.transport).1.closing = true
  by_cases hph : s.hub.receiver.phase = .stopped
  · rw [Receiver.stop_of_stopped hph]
    exact (hp.sound.stopped hph).1
  · exact (Receiver.stop_fields hph s.hub.transport).2.1

theorem perform_close {name : String} {r : Relay} (hr : s.relay? name = some (j, r)) :
    s.perform (.relay (.close name)) = (s.setHub (s.hub.closeRelay r), .done) := by
  simp only [perform, performRelay, hr]

/-- Closing a relay takes it down. -/
theorem ending_close (hq : s.hub.step? = none) (hp : s.Proper) (ha : s.hub.Apart) {name : String} {r : Relay}
    (hr : s.relay? name = some (j, r)) :
    (s.perform (.relay (.close name))).1.Ending j Job.Routed (s.hub.published j) := by
  obtain ⟨hp', ha'⟩ := apart_invariant.command s [] (.relay (.close name)) ⟨hp, ha⟩ (by simp)
  obtain ⟨a, o⟩ := hp.owned
  have hr' := (of_relay? hr).2
  obtain ⟨n, -, hi, -⟩ := o.ids_relay (List.mem_of_getElem? hr')
  rw [perform_close hr] at hp' ha' ⊢
  refine ⟨hp', ha', ⟨.inr ⟨r, hr', ?_⟩, fun r _ u hu _ => (Hub.of_settled hq hu).1⟩, rfl⟩
  simp [setHub, Hub.isCancelled, Hub.closeRelay, TokenPool.isCancelled, TokenPool.cancel, hi]

/-- Once a step that takes a relay down is over none of its tasks is left. -/
theorem Ending.step (h : (s.perform c).1.Ending j Job.Routed fs) : (s.step c).1.Ending j (fun _ => False) fs := by
  have inv := ending_invariant (P := Job.Routed) (fun _ => id) j fs
  have hs : (s.step c).1.Ending j Job.Routed fs := by
    rw [step_fst]
    exact inv.shown _ [] (@InvariantOf.run _ _ inv.anywhere _ _ [] h)
  obtain ⟨a, o⟩ := hs.proper.owned
  exact { hs with down := hs.down.gone (Hub.step?_settle _) o hs.apart }

/-- What is left of a relay after a command, and after any others that follow. -/
structure Ended (s : Session) (c : Command) (ds : List Command) (j : Nat) : Prop where
  /-- No task of the relay is left. -/
  gone : ∀ r, ((s.step c).1.after ds).hub.relays[j]? = some r →
    ∀ t ∈ ((s.step c).1.after ds).hub.tasks, t.belongsTo r.token = false
  /-- No change is made by a task of the relay. -/
  still : ∀ x ∈ (s.step c).1.history ds, ∀ r, x.before.relays[j]? = some r →
    ∀ t, x.cause = .move t → t.belongsTo r.token = false
  /-- The relay publishes no failure, from before the command on. -/
  silent : ((s.step c).1.after ds).hub.published j = s.hub.published j

/-- A relay that a command takes down has ended. -/
theorem Ending.ended (h : (s.perform c).1.Ending j Job.Routed (s.hub.published j)) (ds : List Command) :
    s.Ended c ds j := by
  have inv := ending_invariant (P := fun _ => False) (fun _ => False.elim) j (s.hub.published j)
  have none : ∀ {g : Hub}, g.Down j (fun _ => False) → ∀ r, g.relays[j]? = some r → ∀ t ∈ g.tasks,
      t.belongsTo r.token = false := fun hd r hr t ht => by
    simpa using hd.left r hr t ht
  have hs := h.step
  have hafter := @Invariant.after _ inv ds _ [] hs
  refine ⟨none hafter.down, fun x hx r hr t ht => ?_, hafter.published⟩
  have along : Along (fun _ x => ∀ r, x.before.relays[j]? = some r → ∀ t, x.cause = .move t →
      t.belongsTo r.token = false) [] ((s.step c).1.history ds) := by
    refine inv.along (fun s _ t g h hm r hr u hu => ?_) (fun s _ c h _ r hr u hu => by cases hu) ds hs
    cases hu
    exact none h.down r hr t (Hub.of_mover? hm).1
  exact (along.of_mem hx).elim fun _ h => h r hr t ht

end Session

/-! ## Closing a relay touches nothing else -/

namespace Hub

variable {h g k : Hub} {t : Task} {j : Nat} {r : Relay} {names : Table String Token} {a : Leases}

/-- A hub in which some of the tasks of a relay have ended, and nothing else has happened. -/
structure Thinned (h g : Hub) (r : Relay) : Prop where
  rest : g = { h with tasks := g.tasks, endings := g.endings }
  tasks : g.tasks.Sublist h.tasks
  others : g.tasks.filter (fun t => ¬ t.belongsTo r.token) = h.tasks.filter fun t => ¬ t.belongsTo r.token

theorem Thinned.refl (h : Hub) (r : Relay) : h.Thinned h r :=
  ⟨rfl, List.Sublist.refl _, rfl⟩

/-- A task that waited before the relay was closed can go on only if it belongs to the relay, and only to end. -/
theorem Thinned.move (hq : h.step? = none) (hd : h.Tidy) (o : Owned h names a) (ha : h.Apart)
    (hr : h.relays[j]? = some r) (hg : (h.closeRelay r).Thinned g r) (hm : g.mover? = some (t, k)) :
    (h.closeRelay r).Thinned k r := by
  obtain ⟨ht, hmove⟩ := of_mover? hm
  have hth : t ∈ h.tasks := hg.tasks.subset ht
  have tokens : ∀ x, g.isCancelled x = (h.closeRelay r).isCancelled x := fun x => by
    rw [hg.rest]
    rfl
  cases hb : t.belongsTo r.token with
  | false =>
    have still : g.move? t = none := by
      refine move?_still hth ht (by rw [hg.rest]; rfl) (by rw [hg.rest]; rfl) (fun x hx => ?_) (fun d hdl => ?_)
        (List.findSome?_eq_none_iff.mp hq t hth)
      · rw [tokens, isCancelled_closeRelay fun n hn => o.not_mem_ids ha hth hx hr hb hn]
      · have hc : g.clock = h.clock := by rw [hg.rest]; rfl
        rw [hc]
        exact lt_deadline hq hd hth hdl
    rw [still] at hmove
    cases hmove
  | true =>
    obtain ⟨m, -, hk, -⟩ := o.of_belongsTo ha hth hr hb
    obtain ⟨n, -, hi, -⟩ := o.ids_relay (List.mem_of_getElem? hr)
    have hc : g.isCancelled ⟨m :: r.token.ids, true⟩ = true := by
      rw [tokens]
      simp [Hub.isCancelled, Hub.closeRelay, TokenPool.isCancelled, TokenPool.cancel, hi]
    obtain ⟨e, he⟩ := move?_of_cancelled hk hc (of_settled hq hth).1
    rw [hmove] at he
    cases he
    refine ⟨?_, List.filter_sublist.trans hg.tasks, ?_⟩
    · rw [Hub.retire, hg.rest]
    · -- whoever has the number of the task that ends is that task
      rw [← hg.others]
      show (g.tasks.filter _).filter _ = _
      rw [List.filter_filter]
      refine List.filter_congr fun u hu => ?_
      cases hbu : u.belongsTo r.token with
      | true => simp
      | false =>
        have hne : u.id ≠ t.id := fun e => by
          rw [List.inj_on_of_nodup_map o.ids (hg.tasks.subset hu) hth e, hb] at hbu
          cases hbu
        simp [hne]

/-- When a relay is closed its tasks end, and nothing else happens. -/
theorem settle_closeRelay (hq : h.step? = none) (hd : h.Tidy) (o : Owned h names a) (ha : h.Apart)
    (hr : h.relays[j]? = some r) :
    (h.closeRelay r).settle = { h.closeRelay r with
      tasks := h.tasks.filter fun t => ¬ t.belongsTo r.token
      endings := (h.closeRelay r).settle.endings } := by
  have hg : (h.closeRelay r).Thinned (h.closeRelay r).settle r :=
    settle_keeps (P := fun g _ => (h.closeRelay r).Thinned g r) (fun _ _ _ _ hg hm => hg.move hq hd o ha hr hm)
      (.refl _ r)
  have hs := (h.closeRelay r).step?_settle
  generalize (h.closeRelay r).settle = g at hg hs
  have none : ∀ u ∈ g.tasks, u.belongsTo r.token = false := by
    intro u hu
    by_contra hb
    have hb : u.belongsTo r.token = true := by simpa using hb
    have huh : u ∈ h.tasks := hg.tasks.subset hu
    obtain ⟨m, -, hk, -⟩ := o.of_belongsTo ha huh hr hb
    obtain ⟨n, -, hi, -⟩ := o.ids_relay (List.mem_of_getElem? hr)
    have hc := (of_settled hs hu).2 _ hk
    rw [hg.rest] at hc
    simp [Hub.isCancelled, Hub.closeRelay, TokenPool.isCancelled, TokenPool.cancel, hi] at hc
  have htasks : g.tasks = h.tasks.filter fun t => ¬ t.belongsTo r.token := by
    rw [← show _ = h.tasks.filter _ from hg.others, List.filter_eq_self.mpr fun u hu => by simp [none u hu]]
  rw [hg.rest, htasks]

end Hub

namespace Session

/-- What closing a relay does: it does not wait, and only the tasks of that relay go. -/
structure ClosesAlone (s : Session) (name : String) (j : Nat) (r : Relay) : Prop where
  /-- It returns. -/
  returns : (s.perform (.relay (.close name))).2 = .done
  /-- The receiver, its streams, all writers and all relays are as they were, and so are all tasks of others. -/
  rest : (s.step (.relay (.close name))).1.hub = { s.hub with
    tokens := s.hub.tokens.cancel r.token
    tasks := s.hub.tasks.filter fun t => ¬ t.belongsTo r.token
    endings := (s.step (.relay (.close name))).1.hub.endings }
  /-- No other relay is cancelled. -/
  relays : ∀ i r', i ≠ j → s.hub.relays[i]? = some r' →
    (s.step (.relay (.close name))).1.hub.isCancelled r'.token = s.hub.isCancelled r'.token
  /-- No task that is left is cancelled. -/
  tasks : ∀ t ∈ (s.step (.relay (.close name))).1.hub.tasks, ∀ k, t.job.token? = some k →
    (s.step (.relay (.close name))).1.hub.isCancelled k = false

/-- How relays end when they are closed, or the receiver is told to stop, and other commands follow. -/
structure Teardowns (s : Session) (ds : List Command) : Prop where
  /-- Told to stop, the receiver ends all its relays, whether or not its streams can be closed. -/
  stopped : s.hub.held = true → ∀ j, s.Ended (.receiver .stop) ds j
  /-- A relay that is closed ends, and nothing else does. -/
  closed : ∀ name j r, s.relay? name = some (j, r) →
    s.Ended (.relay (.close name)) ds j ∧ s.ClosesAlone name j r

/-- Whatever a session has done, once the receiver is told to stop no task of any of its relays is left, or ever runs
again, and no relay publishes a failure; when a relay is closed so it is with that relay, and with nothing else. -/
theorem nothing_outlives_teardown (settings : Settings) (kind : Kind) (cs ds : List Command) :
    ((new settings kind).after cs).Teardowns ds := by
  obtain ⟨hp, ha⟩ := apart_after settings kind cs
  have hq : ((new settings kind).after cs).hub.step? = none := step?_after rfl cs
  have hd := tidy_after settings kind cs
  generalize (new settings kind).after cs = s at hp ha hq hd
  refine ⟨fun hh j => (ending_stop hq hp ha hh j).ended ds,
    fun name j r hr => ⟨(ending_close hq hp ha hr).ended ds, ?_⟩⟩
  obtain ⟨a, o⟩ := hp.owned
  have hr' := (of_relay? hr).2
  have hstep : (s.step (.relay (.close name))).1.hub = (s.hub.closeRelay r).settle := by
    rw [step_fst, perform_close hr]
    rfl
  have hrest := Hub.settle_closeRelay hq hd o ha hr'
  refine ⟨by rw [perform_close hr], ?_, fun i r' hi hr'' => ?_, fun t ht => ?_⟩
  · rw [hstep]
    exact hrest
  · rw [hstep, hrest]
    exact Hub.isCancelled_closeRelay fun n hn => o.disjoint_ids ha hr' hr'' hi hn
  · exact (Hub.of_settled (Hub.step?_settle _) ht).2

end Session

end MediaRelay
