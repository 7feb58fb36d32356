import MediaRelay.Proofs.Beats

/-!
# The schedule of feedback

- `Hub.onDuty_startRelay`: a relay that starts has one scheduler for a layer, with the interval and the bitrate of the
  settings;
- `Session.Onset`: how far a step has come in which a relay starts;
- `Session.feedback_on_schedule`: the relay gives feedback for the layer at the multiples of the interval after its
  start, and never else.
-/

namespace MediaRelay

/-- The scheduler that a relay starts for a layer, under the token of that layer. -/
def Settings.scheduler (s : Settings) (rid : String) (token : Token) : Scheduler :=
  ⟨rid, s.interval.total, s.bitrate.toNat, token⟩

@[simp] theorem Settings.rid_scheduler (s : Settings) (rid : String) (token : Token) :
    (s.scheduler rid token).rid = rid :=
  rfl

namespace Hub

variable {h g : Hub} {u : Task} {r : Relay} {rid : String} {rids : List String} {j : Nat}
  {names : Table String Token} {a : Leases}

/-! ## Relays that start -/

/-- The new tasks for a layer are a scheduler that is ready, and others under the same token. -/
structure Schedules (h g : Hub) (k : Token) (q : Scheduler) (id : Nat) : Prop where
  kin : q.token.ids.tail = k.ids
  there : ∃ u ∈ g.tasks, u.job = .feedback q
  new : ∀ u ∈ g.tasks, u.serves k q.rid = true → u ∈ h.tasks
    ∨ u.job.token? = some q.token ∧ ∀ q', u.job = .feedback q' → q' = q ∧ u.id = id ∧ u.stage = .ready

theorem schedules_startLayer (hf : h.settings.feedback = true) (index : Nat) (r : Relay) (rid : String) :
    ∃ token id, h.Schedules (h.startLayer index r rid) r.token (h.settings.scheduler rid token) id := by
  unfold startLayer
  dsimp only
  rw [if_pos hf]
  refine ⟨(h.tokens.child r.token).2, h.nextTask, rfl, ?_, fun u hu _ => ?_⟩
  · exact ⟨_, List.mem_append_left _ (List.mem_append_right _ (List.mem_singleton_self _)), rfl⟩
  · rcases List.mem_append.mp hu with hu | hu
    · rcases List.mem_append.mp hu with hu | hu
      · exact .inl hu
      · rw [List.mem_singleton.mp hu]
        refine .inr ⟨rfl, fun q' hj => ?_⟩
        cases hj
        exact ⟨rfl, rfl, rfl⟩
    · rw [List.mem_singleton.mp hu]
      refine .inr ⟨rfl, fun q' hj => ?_⟩
      cases hj

theorem schedules_startLayers (hf : h.settings.feedback = true) (index : Nat) (r : Relay) (hd : rids.Nodup)
    (hm : rid ∈ rids) :
    ∃ token id, h.Schedules (rids.foldl (fun g rid => g.startLayer index r rid) h) r.token
      (h.settings.scheduler rid token) id := by
  induction rids generalizing h with
  | nil => cases hm
  | cons rid' rids ih =>
    obtain ⟨hnot, hd⟩ := List.nodup_cons.mp hd
    rw [List.foldl_cons]
    by_cases he : rid = rid'
    · subst he
      obtain ⟨token, id, hs⟩ := schedules_startLayer hf index r rid
      obtain ⟨new, ht, hn⟩ := tasks_startLayers (h.startLayer index r rid) index r rids
      rw [← List.foldl_cons] at ht
      refine ⟨token, id, hs.kin, ?_, fun u hu hus => ?_⟩
      · obtain ⟨u, hu, hj⟩ := hs.there
        exact ⟨u, ht ▸ List.mem_append_left _ hu, hj⟩
      · rw [← List.foldl_cons, ht] at hu
        rcases List.mem_append.mp hu with hu | hu
        · exact hs.new u hu hus
        · -- tasks that come later serve other layers
          obtain ⟨-, rid', hr, hus'⟩ := hn u hu
          exact absurd hr (Task.serves_unique hus hus' ▸ hnot)
    · have hm : rid ∈ rids := (List.mem_cons.mp hm).resolve_left he
      have hset := (h.framed_startLayer index r rid').settings
      obtain ⟨token, id, hs⟩ := ih (h := h.startLayer index r rid') (hset ▸ hf) hd hm
      rw [hset] at hs
      refine ⟨token, id, hs.kin, hs.there, fun u hu hus => (hs.new u hu hus).imp_left fun hu => ?_⟩
      obtain ⟨new, ht, hn⟩ := h.tasks_startLayer index r rid'
      rw [ht] at hu
      exact (List.mem_append.mp hu).resolve_right fun hu => he (Task.serves_unique hus (hn u hu).2)

/-- A relay that starts has one scheduler for a layer, which is ready. -/
theorem onDuty_startRelay (o : Owned h names a) (ha : h.Apart) (hr : h.relays[j]? = some r) (hs : r.started = false)
    (hc : h.isCancelled r.token = false) (hf : h.settings.feedback = true) (hd : rids.Nodup) (hm : rid ∈ rids) :
    ∃ token id, (h.startRelay j rids).1.OnDuty r.token (h.settings.scheduler rid token) id (· = .ready)
      ∧ ∃ u ∈ (h.startRelay j rids).1.tasks, u.job = .feedback (h.settings.scheduler rid token) := by
  let marked : Hub := { h with relays := h.relays.modify j fun r => { r with started := true } }
  obtain ⟨token, id, hsch⟩ := schedules_startLayers (h := marked) hf j r hd hm
  obtain ⟨_, hstarts⟩ := marked.starts_startLayers j r rids
  have hc' : marked.isCancelled r.token = false := hc
  have he : (h.startRelay j rids).1 = rids.foldl (fun (g : Hub) rid => g.startLayer j r rid) marked := by
    simp only [startRelay, hr, hs, Bool.false_eq_true, if_false]
    exact congrArg Prod.fst (if_neg (by rw [hc']; exact Bool.false_ne_true))
  rw [← he] at hsch hstarts
  -- the relay has no tasks before
  have new : ∀ u ∈ (h.startRelay j rids).1.tasks, u.serves r.token rid = true → u.job.token? = some token
      ∧ ∀ q', u.job = .feedback q' → q' = h.settings.scheduler rid token ∧ u.id = id ∧ u.stage = .ready := by
    refine fun u hu hus => (hsch.new u hu hus).resolve_left fun hu => ?_
    rw [o.started_of_belongsTo ha hu hr (Task.belongsTo_iff_serves.mpr ⟨rid, hus⟩)] at hs
    cases hs
  refine ⟨token, id, ⟨hsch.kin, ⟨j, { r with started := true }, ?_, rfl, rfl⟩, fun u hu hus => (new u hu hus).1,
    fun u hu hus => (new u hu hus).2, fun _ => hsch.there⟩, hsch.there⟩
  rw [hstarts.relays]
  simp [marked, hr]

end Hub

/-- Who serves a layer of a relay has been started by one. -/
theorem Owned.of_serves {h : Hub} {names : Table String Token} {a : Leases} {u : Task} {k : Token} {rid : String}
    (o : Owned h names a) (hu : u ∈ h.tasks) (hs : u.serves k rid = true) (hk : k.ids ≠ []) :
    ∃ (j : Nat) (r : Relay), h.relays[j]? = some r ∧ r.token.ids = k.ids ∧ r.started = true := by
  obtain ⟨k', hk', hi⟩ := Task.belongsTo_iff.mp (Task.belongsTo_iff_serves.mpr ⟨rid, hs⟩)
  rcases o.token_cases hu hk' with ⟨n, -, hn, -⟩ | ⟨j, rid', ⟨r, m, hr, rfl, hm⟩, -⟩
  · rw [hn] at hi
    exact absurd hi.symm hk
  · obtain ⟨r', hr', hst⟩ := o.started m j rid' hm
    rw [hr] at hr'
    cases hr'
    exact ⟨j, r, hr, hi, hst⟩

/-- A change in which a relay starts a scheduler for a layer, and no other for that layer. -/
def Change.Schedules (x : Change) (k : Token) (q : Scheduler) : Prop :=
  (∀ u ∈ x.before.tasks, u.serves k q.rid = false) ∧ (∃ u ∈ x.after.tasks, u.job = .feedback q)
    ∧ ∃ id, x.after.OnDuty k q id (· = .ready)

namespace Session

variable {s t : Session} {past : List Change} {x : Change} {c : Command} {g h : Hub} {task : Task} {j : Nat} {r : Relay}
  {k : Token} {rid : String} {rids : List String} {settings : Settings} {start : Nat} {names : Table String Token}
  {a : Leases}

/-! ## The step in which a relay starts -/

/-- How far a relay has come in a step: it is still to be started, or it is closed, or it has started and is to give
feedback for a layer a period later. -/
inductive Onset (s : Session) (past : List Change) (j : Nat) (k : Token) (settings : Settings) (rid : String)
    (start : Nat) : Prop
  | unstarted (hu : s.hub.Unstarted j) (hf : feedbackOf past k rid = [])
  | closed (hc : s.hub.isCancelled k = true)
  | started (token : Token) (id : Nat)
      (ht : s.OnTime k (settings.scheduler rid token) id (start + settings.interval.total))
      (hf : feedbackOf past k rid = []) (hx : ∃ x ∈ past, x.Schedules k (settings.scheduler rid token))

/-- A relay may start in a step, at a time and for layers that do not change. -/
structure Starting (s : Session) (past : List Change) (j : Nat) (k : Token) (settings : Settings) (rid : String)
    (start : Nat) : Prop where
  proper : s.Proper
  apart : s.hub.Apart
  relay : ∃ r, s.hub.relays[j]? = some r ∧ r.token = k
  layer : rid ∈ s.hub.receiver.layers.map Layer.rid
  same : s.hub.settings = settings
  now : s.hub.clock = start
  onset : s.Onset past j k settings rid start

/-- A relay that is not closed starts. -/
theorem onset_startRelay (past : List Change) (o : Owned h names a) (ha : h.Apart) (hp : t.Proper)
    (ha' : t.hub.Apart) (ht : t.hub = (h.startRelay j rids).1) (hx : x.after = t.hub)
    (hb : ∀ u ∈ x.before.tasks, u.serves r.token rid = false)
    (hr : h.relays[j]? = some r) (hs : r.started = false) (hc : h.isCancelled r.token = false)
    (hsame : h.settings = settings) (hnow : h.clock = start) (hf : settings.feedback = true)
    (hperiod : settings.interval.total ≠ 0) (hd : rids.Nodup) (hm : rid ∈ rids)
    (hsilent : feedbackOf (past ++ [x]) r.token rid = []) :
    t.Onset (past ++ [x]) j r.token settings rid start := by
  subst hsame hnow
  obtain ⟨token, id, hduty, hthere⟩ := h.onDuty_startRelay o ha hr hs hc hf hd hm
  have clock : t.hub.clock = h.clock := ht ▸ (h.framed_startRelay j rids).clock
  rw [← ht] at hduty hthere
  refine .started token id ⟨hp, ha', hduty.mono fun _ _ _ hst => .inr ⟨hst, ?_⟩, ?_⟩ hsilent ?_
  · rw [clock]
    rfl
  · rw [clock]
    omega
  · rw [← hx] at hduty hthere
    exact ⟨x, List.mem_append_right _ (List.mem_singleton_self x), hb, hthere, id, hduty⟩

/-- A relay that has not been started has no tasks. -/
theorem not_serves_of_unstarted (hp : s.Proper) (ha : s.hub.Apart) (hr : s.hub.relays[j]? = some r)
    (hs : r.started = false) {u : Task} (hu : u ∈ s.hub.tasks) : u.serves r.token rid = false := by
  obtain ⟨a, o⟩ := hp.owned
  by_contra hus
  have hb := Task.belongsTo_iff_serves.mpr ⟨rid, by simpa using hus⟩
  rw [o.started_of_belongsTo ha hu hr hb] at hs
  cases hs

namespace Starting

theorem move (h : s.Starting past j k settings rid start) (hf : settings.feedback = true)
    (hp : settings.interval.total ≠ 0) (hm : s.hub.mover? = some (task, g)) :
    (s.setHub g).Starting (past ++ [⟨.move task, s.hub, g⟩]) j k settings rid start := by
  obtain ⟨ht, hmove⟩ := Hub.of_mover? hm
  have m := Hub.move_of_move? hmove
  obtain ⟨hp', ha'⟩ := apart_invariant.move s past task g ⟨h.proper, h.apart⟩ hm
  obtain ⟨r, hr, rfl⟩ := h.relay
  obtain ⟨r', hr', hon⟩ := m.onward.relays j r hr
  have frame := m.framed
  refine ⟨hp', ha', ⟨r', hr', hon.token⟩, ?_, frame.settings.trans h.same, frame.clock.trans h.now, ?_⟩
  · show rid ∈ g.receiver.layers.map Layer.rid
    rw [frame.receiver]
    exact h.layer
  cases h.onset with
  | unstarted hu hsilent =>
    have none : ∀ u ∈ s.hub.tasks, u.serves r.token rid = false := fun u hu' =>
      not_serves_of_unstarted h.proper h.apart hr (hu r hr) hu'
    have hsilent' : feedbackOf (past ++ [⟨.move task, s.hub, g⟩]) r.token rid = [] := by
      rw [feedbackOf_append, hsilent, feedbackOf_singleton, Change.feedbackBy]
      simp [none task ht]
    rcases m.starts hu with hu' | ⟨rids, hj, rfl⟩
    · exact .unstarted hu' hsilent'
    · cases hc : s.hub.isCancelled r.token with
      | true => exact .closed (m.onward.isCancelled hc)
      | false =>
        obtain ⟨a, o⟩ := h.proper.owned
        have hrids := (o.announced task ht rids hj).2
        have hd : rids.Nodup := hrids ▸ h.proper.sound.rids
        have ha : (s.hub.dismiss task).Apart :=
          ⟨h.apart.relays, fun r hr u hu => h.apart.tasks r hr u (Owned.mem_others.mp hu).1⟩
        exact onset_startRelay past (o.dismiss ht) ha hp' ha' rfl rfl none hr (hu r hr) hc h.same h.now hf hp hd
          (hrids ▸ h.layer) hsilent'
  | closed hc => exact .closed (m.onward.isCancelled hc)
  | started token id hot hsilent hx =>
    obtain ⟨hot', hf'⟩ := hot.move hp hm
    refine .started token id hot' ?_ (hx.imp fun x hx => ⟨List.mem_append_left _ hx.1, hx.2⟩)
    rw [feedbackOf_append, hsilent, feedbackOf_singleton]
    exact hf'

theorem settle (h : s.Starting past j k settings rid start) (hf : settings.feedback = true)
    (hp : settings.interval.total ≠ 0) :
    (s.setHub s.hub.settle).Starting (past ++ s.hub.settleChanges) j k settings rid start :=
  Hub.run_keeps (P := fun g past => (s.setHub g).Starting past j k settings rid start)
    (fun g _ _ _ hg hm => hg.move (s := s.setHub g) hf hp hm) s.hub.weight h

theorem shown (h : s.Starting past j k settings rid start) : s.markShown.Starting past j k settings rid start := by
  refine ⟨h.proper.shown, h.apart, h.relay, h.layer, h.same, h.now, ?_⟩
  cases h.onset with
  | unstarted hu hf => exact .unstarted hu hf
  | closed hc => exact .closed hc
  | started token id ht hf hx => exact .started token id ht.shown hf hx

/-- A command may start a relay. -/
theorem perform (hp : s.Proper) (ha : s.hub.Apart) (hr : s.hub.relays[j]? = some r) (hs : r.started = false)
    (hc : ∀ n, c ≠ .advance n) (hsame : s.hub.settings = settings) (hf : settings.feedback = true)
    (hperiod : settings.interval.total ≠ 0) (hl : rid ∈ (s.perform c).1.hub.receiver.layers.map Layer.rid) :
    (s.perform c).1.Starting (s.performChanges c) j r.token settings rid s.hub.clock := by
  have d := deed_of_perform (s := s) hc
  obtain ⟨hp', ha'⟩ := apart_invariant.command s [] c ⟨hp, ha⟩ hc
  obtain ⟨r', hr', hon⟩ := (d.onward hp.sound).relays j r hr
  have hu : s.hub.Unstarted j := fun r' hr' => by
    rw [hr] at hr'
    cases hr'
    exact hs
  rw [performChanges_of_ne hc]
  refine ⟨hp', ha', ⟨r', hr', hon.token⟩, hl, d.clock.2.trans hsame, d.clock.1, ?_⟩
  rcases d.starts hu with hu' | ⟨-, hg⟩
  · exact .unstarted hu' rfl
  · cases hcl : s.hub.isCancelled r.token with
    | true => exact .closed ((d.onward hp.sound).isCancelled hcl)
    | false =>
      obtain ⟨a, o⟩ := hp.owned
      rw [hg, (s.hub.framed_startRelay _ _).receiver] at hl
      exact onset_startRelay [] o ha hp' ha' hg rfl (fun u hu => not_serves_of_unstarted hp ha hr hs hu) hr hs
        hcl hsame rfl hf hperiod hp.sound.rids hl rfl

end Starting

/-! ## Relays that have started -/

/-- In a step a relay starts, which is not closed. -/
structure Starts (s : Session) (c : Command) (j : Nat) (r : Relay) : Prop where
  before : s.hub.relays[j]? = some r
  unstarted : r.started = false
  started : ∃ r', (s.step c).1.hub.relays[j]? = some r' ∧ r'.started = true
  going : (s.step c).1.hub.isCancelled r.token = false

/-- No relay starts while time passes. -/
theorem Starts.ne_advance (h : s.Starts c j r) (hq : s.hub.step? = none) (hd : s.hub.Tidy) (n : Nat) :
    c ≠ .advance n := by
  rintro rfl
  obtain ⟨r', hr', hs⟩ := h.started
  have hrel : (s.step (.advance n)).1.hub.relays = s.hub.relays := by
    rw [(step_advance hq hd n).1]
    exact Hub.relays_ticks hq hd _
  rw [hrel, h.before] at hr'
  cases hr'
  rw [h.unstarted] at hs
  cases hs

/-- Once a relay has started it is to give feedback for its layers at the multiples of the interval from then on. -/
theorem Starts.onBeat (h : s.Starts c j r) (hp : s.Proper) (ha : s.hub.Apart) (hq : s.hub.step? = none)
    (hd : s.hub.Tidy) (hf : s.hub.settings.feedback = true) (hperiod : s.hub.settings.interval.total ≠ 0)
    (hl : rid ∈ (s.step c).1.hub.receiver.layers.map Layer.rid) :
    (s.step c).1.hub.clock = s.hub.clock ∧ feedbackOf (s.changes c) r.token rid = []
      ∧ ∃ token id, (s.step c).1.OnBeat r.token (s.hub.settings.scheduler rid token) id s.hub.clock
        ∧ ∃ x ∈ s.changes c, x.Schedules r.token (s.hub.settings.scheduler rid token) := by
  have hc := h.ne_advance hq hd
  have hl' : rid ∈ (s.perform c).1.hub.receiver.layers.map Layer.rid := by
    rw [← (Hub.framed_settle (s.perform c).1.hub).receiver]
    exact hl
  have last : (s.step c).1.Starting (s.changes c) j r.token s.hub.settings rid s.hub.clock := by
    rw [step_fst, changes]
    exact ((Starting.perform hp ha h.before h.unstarted hc rfl hf hperiod hl').settle hf hperiod).shown
  refine ⟨last.now, ?_⟩
  cases last.onset with
  | unstarted hu =>
    obtain ⟨r', hr', hs⟩ := h.started
    rw [hu r' hr'] at hs
    cases hs
  | closed hcl =>
    rw [h.going] at hcl
    cases hcl
  | started token id ht hsilent hx =>
    refine ⟨hsilent, token, id, ⟨?_, ?_, Hub.step?_settle _, Nat.le_of_eq last.now.symm⟩, hx⟩
    · rw [last.now, beatAfter_start]
      exact ht
    · exact ((deed_of_perform hc).tidy hd).settle

/-- A relay that has not been started has given no feedback. -/
theorem silent_of_unstarted {first : Session} (hp : first.Proper) (ha : first.hub.Apart) (cs : List Command)
    (hr : (first.after cs).hub.relays[j]? = some r) (hs : r.started = false) (rid : String) :
    feedbackOf (first.history cs) r.token rid = [] := by
  obtain ⟨hp', ha'⟩ := @Invariant.after _ apart_invariant cs first [] ⟨hp, ha⟩
  obtain ⟨a, o⟩ := hp'.owned
  have hmem := List.mem_of_getElem? hr
  have along : Along (fun _ x => ∀ t, x.cause = .move t → ∀ k rid, t.serves k rid = true → k.ids ≠ [] →
      ∃ (j : Nat) (r : Relay), x.before.relays[j]? = some r ∧ r.token.ids = k.ids ∧ r.started = true) []
      (first.history cs) := by
    refine apart_invariant.along (fun s _ t g h hm u hu k rid hus hk => ?_) (fun s _ c h _ u hu => by cases hu) cs
      ⟨hp, ha⟩
    cases hu
    obtain ⟨a, o⟩ := h.1.owned
    exact o.of_serves (Hub.of_mover? hm).1 hus hk
  refine List.flatMap_eq_nil_iff.mpr fun x hx => ?_
  unfold Change.feedbackBy
  split
  · next task ht =>
    split
    · next hus =>
      -- the relay that the task belongs to is this one, which would have been started
      obtain ⟨-, hx'⟩ := along.of_mem hx
      obtain ⟨i, r₀, hr₀, hi, hst⟩ := hx' task ht r.token rid hus (o.ids_ne_nil hmem)
      obtain ⟨r₁, hr₁, hon⟩ := ((grown_after hp.sound cs).before x hx).2.relays i r₀ hr₀
      have he := o.token_eq_of_ids (List.mem_of_getElem? hr₁) hmem ((congrArg Token.ids hon.token).trans hi)
      obtain rfl := ha'.index_eq hr₁ hr he
      rw [hr] at hr₁
      cases hr₁
      rw [hon.started hst] at hs
      cases hs
    · rfl
  · rfl

theorem settings_invariant (settings : Settings) : Invariant fun s _ => s.hub.settings = settings where
  move _ _ _ _ h hm := (Hub.move_of_move? (Hub.of_mover? hm).2).framed.settings.trans h
  clock _ _ _ h := h
  command _ _ _ h hc := (deed_of_perform hc).clock.2.trans h
  shown _ _ h := h

/-- A session keeps its settings. -/
theorem settings_after (settings : Settings) (kind : Kind) (cs : List Command) :
    ((new settings kind).after cs).hub.settings = settings :=
  @Invariant.after _ (settings_invariant settings) cs _ [] rfl

/-! ## The schedule -/

/-- The feedback of a relay for a layer, in a run in which it starts in a step after which other commands follow. -/
structure OnSchedule (s : Session) (earlier : List Change) (c : Command) (ds : List Command) (k : Token)
    (q : Scheduler) : Prop where
  /-- In the step the relay starts the scheduler. -/
  starts : ∃ x ∈ s.changes c, x.Schedules k q
  /-- The token of the scheduler is that of the layer. -/
  token : ∀ u ∈ ((s.step c).1.after ds).hub.tasks, u.serves k q.rid = true → u.job.token? = some q.token
  /-- Over the whole run the relay gives a round of feedback at each multiple of the period after the step that has
  been reached, if one is due in the hub as it is then, and no other. -/
  rounds : feedbackOf (earlier ++ s.history (c :: ds)) k q.rid
    = (List.range ((((s.step c).1.after ds).hub.clock - s.hub.clock) / q.period)).flatMap fun n =>
      ((s.step c).1.justBefore ds (s.hub.clock + (n + 1) * q.period)).roundAt q (s.hub.clock + (n + 1) * q.period)
  /-- Time may be split without making a difference. -/
  split : ∀ before ms after, ms ≠ [] → ds = before ++ ms.map .advance ++ after →
    s.history (c :: ds) = s.history (c :: (before ++ .advance ms.sum :: after))

/-- Whatever a session has done, once a relay starts with feedback turned on, it gives each layer feedback exactly at
the multiples of the interval after its start, as long as the layer's token is not cancelled, when the SSRC of the layer
is known and the writer is not failing; rounds that are not given do not change when the others are. -/
theorem feedback_on_schedule (settings : Settings) (kind : Kind) (cs ds : List Command) (c : Command) (j : Nat)
    (r : Relay) (rid : String) (hs : ((new settings kind).after cs).Starts c j r) (hf : settings.feedback = true)
    (hi : 0 < settings.interval.total)
    (hl : rid ∈ (((new settings kind).after cs).step c).1.hub.receiver.layers.map Layer.rid) :
    ∃ token, ((new settings kind).after cs).OnSchedule ((new settings kind).history cs) c ds r.token
      (settings.scheduler rid token) := by
  obtain ⟨hp, ha⟩ := apart_after settings kind cs
  have hq : ((new settings kind).after cs).hub.step? = none := step?_after rfl cs
  have hd := tidy_after settings kind cs
  have hset := settings_after settings kind cs
  have hbefore := silent_of_unstarted (proper_new settings kind) (apart_after settings kind []).2 cs hs.before
    hs.unstarted rid
  generalize (new settings kind).after cs = s at *
  generalize (new settings kind).history cs = earlier at *
  subst hset
  have hperiod : s.hub.settings.interval.total ≠ 0 := Nat.pos_iff_ne_zero.mp hi
  obtain ⟨hclock, hsilent, token, id, hb, hx⟩ := hs.onBeat hp ha hq hd hf hperiod hl
  obtain ⟨hlast, n, hn, hrounds⟩ := hb.after ds hperiod
  refine ⟨token, hx, hlast.time.duty.token, ?_, fun before ms after hms he => ?_⟩
  · rw [hclock, beats_start, List.flatMap_map, Settings.rid_scheduler] at hrounds
    rw [Settings.rid_scheduler, feedbackOf_append, hbefore, history, feedbackOf_append, hsilent, hn, hclock,
      Nat.add_sub_cancel_left]
    exact hrounds
  · rw [he, history, history, history_split hb.quiet hb.tidy before after hms]

/-- A layer is bound after the first multiple of the interval, so that the first round is given at the second one. -/
theorem feedback_on_schedule_late :
    let first : List Command := [.outbound (.add "o" 9 "" "" none none), .relay (.add "r" [("q", "o")])]
    let s := (new {} .video).after first
    let c : Command := .receiver (.receive [⟨"q", 0⟩])
    let ds : List Command := [.advance 3500, .receiver (.bind "q" 7), .advance 2000, .advance 1000]
    let r : Relay := { forwarder := ⟨⟨[("q", 0)]⟩⟩, token := ⟨[0], true⟩ }
    s.Starts c 0 r
      ∧ feedbackOf (s.history (c :: ds)) r.token "q" = [(6000000000, [.pictureLoss 0 7]),
        (6000000000, [.maximumBitrate 0 (Rtcp.singlePrecision 10000000) [7]])]
      ∧ ∃ token, s.OnSchedule ((new {} .video).history first) c ds r.token (Settings.scheduler {} "q" token) := by
  have hs : ((new {} .video).after [.outbound (.add "o" 9 "" "" none none), .relay (.add "r" [("q", "o")])]).Starts
      (.receiver (.receive [⟨"q", 0⟩])) 0 { forwarder := ⟨⟨[("q", 0)]⟩⟩, token := ⟨[0], true⟩ } :=
    ⟨rfl, rfl, ⟨_, rfl, rfl⟩, rfl⟩
  exact ⟨hs, by decide +kernel, feedback_on_schedule {} .video _ _ _ 0 _ "q" hs rfl (by decide) (by decide +kernel)⟩

end Session

end MediaRelay
