import MediaRelay.Proofs.Dependents

/-!
# Tasks that read

- `Job.query?` is the read that a job makes, `Progress.gate?` the gate at which a read that is not done waits,
  `Hub.finish` what a task does with the result of its read, and `Hub.target?` the stream that a read would read;
- `reader_move`: a task that reads does what the same read would come to if it were called instead, unless it is a
  pump that quits;
- `gate_of_waiting`: a task that reads and cannot go on makes a read that waits;
- `Hub.Retasked` lists what a move leaves of the tasks, in their order (`retasked`), and `Hub.Begets` says where they
  come from;
- `Hub.move?_still`: a task that waits goes on waiting unless something changes that it waits for.
-/

namespace MediaRelay

/-! ## What a task reads -/

/-- The read that a job makes, if any. -/
def Job.query? : Job → Option Read
  | .read q => some q
  | .pump p => some ⟨.media p.rid, .decoded⟩
  | .greet _ rid => some ⟨.media rid, .decoded⟩
  | _ => none

/-- The gate at which a read waits, unless it is done. -/
def Progress.gate? {α : Type} : Progress α → Option Gate
  | .awaitsTrack => some .track
  | .awaitsLayer => some .layer
  | .awaitsDatagram => some .datagram
  | .done _ => none

/-- What a read makes of what comes of its stream. -/
def Read.progress (q : Read) : Attempt Datagram → Progress Data
  | .waiting => .awaitsDatagram
  | .done (.error e) => .done (.error e)
  | .done (.ok d) => .done (q.data d)

/-- The task when it waits at a gate. -/
def Task.at (t : Task) (g : Gate) : Task :=
  { t with stage := .waiting g }

theorem Job.isReading_iff (j : Job) : j.isReading = true ↔ ∃ q, j.query? = some q := by
  cases j <;> simp [Job.isReading, Job.query?]

theorem Progress.not_deadline {α : Type} {p : Progress α} {g : Gate} (h : p.gate? = some g) (time : Nat) :
    g ≠ .deadline time := by
  rintro rfl
  cases p <;> cases h

/-- A read is done, or waits at a gate. -/
theorem Progress.cases_gate? {α : Type} (p : Progress α) : (∃ r, p = .done r) ∨ ∃ g, p.gate? = some g := by
  cases p with
  | done r => exact .inl ⟨r, rfl⟩
  | _ => exact .inr ⟨_, rfl⟩

theorem Receiver.read_eq_of_atStream {r : Receiver Ssrc} {t : QueueTransport} {q : Read} {ch : Channel} {s : Ssrc}
    (h : r.standing q.source = .atStream ch s) :
    r.read t q = ((t.readStream ch s (q.buffer r.mtu)).1, q.progress (t.readStream ch s (q.buffer r.mtu)).2) := by
  simp only [Receiver.read, h, Transport.readStream]
  generalize t.readStream ch s (q.buffer r.mtu) = x
  obtain ⟨u, a⟩ := x
  rcases a with _ | (e | d) <;> rfl

namespace Hub

variable {h g : Hub} {t : Task} {q : Read}

/-- What a task does with the result of its read. -/
def finish (t : Task) (h : Hub) (r : Except Error Data) : Hub :=
  match t.job with
  | .read _ => h.retire t (.read r)
  | .pump p => pumped t p h r
  | .greet name _ => greeted t name h r
  | _ => h

/-- Whether the application has what it takes to make a read: the layer whose media it reads, or else the receiver. -/
def offers (h : Hub) (q : Read) : Bool :=
  match q.source with
  | .media rid => (h.receiver.layer? rid).isSome
  | _ => h.held

/-- Whether a task is a pump that ends without reading: it has nowhere to forward to, or is cancelled. -/
def quits (h : Hub) (t : Task) : Bool :=
  match t.job with
  | .pump p => ¬ p.forwarder.has p.rid || h.isCancelled p.token
  | _ => false

/-- The stream that a read would read now, and the size of its buffer. -/
def target? (h : Hub) (q : Read) : Option (Channel × Ssrc × Nat) :=
  if q.source.channel = .media ∧ h.isAlive = false then none
  else
    match h.receiver.standing q.source with
    | .atStream ch ssrc => some (ch, ssrc, q.buffer h.receiver.mtu)
    | _ => none

theorem target?_eq_some_iff {ch : Channel} {ssrc : Ssrc} {n : Nat} :
    h.target? q = some (ch, ssrc, n) ↔ (q.source.channel = .media → h.isAlive = true)
      ∧ h.receiver.standing q.source = .atStream ch ssrc ∧ n = q.buffer h.receiver.mtu := by
  unfold target?
  split
  · next hn => simp [hn.1, hn.2]
  · next hn =>
    have ha : q.source.channel = .media → h.isAlive = true := fun hc => by simpa [hc] using hn
    split
    · next hs =>
      rw [hs]
      constructor
      · rintro ⟨⟩
        exact ⟨ha, rfl, rfl⟩
      · rintro ⟨-, ⟨⟩, rfl⟩
        rfl
    · next hs =>
      constructor
      · rintro ⟨⟩
      · rintro ⟨-, hs', -⟩
        exact absurd hs' (hs ch ssrc)

theorem read_eq_receiver_read (ha : q.source.channel = .media → h.isAlive = true) :
    h.read q = ({ h with transport := (h.receiver.read h.transport q).1 }, (h.receiver.read h.transport q).2) := by
  obtain ⟨source, form⟩ := q
  cases source with
  | media rid => exact read_of_alive (ha rfl) _
  | _ => rfl

/-- A read that has a target is a read of that stream. -/
theorem read_of_target {ch : Channel} {ssrc : Ssrc} {n : Nat} (ht : h.target? q = some (ch, ssrc, n)) :
    h.read q = ({ h with transport := (h.transport.readStream ch ssrc n).1 },
      q.progress (h.transport.readStream ch ssrc n).2) := by
  obtain ⟨ha, hs, rfl⟩ := target?_eq_some_iff.mp ht
  rw [read_eq_receiver_read ha, Receiver.read_eq_of_atStream hs]

/-- A read that has no target leaves everything as it is, and does not wait for a datagram. -/
theorem read_of_no_target (ht : h.target? q = none) : (h.read q).1 = h ∧ (h.read q).2.gate? ≠ some .datagram := by
  have hn : ∀ ch ssrc, (q.source.channel = .media → h.isAlive = true) →
      h.receiver.standing q.source ≠ .atStream ch ssrc :=
    fun ch ssrc ha hs => by
      rw [target?_eq_some_iff.mpr ⟨ha, hs, rfl⟩] at ht
      cases ht
  by_cases ha : q.source.channel = .media → h.isAlive = true
  · rw [read_eq_receiver_read ha]
    cases hs : h.receiver.standing q.source with
    | atStream ch ssrc => exact absurd hs (hn ch ssrc ha)
    | _ => simp [Receiver.read, hs, Progress.gate?]
  · obtain ⟨source, form⟩ := q
    obtain ⟨hm, hd⟩ := Classical.not_imp.mp ha
    cases source with
    | media rid =>
      have hd : h.isAlive = false := by simpa using hd
      simp [Hub.read, hd, Progress.gate?]
    | _ => cases hm

/-! ## Moves of tasks that read -/

theorem move?_of_query (hq : t.job.query? = some q) (hn : h.quits t = false) :
    h.move? t = h.goOn? t q (finish t) := by
  obtain ⟨id, job, stage⟩ := t
  cases job with
  | read q' =>
    cases hq
    rfl
  | pump p =>
    cases hq
    obtain ⟨hf, hc⟩ : p.forwarder.has p.rid = true ∧ h.isCancelled p.token = false := by simpa [quits] using hn
    simp only [move?, movePump?, hf, hc, not_true_eq_false, if_false, Bool.false_eq_true]
    rfl
  | greet name rid =>
    cases hq
    rfl
  | feedback s => cases hq
  | announce rids => cases hq

/-- Going on with a read finishes it if it is done. -/
theorem goOn?_of_done {finish : Hub → Except Error Data → Hub} {r : Except Error Data} (hr : (h.read q).2 = .done r) :
    h.goOn? t q finish = some (finish (h.read q).1 r) := by
  generalize hx : h.read q = x at hr
  obtain ⟨k, p⟩ := x
  subst hr
  simp only [goOn?, hx]

/-- Going on with a read that waits is to wait at its gate. -/
theorem goOn?_of_gate {finish : Hub → Except Error Data → Hub} {gate : Gate} (hr : (h.read q).2.gate? = some gate) :
    h.goOn? t q finish = h.park? t gate := by
  generalize hx : h.read q = x at hr
  obtain ⟨k, p⟩ := x
  cases p <;> cases hr <;> simp only [goOn?, hx]

theorem park?_eq_some {gate : Gate} (hp : h.park? t gate = some g) :
    (Stage.waiting gate).rank < t.stage.rank ∧ g = h.park t gate := by
  unfold park? at hp
  split at hp
  · next hr => exact ⟨hr, (Option.some.inj hp).symm⟩
  · cases hp

/-- A task that reads does what its read comes to at that moment, unless it is a pump that quits. -/
theorem reader_move (hq : t.job.query? = some q) (hm : h.move? t = some g) :
    h.quits t = true
      ∨ h.quits t = false ∧ ((∃ r, (h.read q).2 = .done r ∧ g = finish t (h.read q).1 r)
        ∨ ∃ gate, (h.read q).2.gate? = some gate ∧ (Stage.waiting gate).rank < t.stage.rank ∧ g = h.park t gate) := by
  cases hn : h.quits t with
  | true => exact .inl rfl
  | false =>
    refine .inr ⟨rfl, ?_⟩
    rw [move?_of_query hq hn] at hm
    rcases (h.read q).2.cases_gate? with ⟨r, hr⟩ | ⟨gate, hr⟩
    · rw [goOn?_of_done hr] at hm
      exact .inl ⟨r, hr, (Option.some.inj hm).symm⟩
    · rw [goOn?_of_gate hr] at hm
      exact .inr ⟨gate, hr, park?_eq_some hm⟩

/-- A pump that quits ends, and touches nothing but tokens and relays. -/
theorem move_of_quits (hn : h.quits t = true) (hm : h.move? t = some g) :
    ∃ p, t.job = .pump p ∧ (g = h.failPump t p (.noOutboundTrack p.rid)
      ∨ h.isCancelled p.token = true ∧ g = h.retire t (.pump p.rid (.ok ()))) := by
  obtain ⟨id, job, stage⟩ := t
  cases job with
  | pump p =>
    refine ⟨p, rfl, ?_⟩
    simp only [move?, movePump?] at hm
    split at hm
    · exact .inl (Option.some.inj hm).symm
    · split at hm
      · next hc => exact .inr ⟨hc, (Option.some.inj hm).symm⟩
      · next hf hc =>
        simp only [not_not] at hf
        simp [quits, hf, hc] at hn
  | _ => cases hn

/-- A task that quits can go on. -/
theorem quits_move (hn : h.quits t = true) : ∃ g, h.move? t = some g := by
  obtain ⟨id, job, stage⟩ := t
  cases job with
  | pump p =>
    simp only [move?, movePump?]
    split
    · exact ⟨_, rfl⟩
    · next hf =>
      simp only [not_not] at hf
      rw [if_pos (by simpa [quits, hf] using hn)]
      exact ⟨_, rfl⟩
  | _ => cases hn

/-- A task that reads and cannot go on makes a read that waits, at a gate that the task has come to. -/
theorem gate_of_waiting (hq : t.job.query? = some q) (hm : h.move? t = none) :
    h.quits t = false ∧ ∃ gate, (h.read q).2.gate? = some gate ∧ t.stage.rank ≤ (Stage.waiting gate).rank := by
  cases hn : h.quits t with
  | true =>
    obtain ⟨g, hg⟩ := quits_move hn
    rw [hm] at hg
    cases hg
  | false =>
    refine ⟨rfl, ?_⟩
    rw [move?_of_query hq hn] at hm
    rcases (h.read q).2.cases_gate? with ⟨r, hr⟩ | ⟨gate, hr⟩
    · rw [goOn?_of_done hr] at hm
      cases hm
    · rw [goOn?_of_gate hr, park?] at hm
      split at hm
      · cases hm
      · next hle => exact ⟨gate, hr, Nat.not_lt.mp hle⟩

/-- A task that cannot go on and reads holds on to the receiver. -/
theorem holdsReceiver_of_waiting (hq : t.job.query? = some q) (hm : h.move? t = none) : t.holdsReceiver = true := by
  obtain ⟨-, gate, hr, hle⟩ := gate_of_waiting hq hm
  have hj : t.job.isReading = true := (Job.isReading_iff _).mpr ⟨q, hq⟩
  simp only [Task.holdsReceiver, hj, Bool.true_and, ne_eq, decide_eq_true_eq]
  intro hs
  rw [hs] at hle
  cases gate <;> simp [Stage.rank] at hle

/-- Where somebody holds on to the receiver it is there. -/
theorem isAlive_of_holdsReceiver (ht : t ∈ h.tasks) (hh : t.holdsReceiver = true) : h.isAlive = true := by
  rw [isAlive, Bool.or_eq_true]
  exact .inr (List.any_eq_true.mpr ⟨t, ht, hh⟩)

/-! ## What is left of the tasks -/

/-- The tasks after a move of one of them: it has gone, waits behind all others, goes on before all others, or has
left new tasks behind all others. One that reads waits where its read does, and goes on when that gave data. -/
inductive Retasked (h : Hub) (t : Task) : List Task → Prop
  | gone : Retasked h t (h.others t.id)
  | parked {gate : Gate}
    (hg : ∀ q, t.job.query? = some q → (h.read q).2.gate? = some gate ∧ (Stage.waiting gate).rank < t.stage.rank) :
    Retasked h t (h.others t.id ++ [t.at gate])
  | resumed {d : Data} (hn : h.quits t = false) (hr : ∀ q, t.job.query? = some q → (h.read q).2 = .done (.ok d)) :
    Retasked h t ({ id := t.id, job := t.job } :: h.others t.id)
  | greeting {rids : List String} (hj : t.job = .announce rids) (name rid : String) :
    Retasked h t ({ id := t.id, job := .greet name rid } :: h.others t.id)
  | started {rids : List String} (hj : t.job = .announce rids) {new : List Task}
    (hn : ∀ u ∈ new, u.stage = .ready ∧ h.Launches u) : Retasked h t (h.others t.id ++ new)

theorem retasked_announce (h : Hub) (t : Task) {rids : List String} (hj : t.job = .announce rids) :
    Retasked h t (h.announce t rids).tasks := by
  unfold announce
  split
  · exact .gone
  · obtain ⟨new, ht, hn⟩ := (h.dismiss t).tasks_startRelay _ rids
    rw [ht]
    exact .started hj hn
  · dsimp only
    split
    · exact .greeting hj _ _
    · exact .gone

/-- A task that has finished its read is gone, or goes on if that gave data. -/
theorem tasks_finish (hq : t.job.query? = some q) (h : Hub) (r : Except Error Data) :
    (finish t h r).tasks = h.others t.id
      ∨ (∃ d, r = .ok d) ∧ (finish t h r).tasks = { id := t.id, job := t.job } :: h.others t.id := by
  obtain ⟨id, job, stage⟩ := t
  cases job with
  | read q => exact .inl rfl
  | pump p =>
    simp only [finish, pumped]
    split
    · split
      · exact .inr ⟨⟨_, rfl⟩, rfl⟩
      · exact .inl (failPump_fields _ _ _ _).2.2
    · exact .inl (failPump_fields _ _ _ _).2.2
    · exact .inl (failPump_fields _ _ _ _).2.2
  | greet name rid =>
    simp only [finish, greeted]
    split <;> exact .inl rfl
  | feedback s => cases hq
  | announce rids => cases hq

theorem retasked_of_query (hq : t.job.query? = some q) (hm : h.move? t = some g) : Retasked h t g.tasks := by
  rcases reader_move hq hm with hn | ⟨hn, ⟨r, hr, rfl⟩ | ⟨gate, hgate, hrank, rfl⟩⟩
  · obtain ⟨p, -, rfl | ⟨-, rfl⟩⟩ := move_of_quits hn hm
    · rw [(failPump_fields h t p _).2.2]
      exact .gone
    · exact .gone
  · obtain ⟨u, hu, -⟩ := h.read_transport q
    rw [hu]
    rcases tasks_finish hq { h with transport := u } r with ht | ⟨⟨d, rfl⟩, ht⟩ <;> rw [ht]
    · exact .gone
    · refine .resumed (d := d) hn fun q' hq' => ?_
      rw [hq] at hq'
      cases hq'
      exact hr
  · refine .parked fun q' hq' => ?_
    rw [hq] at hq'
    cases hq'
    exact ⟨hgate, hrank⟩

/-- What a move leaves of the tasks. -/
theorem retasked (hm : h.move? t = some g) : Retasked h t g.tasks := by
  cases hq : t.job.query? with
  | some q => exact retasked_of_query hq hm
  | none =>
    have parked : ∀ gate, Retasked h t (h.others t.id ++ [t.at gate]) := fun gate => .parked fun q hq' => by
      rw [hq] at hq'
      cases hq'
    cases move_of_move? hm with
    | park hj =>
      obtain ⟨q, hq'⟩ := (Job.isReading_iff _).mp hj
      rw [hq] at hq'
      cases hq'
    | expire => exact .gone
    | round | begin => exact parked _
    | announce hj => exact h.retasked_announce t hj
    | read hj | forward hj | refuse hj | fail hj | unrouted hj | cease hj | greet hj =>
      rw [hj] at hq
      cases hq

/-- What is among the tasks after a move was there before, is ready to run, or waits at another gate. -/
theorem Retasked.mem {ts : List Task} (hr : Retasked h t ts) {u : Task} (hu : u ∈ ts) :
    u ∈ h.others t.id ∨ u.stage = .ready
      ∨ ∃ gate, u = t.at gate ∧ ∀ q, t.job.query? = some q → (h.read q).2.gate? = some gate := by
  cases hr with
  | gone => exact .inl hu
  | @parked gate hg =>
    rcases List.mem_append.mp hu with hu | hu
    · exact .inl hu
    · exact .inr (.inr ⟨gate, List.mem_singleton.mp hu, fun q hq => (hg q hq).1⟩)
  | resumed | greeting =>
    rcases List.mem_cons.mp hu with rfl | hu
    · exact .inr (.inl rfl)
    · exact .inl hu
  | started _ hn =>
    rcases List.mem_append.mp hu with hu | hu
    · exact .inl hu
    · exact .inr (.inl (hn u hu).1)

/-- The other tasks stay. -/
theorem Retasked.others {ts : List Task} (hr : Retasked h t ts) {u : Task} (hu : u ∈ h.others t.id) : u ∈ ts := by
  cases hr with
  | gone => exact hu
  | parked | started => exact List.mem_append_left _ hu
  | resumed | greeting => exact List.mem_cons_of_mem _ hu

/-- Where tasks come from: they were there before, they are new and no relay runs them, or a relay starts them. -/
def Begets (h : Hub) (u : Task) : Prop :=
  (∃ v ∈ h.tasks, v.id = u.id ∧ v.job = u.job) ∨ u.job.IsNew h.tokens.next ∨ h.Launches u

theorem begets_of_mem {u : Task} (hu : u ∈ h.tasks) : h.Begets u :=
  .inl ⟨u, hu, rfl, rfl⟩

theorem Retasked.begets {ts : List Task} (hr : Retasked h t ts) (ht : t ∈ h.tasks) {u : Task} (hu : u ∈ ts) :
    h.Begets u := by
  have old : u ∈ h.others t.id → h.Begets u := fun hu => begets_of_mem (Owned.mem_others.mp hu).1
  cases hr with
  | gone => exact old hu
  | parked =>
    rcases List.mem_append.mp hu with hu | hu
    · exact old hu
    · rw [List.mem_singleton.mp hu]
      exact .inl ⟨t, ht, rfl, rfl⟩
  | resumed =>
    rcases List.mem_cons.mp hu with rfl | hu
    · exact .inl ⟨t, ht, rfl, rfl⟩
    · exact old hu
  | greeting =>
    rcases List.mem_cons.mp hu with rfl | hu
    · exact .inr (.inl (.of_token?_eq_none rfl _))
    · exact old hu
  | started _ hn =>
    rcases List.mem_append.mp hu with hu | hu
    · exact old hu
    · exact .inr (.inr (hn u hu).2)

/-! ## Tasks that go on waiting -/

/-- What a read of a receiver that is there comes to depends on the receiver and its streams. -/
theorem read_congr (hr : g.receiver = h.receiver) (ht : g.transport = h.transport) (ha : h.isAlive = true)
    (ha' : g.isAlive = true) (q : Read) : (g.read q).2 = (h.read q).2 := by
  rw [read_of_alive ha, read_of_alive ha', hr, ht]

/-- A task that waits goes on waiting if its read comes to the same, its token is not cancelled in the meantime and its
deadline has not come. -/
theorem move?_still_of_read {u : Task} (hr : ∀ q, u.job.query? = some q → (g.read q).2 = (h.read q).2)
    (hk : ∀ k, u.job.token? = some k → g.isCancelled k = h.isCancelled k)
    (hd : ∀ d, deadline? u = some d → g.clock < d) (hm : h.move? u = none) : g.move? u = none := by
  cases hq : u.job.query? with
  | some q =>
    obtain ⟨hn, gate, hgate, hrank⟩ := gate_of_waiting hq hm
    have hn' : g.quits u = false := by
      unfold quits at hn ⊢
      split
      · next p hj =>
        rw [hj] at hn
        rw [hk p.token (by rw [hj]; rfl)]
        exact hn
      · rfl
    rw [← hr q hq] at hgate
    rw [move?_of_query hq hn', goOn?_of_gate hgate, park?, if_neg (Nat.not_lt.mpr hrank)]
  | none =>
    obtain ⟨id, job, stage⟩ := u
    cases job with
    | announce rids => cases hm
    | feedback s =>
      simp only [move?, moveScheduler?] at hm ⊢
      rw [hk s.token rfl]
      split at hm
      · cases hm
      · next hc =>
        rw [if_neg hc]
        split at hm
        · next time => rw [if_neg (Nat.not_le.mpr (hd time rfl))]
        · rfl
        · cases hm
    | _ => cases hq

/-- A task that waits goes on waiting if the receiver and its streams are as they were, its token is not cancelled in
the meantime and its deadline has not come. -/
theorem move?_still {u : Task} (hu : u ∈ h.tasks) (hu' : u ∈ g.tasks) (hr : g.receiver = h.receiver)
    (ht : g.transport = h.transport) (hk : ∀ k, u.job.token? = some k → g.isCancelled k = h.isCancelled k)
    (hd : ∀ d, deadline? u = some d → g.clock < d) (hm : h.move? u = none) : g.move? u = none := by
  refine move?_still_of_read (fun q hq => ?_) hk hd hm
  have hh := holdsReceiver_of_waiting hq hm
  exact read_congr hr ht (isAlive_of_holdsReceiver hu hh) (isAlive_of_holdsReceiver hu' hh) q

end Hub

namespace Session

variable {s : Session} {c : Command} {g : Hub} {names : Table String Token}

theorem refuseRead_eq_none_iff (q : Read) : s.refuseRead q = none ↔ s.hub.offers q = true := by
  obtain ⟨source, form⟩ := q
  cases source with
  | media rid => cases h : s.hub.receiver.layer? rid <;> simp [refuseRead, Hub.offers, h]
  | _ => simp [refuseRead, Hub.offers]

/-- What a deed leaves of the tasks: one that has a name may be dropped, or there are new ones behind all others, ready
to run, of which a relay starts those that need a token that was taken before. -/
theorem Deed.retasked (d : s.Deed c g names) :
    (∃ c' name id, c = .reading c' ∧ s.tasks.find? name = some (.running id) ∧ g.tasks = s.hub.others id)
      ∨ ∃ new, g.tasks = s.hub.tasks ++ new
        ∧ ∀ u ∈ new, u.stage = .ready ∧ (u.job.IsNew s.hub.tokens.next ∨ s.hub.Launches u) := by
  have same : ∀ {k : Hub}, k.tasks = s.hub.tasks → ∃ new, k.tasks = s.hub.tasks ++ new
      ∧ ∀ u ∈ new, u.stage = .ready ∧ (u.job.IsNew s.hub.tokens.next ∨ s.hub.Launches u) :=
    fun hk => ⟨[], by rw [hk, List.append_nil], by simp⟩
  have own : ∀ {k : Hub} {job : Job}, k.tasks = s.hub.tasks → job.IsNew s.hub.tokens.next →
      ∃ new, (k.spawn job).tasks = s.hub.tasks ++ new
        ∧ ∀ u ∈ new, u.stage = .ready ∧ (u.job.IsNew s.hub.tokens.next ∨ s.hub.Launches u) := by
    intro k job hk ho
    refine ⟨[{ id := k.nextTask, job }], by rw [Hub.spawn, hk], fun u hu => ?_⟩
    rw [List.mem_singleton.mp hu]
    exact ⟨rfl, .inl ho⟩
  cases d with
  | abort hn => exact .inl ⟨_, _, _, rfl, hn, rfl⟩
  | spawnRead | receive => exact .inr (own rfl (.of_token?_eq_none rfl _))
  | startPump => exact .inr (own rfl ⟨fun p hj => by cases hj; rfl, fun k hk => by cases hk; rfl⟩)
  | startScheduler => exact .inr (own rfl ⟨fun p hj => (by cases hj), fun k hk => by cases hk; rfl⟩)
  | startRelay =>
    obtain ⟨new, ht, hn⟩ := s.hub.tasks_startRelay _ _
    exact .inr ⟨new, ht, fun u hu => ⟨(hn u hu).1, .inr (hn u hu).2⟩⟩
  | read q =>
    obtain ⟨u, hu, -⟩ := s.hub.read_transport q
    rw [hu]
    exact .inr (same rfl)
  | _ => exact .inr (same rfl)

/-- Where the tasks after a deed come from. -/
theorem Deed.begets (d : s.Deed c g names) {u : Task} (hu : u ∈ g.tasks) : s.hub.Begets u := by
  rcases d.retasked with ⟨_, _, id, -, -, hg⟩ | ⟨new, hg, hn⟩ <;> rw [hg] at hu
  · exact Hub.begets_of_mem (Owned.mem_others.mp hu).1
  · exact (List.mem_append.mp hu).elim Hub.begets_of_mem fun hu => .inr (hn u hu).2

/-- What is among the tasks after a deed was there before or is ready to run. -/
theorem Deed.mem_tasks (d : s.Deed c g names) {u : Task} (hu : u ∈ g.tasks) : u ∈ s.hub.tasks ∨ u.stage = .ready := by
  rcases d.retasked with ⟨_, _, id, -, -, hg⟩ | ⟨new, hg, hn⟩ <;> rw [hg] at hu
  · exact .inl (Owned.mem_others.mp hu).1
  · exact (List.mem_append.mp hu).imp id fun hu => (hn u hu).1

end Session

end MediaRelay
