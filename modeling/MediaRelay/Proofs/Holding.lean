import MediaRelay.Proofs.Names
import MediaRelay.Proofs.Queueing

/-!
# Who holds on to the receiver

The media of a layer cannot be read when the receiver is gone. After the application has let go of it the reads that
wait keep it there.

- `Change.FindsReceiver`: a change reads no media, or finds the receiver there;
- `Hub.Rests`: a task that does not read, or waits where there is nothing to read; so all do in a hub that has settled
  (`rests_of_quiet`), and no move changes that (`Rests.move`);
- `Hub.Covered`: whoever goes on next reads, while another read waits and all others rest; so it is when a read begins
  (`covered_spawn`) or a datagram comes (`covered_push`), and until all rest again (`Covers.next`);
- `Session.findsReceiver_changes`: in a step that begins when two reads wait each read of media finds the receiver
  there.
-/

namespace MediaRelay

namespace QueueTransport

/-- Reading brings nothing to read. -/
theorem queued_readStream (t : QueueTransport) (ch : Channel) (ssrc : Ssrc) (n : Nat) {ch' : Channel} {ssrc' : Ssrc}
    (he : (t.stream ch' ssrc').queued = []) : ((t.readStream ch ssrc n).1.stream ch' ssrc').queued = [] := by
  refine t.forall_onStream ch ssrc _ (R := fun s s' => s.queued = [] → s'.queued = []) (fun _ => id) (fun s hs => ?_)
    ch' ssrc' he
  have hlen := s.length_queued_read n
  rw [hs] at hlen
  exact List.length_eq_zero_iff.mp (Nat.le_zero.mp hlen)

end QueueTransport

namespace Hub

variable {h : Hub} {t : Task}

/-- Whether a task would read the media of a layer now. -/
def readsMedia (h : Hub) (t : Task) : Bool :=
  !h.quits t && t.job.query?.any fun q => q.source.channel = .media

theorem readsMedia_iff :
    h.readsMedia t = true ↔ h.quits t = false ∧ ∃ q, t.job.query? = some q ∧ q.source.channel = .media := by
  rw [readsMedia, Bool.and_eq_true, Bool.not_eq_true', Option.any_eq_true]
  simp only [decide_eq_true_eq]

end Hub

/-- Whether a change reads the media of a layer: somebody calls the read and has the layer, or a task makes it. -/
def Change.readsMedia (x : Change) : Bool :=
  match x.cause with
  | .command (.reading (.read q)) _ => x.before.offers q && q.source.channel = .media
  | .command _ _ => false
  | .move t => x.before.readsMedia t

/-- A change that reads media finds the receiver there. -/
def Change.FindsReceiver (x : Change) : Prop :=
  x.readsMedia = true → x.before.isAlive = true

namespace Hub

variable {h g : Hub} {t u : Task} {q : Read} {ch : Channel} {ssrc : Ssrc}

/-! ## Tasks at rest -/

/-- A task that announces nothing, and that waits if it reads, where there is nothing to read. -/
structure Rests (h : Hub) (u : Task) : Prop where
  announced : ∀ rids, u.job ≠ .announce rids
  waits : ∀ q, u.job.query? = some q → u.stage ≠ .ready
  dry : ∀ q ch ssrc, u.job.query? = some q → h.receiver.standing q.source = .atStream ch ssrc →
    (h.transport.stream ch ssrc).queued = []

theorem Rests.congr (hu : h.Rests u) (hr : g.receiver = h.receiver)
    (he : ∀ ch ssrc, (h.transport.stream ch ssrc).queued = [] → (g.transport.stream ch ssrc).queued = []) :
    g.Rests u :=
  ⟨hu.announced, hu.waits, fun q ch ssrc hq hs => he ch ssrc (hu.dry q ch ssrc hq (hr ▸ hs))⟩

/-- Who does not read rests. -/
theorem rests_of_no_query (hj : ∀ rids, u.job ≠ .announce rids) (hq : u.job.query? = none) : h.Rests u :=
  ⟨hj, fun _ hq' => (by cases hq.symm.trans hq'), fun _ _ _ hq' => (by cases hq.symm.trans hq')⟩

/-- A task that rests and reads holds on to the receiver. -/
theorem Rests.holds (hu : h.Rests u) (hq : u.job.query? = some q) : u.holdsReceiver = true := by
  have hj : u.job.isReading = true := (Job.isReading_iff _).mpr ⟨q, hq⟩
  simp [Task.holdsReceiver, hj, hu.waits q hq]

/-- The read of a task that rests gives no data. -/
theorem Rests.not_data (hu : h.Rests u) (hq : u.job.query? = some q) (data : Data) :
    (h.read q).2 ≠ .done (.ok data) := by
  intro hr
  obtain ⟨v, -, hread⟩ := read_done (h := h) (q := q) (g := (h.read q).1) (r := .ok data) (Prod.ext rfl hr)
  generalize hx : (.ok data : Except Error Data) = x at hread
  cases hread with
  | took hs hc hd =>
    have hlt := (List.getElem?_eq_some_iff.mp hd).1
    have he := hu.dry q _ _ hq hs
    rw [QueueStream.queued, List.drop_eq_nil_iff] at he
    omega
  | _ => cases hx

/-- A read that waits is of an open stream where there is nothing to read, or of none. -/
theorem stream_of_gate {gate : Gate} (hg : (h.read q).2.gate? = some gate)
    (hs : h.receiver.standing q.source = .atStream ch ssrc) :
    (h.transport.stream ch ssrc).queued = [] ∧ (h.transport.stream ch ssrc).closed = false := by
  have ha : q.source.channel = .media → h.isAlive = true := fun hc => by
    obtain ⟨source, form⟩ := q
    cases source with
    | media rid =>
      by_contra hd
      simp [Hub.read, Bool.not_eq_true _ ▸ hd, Progress.gate?] at hg
    | _ => cases hc
  have unserved : ¬ h.Served ch ssrc := fun hs' => by
    rw [(read_of_served (target?_eq_some_iff.mpr ⟨ha, hs, rfl⟩)).1 hs'] at hg
    cases hg
  obtain ⟨hq, hc⟩ := not_or.mp unserved
  exact ⟨not_not.mp hq, Bool.not_eq_true _ ▸ hc⟩

/-- In a hub that has settled all tasks rest. -/
theorem rests_of_quiet (hq : h.step? = none) (hu : u ∈ h.tasks) : h.Rests u := by
  have hm : h.move? u = none := List.findSome?_eq_none_iff.mp hq u hu
  refine ⟨fun rids hj => ?_, fun q hq' hs => ?_, fun q ch ssrc hq' hs => ?_⟩
  · rw [move?, hj] at hm
    cases hm
  · have hh := holdsReceiver_of_waiting hq' hm
    simp [Task.holdsReceiver, hs] at hh
  · obtain ⟨-, gate, hgate, -⟩ := gate_of_waiting hq' hm
    exact (stream_of_gate hgate hs).1

/-- Where there is nothing to read tasks bring nothing. -/
theorem queued_move (hm : h.move? t = some g) (he : (h.transport.stream ch ssrc).queued = []) :
    (g.transport.stream ch ssrc).queued = [] := by
  rcases stream_move hm ch ssrc with ⟨⟨-, -, -, hne⟩, -⟩ | ⟨-, hq⟩
  · exact absurd he hne
  · rw [hq, he]

/-- Who rests goes on resting when others move. -/
theorem Rests.move (hu : h.Rests u) (hm : h.move? t = some g) : g.Rests u :=
  hu.congr (move_of_move? hm).framed.receiver fun _ _ => queued_move hm

/-- Who moves from one gate to another rests there. -/
theorem rests_at {gate : Gate} (hj : ∀ rids, t.job ≠ .announce rids) (hm : h.move? t = some g)
    (hg : ∀ q, t.job.query? = some q → (h.read q).2.gate? = some gate) : g.Rests (t.at gate) :=
  ⟨hj, fun _ _ => Stage.noConfusion, fun q _ _ hq hs =>
    queued_move hm (stream_of_gate (hg q hq) ((move_of_move? hm).framed.receiver ▸ hs)).1⟩

/-- A lull: all tasks rest. -/
def Lull (h : Hub) : Prop :=
  ∀ u ∈ h.tasks, h.Rests u

theorem Lull.congr (hl : h.Lull) (hr : g.receiver = h.receiver) (ht : ∀ u ∈ g.tasks, u ∈ h.tasks)
    (he : ∀ ch ssrc, (h.transport.stream ch ssrc).queued = [] → (g.transport.stream ch ssrc).queued = []) : g.Lull :=
  fun u hu => (hl u (ht u hu)).congr hr he

/-- No move ends a lull. -/
theorem Lull.move (hl : h.Lull) (ht : t ∈ h.tasks) (hm : h.move? t = some g) : g.Lull := by
  have others : ∀ u ∈ h.others t.id, g.Rests u := fun u hu => (hl u (Owned.mem_others.mp hu).1).move hm
  have hj := (hl t ht).announced
  have hr := retasked hm
  unfold Lull
  generalize g.tasks = ts at hr
  cases hr with
  | gone => exact others
  | parked hgate =>
    have hlast := rests_at hj hm fun q hq => (hgate q hq).1
    exact List.forall_mem_append.mpr ⟨others, List.forall_mem_singleton.mpr hlast⟩
  | @resumed data hn hdata =>
    -- there was nothing to read
    have hq : t.job.query? = none := by
      cases hq : t.job.query? with
      | none => rfl
      | some q => exact absurd (hdata q hq) ((hl t ht).not_data hq data)
    exact List.forall_mem_cons.mpr ⟨rests_of_no_query hj hq, others⟩
  | greeting hj' | started hj' => exact absurd hj' (hj _)

/-! ## One who reads while others wait -/

/-- A move of a task that reads while another read waits, and after which the others rest. -/
structure Covers (h g : Hub) (t : Task) : Prop where
  reads : ∃ q, t.job.query? = some q
  rest : ∀ u ∈ h.others t.id, g.Rests u
  other : ∃ u ∈ h.others t.id, u.holdsReceiver = true

/-- Whoever goes on next reads while another read waits. -/
def Covered (h : Hub) : Prop :=
  ∀ t g, h.mover? = some (t, g) → h.Covers g t

/-- A task that reads and is ready can go on. -/
theorem move?_of_ready (hq : t.job.query? = some q) (hs : t.stage = .ready) : ∃ g, h.move? t = some g := by
  cases hm : h.move? t with
  | some g => exact ⟨g, rfl⟩
  | none =>
    have hh := holdsReceiver_of_waiting hq hm
    simp [Task.holdsReceiver, hs] at hh

/-- Who has read while another read waits goes on reading so, or all tasks rest. -/
theorem Covers.next (hc : h.Covers g t) (hm : h.move? t = some g) : g.Lull ∨ g.Covered := by
  obtain ⟨⟨q, hq⟩, hrest, u, hu, hh⟩ := hc
  have hj : ∀ rids, t.job ≠ .announce rids := fun rids hj => by
    rw [hj] at hq
    cases hq
  have hr := retasked hm
  generalize hts : g.tasks = ts at hr
  cases hr with
  | gone =>
    left
    rw [Lull, hts]
    exact hrest
  | parked hgate =>
    left
    have hlast := rests_at hj hm fun q hq => (hgate q hq).1
    rw [Lull, hts]
    exact List.forall_mem_append.mpr ⟨hrest, List.forall_mem_singleton.mpr hlast⟩
  | resumed =>
    refine .inr fun t' k hm' => ?_
    -- it comes before all others, and can go on
    obtain ⟨k', hk⟩ := move?_of_ready (h := g) (t := { id := t.id, job := t.job }) hq rfl
    rw [mover?, hts, List.findSome?_cons, hk] at hm'
    cases hm'
    have hothers : ∀ v, v ∈ g.others t.id ↔ v ∈ h.others t.id := fun v => by
      rw [Owned.mem_others, hts, List.mem_cons]
      constructor
      · rintro ⟨rfl | hv, hne⟩
        · exact absurd rfl hne
        · exact hv
      · exact fun hv => ⟨.inr hv, (Owned.mem_others.mp hv).2⟩
    exact ⟨⟨q, hq⟩, fun v hv => (hrest v ((hothers v).mp hv)).move hk, u, (hothers u).mpr hu, hh⟩
  | greeting hj' | started hj' => exact absurd hj' (hj _)

/-- All tasks rest, or whoever goes on next reads while another read waits. -/
def Attended (h : Hub) : Prop :=
  h.Lull ∨ h.Covered

theorem Attended.next (ha : h.Attended) (hm : h.mover? = some (t, g)) : g.Attended := by
  obtain ⟨ht, hmove⟩ := of_mover? hm
  rcases ha with hl | hc
  · exact .inl (hl.move ht hmove)
  · exact (hc t g hm).next hmove

/-- Who reads finds the receiver there. -/
theorem Attended.finds (ha : h.Attended) (hm : h.mover? = some (t, g)) :
    (Change.mk (.move t) h g).FindsReceiver := fun hr => by
  obtain ⟨-, q, hq, -⟩ := readsMedia_iff.mp hr
  rcases ha with hl | hc
  · have ht := (of_mover? hm).1
    exact isAlive_of_holdsReceiver ht ((hl t ht).holds hq)
  · obtain ⟨u, hu, hh⟩ := (hc t g hm).other
    exact isAlive_of_holdsReceiver (Owned.mem_others.mp hu).1 hh

/-- All that read while a hub settles find the receiver there. -/
theorem Attended.settle (ha : h.Attended) : ∀ x ∈ h.settleChanges, x.FindsReceiver := by
  refine (settle_keeps (P := fun h past => h.Attended ∧ ∀ x ∈ past, x.FindsReceiver)
    (fun h past t g hp hm => ⟨hp.1.next hm, fun x hx => ?_⟩) ⟨ha, fun x hx => by cases hx⟩).2
  rcases List.mem_append.mp hx with hx | hx
  · exact hp.2 x hx
  · rw [List.mem_singleton.mp hx]
    exact hp.1.finds hm

/-- All that read while time passes find the receiver there, if all rest at first. -/
theorem Lull.ticks (hl : h.Lull) (n : Nat) : ∀ x ∈ ticksChanges n h, x.FindsReceiver := by
  induction n generalizing h with
  | zero => exact fun x hx => by cases hx
  | succ n ih =>
    have hlater : Lull { h with clock := h.clock + 1 } := hl.congr rfl (fun _ => id) fun _ _ => id
    intro x hx
    rcases List.mem_append.mp hx with hx | hx
    · exact Attended.settle (.inl hlater) x hx
    · exact ih (h := h.tick) (fun u => rests_of_quiet (step?_settle _)) x hx

/-! ## Commands that begin to read -/

/-- Where all tasks wait and one of them reads, a new task that reads is covered. -/
theorem covered_spawn (hq : h.step? = none) (hd : h.Tidy) (hu : u ∈ h.tasks) (hh : u.holdsReceiver = true)
    {p : TokenPool} (hp : p.cancelled = h.tokens.cancelled) {job : Job} (hj : job.query? = some q) :
    (spawn { h with tokens := p } job).Covered := by
  intro t g hm
  obtain ⟨ht, hmove⟩ := of_mover? hm
  have quiet : ∀ v ∈ h.tasks, (spawn { h with tokens := p } job).move? v = none := fun v hv => by
    have hdue : ∀ time, deadline? v = some time → h.clock < time := fun _ => lt_deadline hq hd hv
    refine move?_still hv (List.mem_append_left _ hv) rfl rfl (fun k _ => ?_) hdue
      (List.findSome?_eq_none_iff.mp hq v hv)
    simp only [isCancelled, TokenPool.isCancelled, spawn, hp]
  obtain rfl : t = { id := h.nextTask, job } := by
    rcases List.mem_append.mp ht with ht | ht
    · rw [quiet t ht] at hmove
      cases hmove
    · exact List.mem_singleton.mp ht
  refine ⟨⟨q, hj⟩, fun v hv => ?_, u, ?_, hh⟩
  · obtain ⟨hv, hne⟩ := Owned.mem_others.mp hv
    rcases List.mem_append.mp hv with hv | hv
    · exact ((rests_of_quiet hq hv).congr (g := spawn { h with tokens := p } job) rfl fun _ _ => id).move hmove
    · exact absurd (congrArg Task.id (List.mem_singleton.mp hv)) hne
  · exact Owned.mem_others.mpr ⟨List.mem_append_left _ hu, Nat.ne_of_lt (hd.next u hu)⟩

/-- Of two tasks that wait and read one is not the one of a number. -/
theorem exists_other (hids : (h.tasks.map Task.id).Nodup) (hw : 2 ≤ h.tasks.countP Task.holdsReceiver) (id : Nat) :
    ∃ u ∈ h.others id, u.holdsReceiver = true := by
  rw [List.countP_eq_length_filter] at hw
  obtain ⟨v, w, rest, he⟩ : ∃ v w rest, h.tasks.filter Task.holdsReceiver = v :: w :: rest := by
    match h.tasks.filter Task.holdsReceiver, hw with
    | v :: w :: rest, _ => exact ⟨v, w, rest, rfl⟩
  have holds : ∀ u ∈ v :: w :: rest, u ∈ h.tasks ∧ u.holdsReceiver = true := fun u hu =>
    List.mem_filter.mp (he ▸ hu)
  have hne : v.id ≠ w.id := by
    have hn := hids.sublist ((List.filter_sublist (p := Task.holdsReceiver)).map Task.id)
    rw [he, List.map_cons, List.map_cons, List.nodup_cons] at hn
    exact fun h => hn.1 (h ▸ List.mem_cons_self)
  obtain ⟨hv, hvh⟩ := holds v List.mem_cons_self
  obtain ⟨hw, hwh⟩ := holds w (List.mem_cons_of_mem _ List.mem_cons_self)
  by_cases hid : v.id = id
  · exact ⟨w, Owned.mem_others.mpr ⟨hw, fun h => hne (hid.trans h.symm)⟩, hwh⟩
  · exact ⟨v, Owned.mem_others.mpr ⟨hv, hid⟩, hvh⟩

/-- Only who stands at a stream can go on when a datagram comes to it. -/
theorem standing_of_push (hq : h.step? = none) (hd : h.Tidy) {d : Datagram} (ht : t ∈ h.tasks)
    (hm : move? { h with transport := (h.transport.push ch ssrc d).1 } t = some g) :
    ∃ q, t.job.query? = some q ∧ h.receiver.standing q.source = .atStream ch ssrc := by
  by_contra hn
  have hstill := still_of_stream hq hd ht (v := (h.transport.push ch ssrc d).1) fun q ch' ssrc' hq' hs => by
    refine h.transport.stream_push_of_ne ch ssrc d ?_
    rintro ⟨rfl, rfl⟩
    exact hn ⟨q, hq', hs⟩
  rw [hm] at hstill
  cases hstill

/-- Who waited at a stream, and goes on when a datagram has come, leaves nothing there. -/
theorem queued_of_push {d : Datagram} {gate : Gate} (hn : h.quits t = false) (hq : t.job.query? = some q)
    (hg : (h.read q).2.gate? = some gate) (ha : h.isAlive = true)
    (hs : h.receiver.standing q.source = .atStream ch ssrc)
    (hm : move? { h with transport := (h.transport.push ch ssrc d).1 } t = some g) :
    (g.transport.stream ch ssrc).queued = [] := by
  obtain ⟨he, hc⟩ := stream_of_gate hg hs
  obtain ⟨hopen, hshort⟩ := h.transport.stream_push_of_open ch ssrc hc he d
  rcases stream_move hm ch ssrc with ⟨-, hlen⟩ | ⟨hnt, hsame⟩
  · have hlen : ((h.transport.push ch ssrc d).1.stream ch ssrc).queued.length
        = (g.transport.stream ch ssrc).queued.length + 1 := hlen
    exact List.length_eq_zero_iff.mp (by omega)
  · rw [hsame]
    by_contra hne
    have htarget : target? { h with transport := (h.transport.push ch ssrc d).1 } q
        = some (ch, ssrc, q.buffer h.receiver.mtu) := target?_eq_some_iff.mpr ⟨fun _ => ha, hs, rfl⟩
    exact hnt ⟨hn, standsAt_iff.mpr ⟨q, _, hq, htarget⟩, hopen, hne⟩

/-- Where all tasks wait and two of them read, whoever reads a datagram that comes is covered. -/
theorem covered_push (hq : h.step? = none) (hd : h.Tidy) (hids : (h.tasks.map Task.id).Nodup)
    (hw : 2 ≤ h.tasks.countP Task.holdsReceiver) (ch : Channel) (ssrc : Ssrc) (d : Datagram) :
    Covered { h with transport := (h.transport.push ch ssrc d).1 } := by
  intro t g hm
  obtain ⟨ht, hmove⟩ := of_mover? hm
  obtain ⟨q, hq', hs⟩ := standing_of_push hq hd ht hmove
  have hmt : h.move? t = none := List.findSome?_eq_none_iff.mp hq t ht
  obtain ⟨hn, gate, hgate, -⟩ := gate_of_waiting hq' hmt
  have ha := isAlive_of_holdsReceiver ht (holdsReceiver_of_waiting hq' hmt)
  refine ⟨⟨q, hq'⟩, fun v hv => ?_, exists_other hids hw t.id⟩
  have hr := rests_of_quiet hq (Owned.mem_others.mp hv).1
  refine ⟨hr.announced, hr.waits, fun q' ch' ssrc' hqv hsv => ?_⟩
  by_cases he : ch' = ch ∧ ssrc' = ssrc
  · -- it has taken the only datagram that there was
    obtain ⟨rfl, rfl⟩ := he
    exact queued_of_push hn hq' hgate ha hs hmove
  · refine queued_move hmove ?_
    rw [h.transport.stream_push_of_ne ch ssrc d he]
    exact hr.dry q' ch' ssrc' hqv ((move_of_move? hmove).framed.receiver ▸ hsv)

end Hub

namespace Session

variable {s : Session} {c : Command} {g : Hub} {names : Table String Token}

/-- Where two reads wait and the application has let go of the receiver, a command begins one read at most. -/
theorem Deed.attended (hh : s.hub.held = false) (hq : s.hub.step? = none) (hd : s.hub.Tidy)
    (hids : (s.hub.tasks.map Task.id).Nodup) (hw : 2 ≤ s.hub.tasks.countP Task.holdsReceiver)
    (d : s.Deed c g names) : g.Attended := by
  have lull : s.hub.Lull := fun u => Hub.rests_of_quiet hq
  obtain ⟨u, hu, hhu⟩ := List.countP_pos_iff.mp (Nat.lt_of_lt_of_le Nat.zero_lt_two hw)
  -- nothing but a push brings a datagram
  have same : ∀ {k : Hub}, k.receiver = s.hub.receiver → k.tasks = s.hub.tasks → k.transport = s.hub.transport →
      k.Attended := fun hr ht he => .inl (lull.congr hr (fun _ hu => ht ▸ hu) fun _ _ h => he ▸ h)
  have emptied : ∀ {t : QueueTransport},
      (∀ ch ssrc, (s.hub.transport.stream ch ssrc).queued = [] → (t.stream ch ssrc).queued = []) →
      Hub.Attended { s.hub with transport := t } := fun ht => .inl (lull.congr rfl (fun _ => id) ht)
  have untouched : ∀ {t : QueueTransport}, s.hub.transport.Untouched t →
      Hub.Attended { s.hub with transport := t } := fun ht => emptied fun _ _ he => ht.queued.trans he
  cases d with
  | receive hh' | receiveFailed hh' | bind hh' | stop hh' | addRelay hh' | startRelay _ hh' =>
    rw [hh] at hh'
    cases hh'
  | read q =>
    cases ht : s.hub.target? q with
    | none =>
      rw [(Hub.read_of_no_target ht).1]
      exact same rfl rfl rfl
    | some x =>
      rw [Hub.read_of_target ht]
      exact emptied fun _ _ => s.hub.transport.queued_readStream _ _ _
  | spawnRead name q => exact .inr (Hub.covered_spawn hq hd hu hhu rfl rfl)
  | startPump => exact .inr (Hub.covered_spawn hq hd hu hhu (p := s.hub.tokens.fresh.1) rfl rfl)
  | startScheduler =>
    refine .inl fun v hv => ?_
    rcases List.mem_append.mp hv with hv | hv
    · exact (lull v hv).congr rfl fun _ _ => id
    · rw [List.mem_singleton.mp hv]
      exact Hub.rests_of_no_query (fun _ => Job.noConfusion) rfl
  | abort => exact .inl (lull.congr rfl (fun _ hu => (Owned.mem_others.mp hu).1) fun _ _ => id)
  | push ch ssrc d => exact .inr (Hub.covered_push hq hd hids hw ch ssrc d)
  | refuseOpen => exact untouched (QueueTransport.untouched_refuseOpen _ _ _)
  | refuseClose => exact untouched (QueueTransport.untouched_refuseClose _ _ _ _)
  | close => exact untouched (QueueTransport.untouched_close _ _ _)
  | readStream => exact emptied fun _ _ => s.hub.transport.queued_readStream _ _ _
  | _ => exact same rfl rfl rfl

/-- In a step that begins when two reads wait, and the application has let go of the receiver, each read of media finds
the receiver there. -/
theorem findsReceiver_changes (hh : s.hub.held = false) (hq : s.hub.step? = none) (hd : s.hub.Tidy)
    (hids : (s.hub.tasks.map Task.id).Nodup) (hw : 2 ≤ s.hub.tasks.countP Task.holdsReceiver) (c : Command) :
    ∀ x ∈ s.changes c, x.FindsReceiver := by
  have lull : s.hub.Lull := fun u => Hub.rests_of_quiet hq
  obtain ⟨u, hu, hhu⟩ := List.countP_pos_iff.mp (Nat.lt_of_lt_of_le Nat.zero_lt_two hw)
  intro x hx
  by_cases hc : ∃ n, c = .advance n
  · obtain ⟨n, rfl⟩ := hc
    obtain ⟨ht, hticks⟩ := Hub.advance_eq_ticks hq hd (nanosecondsPerMillisecond * n)
    rcases List.mem_append.mp hx with hx | hx
    · rw [performChanges, hticks] at hx
      exact lull.ticks _ x hx
    · have hquiet : (s.hub.advance (nanosecondsPerMillisecond * n)).step? = none := ht ▸ Hub.step?_ticks hq _
      rw [perform, setHub, (Hub.settle_of_quiet hquiet).2] at hx
      cases hx
  · have hc : ∀ n, c ≠ .advance n := fun n h => hc ⟨n, h⟩
    rw [changes, performChanges_of_ne hc] at hx
    rcases List.mem_append.mp hx with hx | hx
    · rw [List.mem_singleton.mp hx]
      exact fun _ => Hub.isAlive_of_holdsReceiver hu hhu
    · exact ((deed_of_perform hc).attended hh hq hd hids hw).settle x hx

end Session

end MediaRelay
