import MediaRelay.Proofs.Conservation
import MediaRelay.Proofs.Gating

/-!
# Readers take turns

- `Hub.waiting` lists the tasks that wait for a datagram of a stream, in the order in which they began to wait: who
  begins to wait comes last, and nobody changes places (`waiting_move`, `waiting_perform`);
- `Hub.Serving`: when a stream has something for those that wait for it, whoever stands at the stream before one of
  them waits as well; so the reader that is served is the first that waits (`turn_move`);
- in a hub that has settled nobody stands at a stream that has something for its readers (`idle_of_settled`).
-/

namespace MediaRelay

/-! ## Who waits for a stream -/

namespace Hub

variable {h g : Hub} {t u : Task} {q : Read} {ch : Channel} {ssrc : Ssrc} {n : Nat}

/-- Whether a task reads a stream as soon as it goes on. -/
def standsAt (h : Hub) (ch : Channel) (ssrc : Ssrc) (t : Task) : Bool :=
  match t.job.query? with
  | some q => (h.target? q).any fun x => x.1 = ch && x.2.1 = ssrc
  | none => false

/-- Whether a task waits for a datagram of a stream. -/
def waitsOn (h : Hub) (ch : Channel) (ssrc : Ssrc) (t : Task) : Bool :=
  t.stage = .waiting .datagram && h.standsAt ch ssrc t

/-- The tasks that wait for a datagram of a stream. -/
def waiting (h : Hub) (ch : Channel) (ssrc : Ssrc) : List Nat :=
  (h.tasks.filter (h.waitsOn ch ssrc)).map Task.id

theorem standsAt_iff :
    h.standsAt ch ssrc t = true ↔ ∃ q n, t.job.query? = some q ∧ h.target? q = some (ch, ssrc, n) := by
  unfold standsAt
  cases hq : t.job.query? with
  | none => simp
  | some q =>
    cases ht : h.target? q with
    | none => simp [ht]
    | some x =>
      obtain ⟨ch', ssrc', n⟩ := x
      simp [ht]

theorem waitsOn_iff :
    h.waitsOn ch ssrc t = true ↔ t.stage = .waiting .datagram ∧ h.standsAt ch ssrc t = true := by
  simp [waitsOn]

theorem holdsReceiver_of_waitsOn (hw : h.waitsOn ch ssrc t = true) : t.holdsReceiver = true := by
  obtain ⟨hs, ht⟩ := waitsOn_iff.mp hw
  obtain ⟨q, n, hq, -⟩ := standsAt_iff.mp ht
  have hj : t.job.isReading = true := (Job.isReading_iff _).mpr ⟨q, hq⟩
  simp [Task.holdsReceiver, hj, hs]

/-- What a read reads depends on the receiver alone. -/
theorem target?_congr (hr : g.receiver = h.receiver) (ha : g.isAlive = true) (hb : h.isAlive = true) (q : Read) :
    g.target? q = h.target? q := by
  unfold target?
  rw [hr, ha, hb]

/-- Whether a stream has something for those who read it: a datagram, or that it was closed. -/
def Served (h : Hub) (ch : Channel) (ssrc : Ssrc) : Prop :=
  (h.transport.stream ch ssrc).queued ≠ [] ∨ (h.transport.stream ch ssrc).closed = true

/-- A read of a stream that has something for it does not wait, and one that gives data takes a datagram. -/
theorem read_of_served (htg : h.target? q = some (ch, ssrc, n)) :
    (h.Served ch ssrc → (h.read q).2.gate? = none)
      ∧ ∀ d, (h.read q).2 = .done (.ok d) →
        (h.transport.stream ch ssrc).closed = false ∧ (h.transport.stream ch ssrc).queued ≠ [] := by
  have hr : (h.read q).2 = q.progress ((h.transport.stream ch ssrc).read n).2 := by
    rw [read_of_target htg]
    rfl
  rw [hr]
  rcases (h.transport.stream ch ssrc).read_cases n with ⟨-, he⟩ | ⟨hc, hq, he⟩ | ⟨d, hc, hd, he⟩
  · rw [he]
    exact ⟨fun _ => rfl, by rintro d ⟨⟩⟩
  · rw [he]
    refine ⟨?_, by rintro d ⟨⟩⟩
    rintro (hs | hs)
    · exact absurd hq hs
    · rw [hc] at hs
      cases hs
  · have hne : (h.transport.stream ch ssrc).queued ≠ [] := by
      have := (List.getElem?_eq_some_iff.mp hd).1
      rw [QueueStream.queued, ne_eq, List.drop_eq_nil_iff]
      omega
    refine ⟨fun _ => ?_, fun _ _ => ⟨hc, hne⟩⟩
    rw [he]
    split <;> rfl

/-- A task that has something to read at its stream can go on. -/
theorem move?_of_standsAt (ht : h.standsAt ch ssrc t = true) (hs : h.Served ch ssrc) : h.move? t ≠ none := by
  obtain ⟨q, n, hq, htg⟩ := standsAt_iff.mp ht
  intro hm
  obtain ⟨-, gate, hgate, -⟩ := gate_of_waiting hq hm
  rw [(read_of_served htg).1 hs] at hgate
  cases hgate

/-- A task that waits goes on waiting if the stream at which it stands is as it was. -/
theorem still_of_stream (hs : h.step? = none) (hd : h.Tidy) (ht : t ∈ h.tasks) {v : QueueTransport}
    (hv : ∀ q ch ssrc, t.job.query? = some q → h.receiver.standing q.source = .atStream ch ssrc →
      v.stream ch ssrc = h.transport.stream ch ssrc) : move? { h with transport := v } t = none := by
  have hm : h.move? t = none := List.findSome?_eq_none_iff.mp hs t ht
  have hdue : ∀ time, deadline? t = some time → h.clock < time := fun _ => lt_deadline hs hd ht
  refine move?_still_of_read (h := h) (fun q hq => ?_) (fun _ _ => rfl) hdue hm
  have ha := isAlive_of_holdsReceiver ht (holdsReceiver_of_waiting hq hm)
  have ha' : isAlive { h with transport := v } = true := ha
  rw [read_of_alive ha, read_of_alive ha']
  cases hst : h.receiver.standing q.source with
  | atStream ch ssrc =>
    rw [Receiver.read_eq_of_atStream hst, Receiver.read_eq_of_atStream hst]
    exact congrArg (fun s : QueueStream => q.progress (s.read (q.buffer h.receiver.mtu)).2) (hv q ch ssrc hq hst)
  | _ => simp only [Receiver.read, hst]

theorem standing_of_gate_layer (hg : (h.read q).2.gate? = some .layer) :
    h.receiver.standing q.source = .awaitsLayer := by
  unfold Hub.read at hg
  split at hg
  · cases hg
  · have hg : (h.receiver.read h.transport q).2.gate? = some .layer := hg
    cases hs : h.receiver.standing q.source with
    | awaitsLayer => rfl
    | atStream ch ssrc =>
      rw [Receiver.read_eq_of_atStream hs] at hg
      have hw := Read.progress_gate? hg
      rw [hw] at hg
      cases hg
    | _ =>
      simp only [Receiver.read, hs] at hg
      cases hg

/-- In a hub that has settled a task that stands at a stream waits there, and there is nothing for it. -/
theorem idle_of_settled (hs : h.step? = none) (ha : h.AtGates) (hu : u ∈ h.tasks)
    (ht : h.standsAt ch ssrc u = true) :
    (h.transport.stream ch ssrc).closed = false ∧ (h.transport.stream ch ssrc).queued = []
      ∧ u.stage = .waiting .datagram := by
  have hm : h.move? u = none := List.findSome?_eq_none_iff.mp hs u hu
  have hn : ¬ h.Served ch ssrc := fun hc => move?_of_standsAt ht hc hm
  obtain ⟨hq, hc⟩ := not_or.mp hn
  refine ⟨by simpa using hc, not_not.mp hq, ?_⟩
  obtain ⟨q, n, hq, htg⟩ := standsAt_iff.mp ht
  obtain ⟨-, gate, hgate, hst⟩ := ha.waits hu hq hm
  rw [read_of_target htg] at hgate
  have hw := Read.progress_gate? hgate
  rw [hw] at hgate
  cases hgate
  exact hst

/-- In a hub that has settled nobody waits for a stream that has something for its readers. -/
theorem waiting_of_settled (hs : h.step? = none) (hx : h.Served ch ssrc) :
    h.waiting ch ssrc = [] := by
  rw [waiting, List.map_eq_nil_iff, List.filter_eq_nil_iff]
  intro u hu hw
  exact move?_of_standsAt (waitsOn_iff.mp hw).2 hx (List.findSome?_eq_none_iff.mp hs u hu)

/-! ## Nobody changes places -/

/-- What some elements of a list have only if they have something else is a part of what has that. -/
theorem filter_sublist_filter {α : Type} {p p' : α → Bool} {l : List α} (hp : ∀ a ∈ l, p a = true → p' a = true) :
    (l.filter p).Sublist (l.filter p') := by
  have he : l.filter p = (l.filter p').filter p := by
    rw [List.filter_filter]
    refine List.filter_congr fun a ha => ?_
    cases hpa : p a with
    | false => rfl
    | true => rw [hp a ha hpa, Bool.and_self]
  rw [he]
  exact List.filter_sublist

/-- Who is ready to run does not wait. -/
theorem waitsOn_of_ready (hs : t.stage = .ready) : h.waitsOn ch ssrc t = false := by
  simp [waitsOn, hs]

theorem filter_waitsOn_of_ready {new : List Task} (hn : ∀ u ∈ new, u.stage = .ready) :
    new.filter (h.waitsOn ch ssrc) = [] :=
  List.filter_eq_nil_iff.mpr fun u hu => by simp [waitsOn_of_ready (hn u hu)]

/-- Who waits after a move has waited before, or has just begun to wait behind all others. -/
theorem waiting_move (hm : h.move? t = some g) :
    (g.waiting ch ssrc).Sublist (h.waiting ch ssrc)
      ∨ h.waitsOn ch ssrc t = false ∧ (g.waiting ch ssrc).Sublist (h.waiting ch ssrc ++ [t.id]) := by
  have m := move_of_move? hm
  -- who still waits has waited before
  have old : ∀ ts : List Task, ts.Sublist h.tasks → (∀ v ∈ ts, v ∈ g.tasks) →
      ((ts.filter (g.waitsOn ch ssrc)).map Task.id).Sublist (h.waiting ch ssrc) := by
    intro ts hts hg
    refine List.Sublist.map _ (.trans (filter_sublist_filter fun v hv hw => ?_) (hts.filter _))
    obtain ⟨hst, hat⟩ := waitsOn_iff.mp hw
    have hh := holdsReceiver_of_waitsOn hw
    obtain ⟨q, n, hq, htg⟩ := standsAt_iff.mp hat
    refine waitsOn_iff.mpr ⟨hst, standsAt_iff.mpr ⟨q, n, hq, ?_⟩⟩
    rwa [target?_congr m.framed.receiver (isAlive_of_holdsReceiver (hg v hv) hh)
      (isAlive_of_holdsReceiver (hts.subset hv) hh)] at htg
  have hr := retasked hm
  have others := old (h.others t.id) List.filter_sublist fun v hv => hr.others hv
  unfold waiting at others ⊢
  generalize g.tasks = ts at hr
  cases hr with
  | gone => exact .inl others
  | parked hg =>
    refine .inr ⟨?_, ?_⟩
    · by_contra hw
      obtain ⟨hst, hat⟩ := waitsOn_iff.mp (by simpa using hw)
      obtain ⟨q, n, hq, htg⟩ := standsAt_iff.mp hat
      -- there is nothing that a task which waits for a datagram could begin to wait for
      obtain ⟨hgate, hrank⟩ := hg q hq
      rw [read_of_target htg] at hgate
      rw [Read.progress_gate? hgate] at hgate
      cases hgate
      rw [hst] at hrank
      exact absurd hrank (Nat.lt_irrefl _)
    · rw [List.filter_append, List.map_append]
      exact others.append (List.filter_sublist.map Task.id)
  | resumed | greeting =>
    rw [List.filter_cons_of_neg (by simp [waitsOn_of_ready])]
    exact .inl others
  | started _ hn =>
    rw [List.filter_append, filter_waitsOn_of_ready fun u hu => (hn u hu).1, List.append_nil]
    exact .inl others

end Hub

namespace Receiver

variable {r r' : Receiver Ssrc} {past past' : List Change}

/-- A read whose layer is ready stands at the layer's stream as long as the receiver is not told to stop. -/
theorem Told.standing_back (h : r.Told past) (h' : r'.Told past') (ho : r.Onward r') {s : Source} {ch : Channel}
    {ssrc : Ssrc} (hr : r.Reached s .datagram) (hs : r'.standing s = .atStream ch ssrc) :
    r.standing s = .atStream ch ssrc := by
  obtain ⟨hrec, l, hl, hready⟩ := hr
  obtain ⟨l', hl', hll⟩ := ho.layerOf? hl
  have hcl : r.closing = false := by
    cases hc : r.closing with
    | false => rfl
    | true =>
      rw [h'.standing, ← h'.closing, ho.closing hc] at hs
      cases hs
  have hmem : l ∈ r.layers := by
    cases s with
    | media rid => exact List.mem_of_find?_eq_some hl
    | control rid => exact List.mem_of_find?_eq_some hl
    | firstControl => exact List.mem_of_mem_head? hl
  have hssrc : l'.ssrc = l.ssrc :=
    hll.ssrc.elim id fun hz => absurd hz.1 ((h.accounted.sound.ready l hmem).mp hready)
  have hcl' : wasStopped past' = false := by
    cases hw : wasStopped past' with
    | false => rfl
    | true =>
      rw [h'.standing, hw] at hs
      cases hs
  rw [h'.standing, hcl', ← h'.received, ho.received hrec, hl'] at hs
  rw [h.standing, ← h.closing, hcl, ← h.received, hrec, hl]
  simpa [hready, hll.ready hready, hssrc] using hs

end Receiver

namespace Session

variable {s : Session} {past : List Change} {ch : Channel} {ssrc : Ssrc}

/-- Who waits after a command, and was there before, has waited before. -/
theorem waitsOn_back (hp : s.hub.receiver.Told past) (ha : s.hub.AtGates) {c : Command} (hc : ∀ n, c ≠ .advance n)
    {v : Task} (hv : v ∈ s.hub.tasks) (hw : (s.perform c).1.hub.waitsOn ch ssrc v = true) :
    s.hub.waitsOn ch ssrc v = true := by
  have hp' := told_perform hp hc
  have ho := ((deed_of_perform (s := s) hc).onward hp.accounted.sound).receiver
  generalize (s.perform c).1.hub = g at hp' ho hw
  obtain ⟨hst, hat⟩ := Hub.waitsOn_iff.mp hw
  obtain ⟨q, n, hq, htg⟩ := Hub.standsAt_iff.mp hat
  obtain ⟨-, hs, hn⟩ := Hub.target?_eq_some_iff.mp htg
  refine Hub.waitsOn_iff.mpr ⟨hst, Hub.standsAt_iff.mpr ⟨q, n, hq, Hub.target?_eq_some_iff.mpr ⟨fun _ => ?_, ?_, ?_⟩⟩⟩
  · exact Hub.isAlive_of_holdsReceiver hv (Hub.holdsReceiver_of_waitsOn hw)
  · exact hp.standing_back hp' ho (ha v hv q hq _ hst) hs
  · rw [hn, ho.mtu]

/-- Who waits after a command has waited before. -/
theorem waiting_perform (hp : s.hub.receiver.Told past) (ha : s.hub.AtGates) {c : Command}
    (hc : ∀ n, c ≠ .advance n) : ((s.perform c).1.hub.waiting ch ssrc).Sublist (s.hub.waiting ch ssrc) := by
  have old : ∀ v ∈ s.hub.tasks, (s.perform c).1.hub.waitsOn ch ssrc v = true → s.hub.waitsOn ch ssrc v = true :=
    fun v hv => waitsOn_back hp ha hc hv
  have d := deed_of_perform (s := s) hc
  generalize (s.perform c).1.hub = g at d old
  unfold Hub.waiting
  rcases d.retasked with ⟨-, -, id, -, -, hg⟩ | ⟨new, hg, hn⟩ <;> rw [hg]
  · refine List.Sublist.map _ (.trans (Hub.filter_sublist_filter fun v hv => old v ?_) (List.filter_sublist.filter _))
    exact (Owned.mem_others.mp hv).1
  · rw [List.filter_append, Hub.filter_waitsOn_of_ready fun u hu => (hn u hu).1, List.append_nil]
    exact List.Sublist.map _ (Hub.filter_sublist_filter old)

end Session

/-! ## Whose turn it is -/

namespace Hub

variable {h g : Hub} {t u : Task} {q : Read} {ch : Channel} {ssrc : Ssrc} {n : Nat}

/-- The stream has one datagram at most, no more readers are to be announced, and who stands at the stream before one
that waits for it waits as well. -/
structure InTurn (h : Hub) (ch : Channel) (ssrc : Ssrc) : Prop where
  short : (h.transport.stream ch ssrc).queued.length ≤ 1
  announced : ∀ t ∈ h.tasks, ∀ rids, t.job ≠ .announce rids
  ahead : h.tasks.Pairwise fun v w => h.waitsOn ch ssrc w = true → h.standsAt ch ssrc v = true →
    h.waitsOn ch ssrc v = true

/-- When a stream has something for those that wait for it they are served in turn. -/
def Serving (h : Hub) (ch : Channel) (ssrc : Ssrc) : Prop :=
  h.Served ch ssrc → (∃ u ∈ h.tasks, h.waitsOn ch ssrc u = true) → h.InTurn ch ssrc

/-- Whose turn it is does not depend on the time. -/
theorem Serving.clock (hs : h.Serving ch ssrc) (time : Nat) : ({ h with clock := time } : Hub).Serving ch ssrc := by
  intro hx hw
  obtain ⟨short, announced, ahead⟩ := hs hx hw
  exact ⟨short, announced, ahead⟩

/-- Whether a move takes a datagram of a stream. -/
def Takes (h : Hub) (t : Task) (ch : Channel) (ssrc : Ssrc) : Prop :=
  h.quits t = false ∧ h.standsAt ch ssrc t = true ∧ (h.transport.stream ch ssrc).closed = false
    ∧ (h.transport.stream ch ssrc).queued ≠ []

theorem Reads.closed {u : QueueTransport} {r : Except Error Data} (hq : Reads h q u r) (ch : Channel) (ssrc : Ssrc) :
    (u.stream ch ssrc).closed = (h.transport.stream ch ssrc).closed := by
  have read : ∀ (ch' : Channel) (ssrc' : Ssrc) (n : Nat),
      ((h.transport.readStream ch' ssrc' n).1.stream ch ssrc).closed = (h.transport.stream ch ssrc).closed := by
    intro ch' ssrc' n
    refine h.transport.forall_onStream ch' ssrc' _ (R := fun s s' => s'.closed = s.closed) (fun _ => rfl)
      (fun s => ?_) ch ssrc
    rcases s.read_cases n with ⟨-, he⟩ | ⟨-, -, he⟩ | ⟨d, -, -, he⟩ <;> rw [he]
  cases hq with
  | gone | failed => rfl
  | ended | took => exact read _ _ _

/-- No task closes a stream. -/
theorem closed_move (hm : h.move? t = some g) (ch : Channel) (ssrc : Ssrc) :
    (g.transport.stream ch ssrc).closed = (h.transport.stream ch ssrc).closed := by
  cases hq : t.job.query? with
  | none => rw [transport_of_no_query hq hm]
  | some q =>
    rcases reader_move hq hm with hn | ⟨-, ⟨r, hr, rfl⟩ | ⟨gate, -, -, rfl⟩⟩
    · obtain ⟨p, -, rfl | ⟨-, rfl⟩⟩ := move_of_quits hn hm
      · rw [(failPump_fields _ _ _ _).1]
      · rfl
    · obtain ⟨u, hu, hread⟩ := read_done (h := h) (q := q) (g := (h.read q).1) (r := r) (Prod.ext rfl hr)
      rw [transport_finish, hu]
      exact hread.closed ch ssrc
    · rfl

/-- The read of a stream that a move makes. -/
theorem streamRead?_move : (∃ n, (Change.mk (.move t) h g).streamRead? = some (ch, ssrc, n))
    ↔ h.quits t = false ∧ h.standsAt ch ssrc t = true := by
  unfold Change.streamRead?
  dsimp only
  cases hq : t.job.query? with
  | none => simp [standsAt, hq]
  | some q =>
    cases hn : h.quits t with
    | true => simp
    | false =>
      rw [standsAt_iff]
      simp [hq]

/-- A move takes the first datagram of a stream, or leaves it as it is. -/
theorem stream_move (hm : h.move? t = some g) (ch : Channel) (ssrc : Ssrc) :
    (h.Takes t ch ssrc
        ∧ (h.transport.stream ch ssrc).queued.length = (g.transport.stream ch ssrc).queued.length + 1)
      ∨ ¬ h.Takes t ch ssrc
        ∧ (g.transport.stream ch ssrc).queued = (h.transport.stream ch ssrc).queued := by
  rcases (handles_move hm).stream ch ssrc with ⟨c, d, hc, -⟩ | ⟨n, hr, ht, -⟩ | ⟨-, hr, ht⟩
  · cases hc
  · obtain ⟨hn, hst⟩ := streamRead?_move.mp ⟨n, hr⟩
    have ht : g.transport.stream ch ssrc = ((h.transport.stream ch ssrc).read n).1 := ht
    rcases (h.transport.stream ch ssrc).read_cases n with ⟨hc, he⟩ | ⟨-, hq, he⟩ | ⟨d, hc, hd, he⟩ <;>
      rw [he] at ht <;> rw [ht]
    · refine .inr ⟨?_, rfl⟩
      rintro ⟨-, -, hc', -⟩
      rw [hc] at hc'
      cases hc'
    · refine .inr ⟨?_, rfl⟩
      rintro ⟨-, -, -, hq'⟩
      exact hq' hq
    · have hlt : (h.transport.stream ch ssrc).taken < (h.transport.stream ch ssrc).accepted.length :=
        (List.getElem?_eq_some_iff.mp hd).1
      refine .inl ⟨⟨hn, hst, hc, ?_⟩, ?_⟩
      · rw [QueueStream.queued, ne_eq, List.drop_eq_nil_iff]
        omega
      · simp only [QueueStream.queued, List.length_drop]
        omega
  · refine .inr ⟨?_, ?_⟩
    · rintro ⟨hn, hst, -, -⟩
      obtain ⟨n, hr'⟩ := (streamRead?_move (g := g)).mpr ⟨hn, hst⟩
      exact hr n hr'
    · have ha : (g.transport.stream ch ssrc).accepted = (h.transport.stream ch ssrc).accepted := ht.accepted
      have htk : (g.transport.stream ch ssrc).taken = (h.transport.stream ch ssrc).taken := ht.taken
      rw [QueueStream.queued, ha, htk]
      rfl

/-- Where the receiver is there before and after, who stands at a stream stands there still. -/
theorem standsAt_congr (hr : g.receiver = h.receiver) (ha : g.isAlive = true) (hb : h.isAlive = true) :
    g.standsAt ch ssrc = h.standsAt ch ssrc := by
  funext t
  unfold standsAt
  cases t.job.query? with
  | none => rfl
  | some q => simp only [target?_congr hr ha hb]

/-- A task that has just begun to wait does not wait for a stream that has something for it. -/
theorem not_waitsOn_of_gate {gate : Gate} (hr : g.receiver = h.receiver) (hs : h.Served ch ssrc)
    (hg : ∀ q, t.job.query? = some q → (h.read q).2.gate? = some gate) : g.waitsOn ch ssrc (t.at gate) = false := by
  by_contra hw
  obtain ⟨hst, hat⟩ := waitsOn_iff.mp (by simpa using hw)
  obtain ⟨q, n, hq, htg⟩ := standsAt_iff.mp hat
  have hgate : (h.read q).2.gate? = some gate := hg q hq
  cases hst
  cases ht : h.target? q with
  | none => exact (read_of_no_target ht).2 hgate
  | some x =>
    obtain ⟨ch', ssrc', m⟩ := x
    obtain ⟨-, hstand, -⟩ := target?_eq_some_iff.mp htg
    obtain ⟨-, hstand', -⟩ := target?_eq_some_iff.mp ht
    rw [hr, hstand'] at hstand
    cases hstand
    rw [(read_of_served ht).1 hs] at hgate
    cases hgate

/-- Where no readers are to be announced, a move leaves none to be announced. -/
theorem Retasked.announced {ts : List Task} (hr : Retasked h t ts) (ht : t ∈ h.tasks)
    (hq : ∀ u ∈ h.tasks, ∀ rids, u.job ≠ .announce rids) : ∀ u ∈ ts, ∀ rids, u.job ≠ .announce rids := by
  have quiet : ∀ u ∈ h.others t.id, ∀ rids, u.job ≠ .announce rids := fun u hu => hq u (Owned.mem_others.mp hu).1
  intro u hu
  cases hr with
  | gone => exact quiet u hu
  | parked =>
    rcases List.mem_append.mp hu with hu | hu
    · exact quiet u hu
    · rw [List.mem_singleton.mp hu]
      exact hq t ht
  | resumed =>
    rcases List.mem_cons.mp hu with rfl | hu
    · exact hq t ht
    · exact quiet u hu
  | greeting hj | started hj => exact absurd hj (hq t ht _)

/-- A move that takes nothing from a stream has nobody wait for it behind one that only stands there. -/
theorem InTurn.retasked {ts : List Task} (it : h.InTurn ch ssrc) (hr : Retasked h t ts) (ht : t ∈ h.tasks)
    (hx : h.Served ch ssrc) (hnt : ¬ h.Takes t ch ssrc) :
    ts.Pairwise fun v w => h.waitsOn ch ssrc w = true → h.standsAt ch ssrc v = true → h.waitsOn ch ssrc v = true := by
  have others : (h.others t.id).Pairwise fun v w =>
      h.waitsOn ch ssrc w = true → h.standsAt ch ssrc v = true → h.waitsOn ch ssrc v = true :=
    it.ahead.sublist List.filter_sublist
  cases hr with
  | gone => exact others
  | parked hgate =>
    have hlast := not_waitsOn_of_gate rfl hx fun q hq => (hgate q hq).1
    refine List.pairwise_append.mpr ⟨others, List.pairwise_singleton _ _, fun v _ w hw hwt => ?_⟩
    rw [List.mem_singleton.mp hw, hlast] at hwt
    cases hwt
  | resumed hn hdata =>
    -- who goes on before all others has taken a datagram, so from another stream
    refine List.pairwise_cons.mpr ⟨fun w _ _ hst => absurd ?_ hnt, others⟩
    obtain ⟨q, n, hq, htg⟩ := standsAt_iff.mp hst
    exact ⟨hn, standsAt_iff.mpr ⟨q, n, hq, htg⟩, (read_of_served htg).2 _ (hdata q hq)⟩
  | greeting hj | started hj => exact absurd hj (it.announced t ht _)

/-- Moves serve those that wait in turn. -/
theorem Serving.move (hs : h.Serving ch ssrc) (ht : t ∈ h.tasks) (hm : h.move? t = some g) : g.Serving ch ssrc := by
  have hrec : g.receiver = h.receiver := (move_of_move? hm).framed.receiver
  have hr := retasked hm
  have hc := closed_move hm ch ssrc
  rintro hx ⟨u, hu, hw⟩
  have ha : g.isAlive = true := isAlive_of_holdsReceiver hu (holdsReceiver_of_waitsOn hw)
  -- who waits has not moved, and has waited before
  have other (hb : h.Served ch ssrc) : u ∈ h.others t.id := by
    rcases hr.mem hu with hu | hu | ⟨gate, rfl, hgate⟩
    · exact hu
    · rw [waitsOn_of_ready hu] at hw
      cases hw
    · rw [not_waitsOn_of_gate hrec hb hgate] at hw
      cases hw
  have turn (hb : h.Served ch ssrc) : h.isAlive = true ∧ h.InTurn ch ssrc := by
    have hu := (Owned.mem_others.mp (other hb)).1
    have hal := isAlive_of_holdsReceiver hu (holdsReceiver_of_waitsOn hw)
    refine ⟨hal, hs hb ⟨u, hu, ?_⟩⟩
    rwa [waitsOn, standsAt_congr hrec ha hal] at hw
  rcases stream_move hm ch ssrc with ⟨⟨hn, hst, hopen, hne⟩, hlen⟩ | ⟨hnt, hq⟩
  · -- somebody took the one datagram that there was
    have hshort := (turn (.inl hne)).2.short
    rcases hx with hx | hx
    · have := List.length_pos_iff.mpr hx
      omega
    · rw [hc, hopen] at hx
      cases hx
  · have hx : h.Served ch ssrc := by rwa [Served, hq, hc] at hx
    obtain ⟨hal, it⟩ := turn hx
    have hat : g.standsAt ch ssrc = h.standsAt ch ssrc := standsAt_congr hrec ha hal
    have hwait : g.waitsOn ch ssrc = h.waitsOn ch ssrc := funext fun v => by rw [waitsOn, waitsOn, hat]
    refine ⟨hq ▸ it.short, hr.announced ht it.announced, ?_⟩
    rw [hat, hwait]
    exact it.retasked hr ht hx hnt

/-- The first task that can go on, of those that read a stream that has something for them, is the first that waits for
it, if any does. -/
theorem turn_move (hs : h.Serving ch ssrc) (hm : h.mover? = some (t, g)) (hx : h.Served ch ssrc)
    (ht : h.standsAt ch ssrc t = true) :
    (h.waiting ch ssrc).head? = none ∨ (h.waiting ch ssrc).head? = some t.id := by
  obtain ⟨pre, u, post, htasks, hu, hpre⟩ := List.findSome?_eq_some_iff.mp hm
  have hut : u = t := by
    cases hmu : h.move? u with
    | none =>
      rw [hmu] at hu
      cases hu
    | some k =>
      rw [hmu] at hu
      cases hu
      rfl
  subst hut
  have hnone : pre.filter (h.waitsOn ch ssrc) = [] := by
    refine List.filter_eq_nil_iff.mpr fun v hv hw => ?_
    have hmv := hpre v hv
    rw [Option.map_eq_none_iff] at hmv
    exact move?_of_standsAt (waitsOn_iff.mp (by simpa using hw)).2 hx hmv
  have hw : h.waiting ch ssrc = ((u :: post).filter (h.waitsOn ch ssrc)).map Task.id := by
    rw [waiting, htasks, List.filter_append, hnone, List.nil_append]
  cases hwu : h.waitsOn ch ssrc u with
  | true =>
    rw [hw, List.filter_cons_of_pos hwu]
    exact .inr rfl
  | false =>
    left
    rw [hw, List.filter_cons_of_neg (by simp [hwu]), List.head?_eq_none_iff, List.map_eq_nil_iff,
      List.filter_eq_nil_iff]
    intro v hv hwv
    -- whoever waits behind it would have it wait as well
    have hvt : v ∈ h.tasks := by
      rw [htasks]
      exact List.mem_append_right _ (List.mem_cons_of_mem _ hv)
    have ha := (hs hx ⟨v, hvt, by simpa using hwv⟩).ahead
    rw [htasks] at ha
    have := (List.pairwise_cons.mp (List.pairwise_append.mp ha).2.1).1 v hv (by simpa using hwv) ht
    rw [hwu] at this
    cases this

end Hub

/-! ## Commands in hubs that have settled -/

/-- A pair of streams that could be opened is as it was. -/
theorem stream_openPair {t u : QueueTransport} {ssrc m c : Ssrc} (h : Receiver.openPair t ssrc = (u, .ok (m, c)))
    (ch : Channel) (ssrc' : Ssrc) : u.stream ch ssrc' = t.stream ch ssrc' := by
  simp only [Receiver.openPair, Transport.openStream] at h
  split at h
  · cases h
  · next t₁ _ ho =>
    split at h
    · next t₂ _ ho' =>
      cases h
      have h₁ : t₁ = (t.openStream .media ssrc).1 := by rw [ho]
      have h₂ : u = (t₁.openStream .control ssrc).1 := by rw [ho']
      rw [h₂, QueueTransport.stream_openStream, h₁, QueueTransport.stream_openStream]
    · cases h

theorem Change.length_pushed (x : Change) (ch : Channel) (ssrc : Ssrc) : (x.pushed ch ssrc).length ≤ 1 := by
  unfold Change.pushed
  split
  · split
    · split <;> simp
    · simp
  · simp

namespace Session

open Receiver

variable {s : Session} {past : List Change} {ch : Channel} {ssrc : Ssrc} {c : Command} {g : Hub}
  {names : Table String Token}

/-- Only a receiver that has not received yet gets a track to announce. -/
theorem Deed.announces (hs : s.hub.receiver.Sound) (d : s.Deed c g names) (hr : s.hub.receiver.received = true)
    {u : Task} (hu : u ∈ g.tasks) {rids : List String} (hj : u.job = .announce rids) : u ∈ s.hub.tasks := by
  have spawn : ∀ (k : Hub) (job : Job), (∀ rids, job ≠ .announce rids) → u ∈ (k.spawn job).tasks → u ∈ k.tasks := by
    intro k job hjob hu
    rcases List.mem_append.mp hu with hu | hu
    · exact hu
    · rw [List.mem_singleton.mp hu] at hj
      exact absurd hj (hjob _)
  cases d with
  | spawnRead | startPump | startScheduler => exact spawn _ _ (by simp) hu
  | abort => exact (Owned.mem_others.mp hu).1
  | read q =>
    obtain ⟨k, hk, -⟩ := s.hub.read_transport q
    rw [hk] at hu
    exact hu
  | receive _ hok =>
    -- it has received already
    rcases s.hub.receiver.receive_cases s.hub.transport _ with ⟨e, -, he⟩ | ⟨k, e, -, he⟩ | ⟨k, ls, hn, -, -⟩
    · rw [he] at hok
      cases hok
    · rw [he] at hok
      cases hok
    · have := (of_refuseReceive hn).2.2.2
      rw [hs.attempted hr] at this
      cases this
  | startRelay =>
    refine Hub.startRelay_keeps (P := fun k => u ∈ k.tasks → u ∈ s.hub.tasks) id id (fun k r rid hk => ?_) _ hu
    unfold Hub.startLayer
    dsimp only
    split
    · exact fun hu => hk (spawn _ _ (by simp) (spawn _ _ (by simp) hu))
    · exact fun hu => hk (spawn _ _ (by simp) hu)
  | _ => exact hu

/-- A read whose layer was waited for can only go on because the layer was bound, and that touches no stream. -/
theorem stream_of_bound (hp : s.hub.receiver.Told past) (hr : s.hub.receiver.received = true)
    (hc : ∀ n, c ≠ .advance n) {src : Source} (hs : s.hub.receiver.standing src = .awaitsLayer) {ch' : Channel}
    {ssrc' : Ssrc} (hs' : (s.perform c).1.hub.receiver.standing src = .atStream ch' ssrc') :
    (s.perform c).1.hub.transport.stream ch ssrc = s.hub.transport.stream ch ssrc := by
  have same : (s.perform c).1.hub.receiver = s.hub.receiver → False := fun he => by
    rw [he, hs] at hs'
    cases hs'
  rcases (deed_of_perform (s := s) hc).receiver_cases with ⟨he, -⟩ | ⟨es, rfl, he⟩ | ⟨rid, k, rfl, he⟩ | ⟨rfl, -, he⟩
  · exact (same he).elim
  · rcases s.hub.receiver.receive_cases s.hub.transport es with ⟨e, -, hx⟩ | ⟨u, e, hn, -⟩ | ⟨u, ls, hn, -, -⟩
    · exact (same (by rw [he, hx])).elim
    all_goals
      have := (of_refuseReceive hn).2.2.2
      rw [hp.accounted.sound.attempted hr] at this
      cases this
  · rcases s.hub.receiver.bind_cases s.hub.transport rid k with ⟨e, -, hx⟩ | ⟨u, e, -, -, hx⟩ | ⟨u, m, k', -, ho, hx⟩
    · exact (same (by rw [he, hx])).elim
    · exact (same (by rw [he, hx])).elim
    · cases hh : s.hub.held with
      | false => rw [perform_of_not_held hh rfl]
      | true =>
        rw [perform_of_held hh]
        simp only [performHeld, setHub, hx]
        exact stream_openPair ho ch ssrc
  · by_cases hph : s.hub.receiver.phase = .stopped
    · exact (same (by rw [he, stop_of_stopped hph])).elim
    · rw [he, Receiver.standing, if_pos (stop_fields hph _).2.1] at hs'
      cases hs'

/-- If a command gives an empty stream something, and all tasks waited before, then who stands at the stream waits for
it: nobody has come to stand there just now. -/
theorem waitsOn_of_standsAt (hq : s.hub.step? = none) (hp : s.hub.receiver.Told past) (ha : s.hub.AtGates)
    (hr : s.hub.receiver.received = true) (hc : ∀ n, c ≠ .advance n)
    (hempty : ¬ s.hub.Served ch ssrc) (hserved : (s.perform c).1.hub.Served ch ssrc) {v : Task} (hv : v ∈ s.hub.tasks)
    (hvs : (s.perform c).1.hub.standsAt ch ssrc v = true) : (s.perform c).1.hub.waitsOn ch ssrc v = true := by
  refine Hub.waitsOn_iff.mpr ⟨?_, hvs⟩
  obtain ⟨q, n, hqv, htg⟩ := Hub.standsAt_iff.mp hvs
  have hm : s.hub.move? v = none := List.findSome?_eq_none_iff.mp hq v hv
  obtain ⟨hal, gate, hgate, hstage⟩ := ha.waits hv hqv hm
  cases gate with
  | datagram => exact hstage
  | deadline time => exact absurd rfl (Progress.not_deadline hgate time)
  | track =>
    -- there is a track already
    have := (Hub.reached_of_read hgate).2 .layer hr (by simp [Stage.rank])
    cases this
  | layer =>
    -- its layer has just been bound, so the stream is as it was
    have hs : (s.perform c).1.hub.transport.stream ch ssrc = s.hub.transport.stream ch ssrc :=
      stream_of_bound hp hr hc (Hub.standing_of_gate_layer hgate) (Hub.target?_eq_some_iff.mp htg).2.1
    rw [Hub.Served, hs] at hserved
    exact absurd hserved hempty

/-- A command serves those that wait in turn, if all tasks waited before. -/
theorem serving_perform (hq : s.hub.step? = none) (hp : s.hub.receiver.Told past) (ha : s.hub.AtGates)
    (hc : ∀ n, c ≠ .advance n) : (s.perform c).1.hub.Serving ch ssrc := by
  have d := deed_of_perform (s := s) hc
  have hx := handles_perform (s := s) hc
  rintro hserved ⟨u, hu, hw⟩
  have hu : u ∈ s.hub.tasks := by
    refine (d.mem_tasks hu).elim id fun hready => ?_
    rw [Hub.waitsOn_of_ready hready] at hw
    cases hw
  have hw := waitsOn_back hp ha hc hu hw
  obtain ⟨hst, hat⟩ := Hub.waitsOn_iff.mp hw
  obtain ⟨hopen, hempty, -⟩ := Hub.idle_of_settled hq ha hu hat
  have hidle : ¬ s.hub.Served ch ssrc := by simp [Hub.Served, hopen, hempty]
  obtain ⟨q, -, hqu, -⟩ := Hub.standsAt_iff.mp hat
  have hrec : s.hub.receiver.received = true := (ha u hu q hqu _ hst).1
  refine ⟨?_, ?_, ?_⟩
  · have hacc := hx.accepted ch ssrc
    have htaken := (hx.onward ch ssrc).taken
    have hpush := Change.length_pushed ⟨.command c (s.perform c).2, s.hub, (s.perform c).1.hub⟩ ch ssrc
    rw [QueueStream.queued, List.drop_eq_nil_iff] at hempty
    rw [QueueStream.queued, List.length_drop, hacc, List.length_append]
    dsimp only at htaken ⊢
    omega
  · intro v hv rids hj
    have hv := d.announces hp.accounted.sound hrec hv hj
    have hm : s.hub.move? v = none := List.findSome?_eq_none_iff.mp hq v hv
    unfold Hub.move? at hm
    rw [hj] at hm
    cases hm
  · have all : s.hub.tasks.Pairwise fun v w => (s.perform c).1.hub.waitsOn ch ssrc w = true →
        (s.perform c).1.hub.standsAt ch ssrc v = true → (s.perform c).1.hub.waitsOn ch ssrc v = true :=
      List.pairwise_of_forall_mem_list fun v hv _ _ _ => waitsOn_of_standsAt hq hp ha hrec hc hidle hserved hv
    rcases d.retasked with ⟨-, -, id, -, -, hg⟩ | ⟨new, hg, hn⟩ <;> rw [hg]
    · exact all.sublist List.filter_sublist
    · have late : ∀ w ∈ new, (s.perform c).1.hub.waitsOn ch ssrc w ≠ true :=
        fun w hw => by simp [Hub.waitsOn_of_ready (hn w hw).1]
      exact List.pairwise_append.mpr
        ⟨all, List.pairwise_of_forall_mem_list fun v _ w hw hwt => absurd hwt (late w hw),
          fun v _ w hw hwt => absurd hwt (late w hw)⟩

/-- What is known of the readers of a stream at any time. -/
structure Queued (s : Session) (past : List Change) (ch : Channel) (ssrc : Ssrc) : Prop where
  proper : s.Proper
  told : s.hub.receiver.Told past
  gates : s.hub.AtGates
  serving : s.hub.Serving ch ssrc

theorem queued_invariant (ch : Channel) (ssrc : Ssrc) :
    InvariantOf (fun h => h.step? = none) fun s past => s.Queued past ch ssrc where
  settled h := h.step?_settle
  move _ _ _ _ h hm := by
    obtain ⟨ht, hmove⟩ := Hub.of_mover? hm
    exact ⟨h.proper.move hm, told_move h.told hm, h.gates.move hmove, h.serving.move ht hmove⟩
  clock _ _ time h _ := ⟨h.proper.clock time, h.told, h.gates, h.serving.clock time⟩
  command s _ c h hq hc := by
    have d := deed_of_perform (s := s) hc
    exact ⟨h.proper.perform hc, told_perform h.told hc,
      h.gates.of_mem (d.onward h.told.accounted.sound).receiver fun u hu => d.mem_tasks hu,
      serving_perform hq h.told h.gates hc⟩
  shown _ _ h := ⟨h.proper.shown, h.told, h.gates, h.serving⟩

end Session

/-! ## The line of those that wait -/

namespace Change

variable {x : Change} {ch : Channel} {ssrc : Ssrc} {u v : Nat}

/-- The task that moves, if it is a task that makes the change. -/
def mover? (x : Change) : Option Nat :=
  match x.cause with
  | .move t => some t.id
  | .command _ _ => none

/-- Whether a change reads a stream that has something for its readers. -/
def Serves (x : Change) (ch : Channel) (ssrc : Ssrc) : Prop :=
  (∃ n, x.streamRead? = some (ch, ssrc, n)) ∧ x.before.Served ch ssrc

/-- A change leaves those that wait for a stream in their places, and at most one more comes behind them; who is served
is the first of them. -/
structure InLine (x : Change) (ch : Channel) (ssrc : Ssrc) : Prop where
  places : (x.after.waiting ch ssrc).Sublist (x.before.waiting ch ssrc)
    ∨ ∃ id, x.mover? = some id ∧ id ∉ x.before.waiting ch ssrc
      ∧ (x.after.waiting ch ssrc).Sublist (x.before.waiting ch ssrc ++ [id])
  turn : x.Serves ch ssrc →
    (x.before.waiting ch ssrc).head? = none ∨ (x.before.waiting ch ssrc).head? = x.mover?

/-- In a line the first of two does not stand behind the second. -/
def Ahead (u v : Nat) (line : List Nat) : Prop :=
  line.Pairwise fun a b => a = v → b ≠ u

theorem ahead_of_not_mem {line : List Nat} (hv : v ∉ line) : Ahead u v line :=
  List.pairwise_of_forall_mem_list fun _ hmem _ _ hav => absurd (hav ▸ hmem) hv

/-- Who waits ahead stays ahead. -/
theorem InLine.ahead (hx : x.InLine ch ssrc) (hu : u ∈ x.before.waiting ch ssrc)
    (ha : Ahead u v (x.before.waiting ch ssrc)) : Ahead u v (x.after.waiting ch ssrc) := by
  rcases hx.places with hs | ⟨id, -, hid, hs⟩
  · exact ha.sublist hs
  · refine List.Pairwise.sublist hs (List.pairwise_append.mpr ⟨ha, List.pairwise_singleton _ _, fun a _ b hb _ => ?_⟩)
    rintro rfl
    exact hid (List.mem_singleton.mp hb ▸ hu)

/-- Who is served has nobody ahead. -/
theorem InLine.first (hx : x.InLine ch ssrc) (hs : x.Serves ch ssrc) (hv : x.mover? = some v) (huv : u ≠ v)
    (hu : u ∈ x.before.waiting ch ssrc) : ¬ Ahead u v (x.before.waiting ch ssrc) := by
  intro ha
  have ht := hx.turn hs
  rw [hv] at ht
  generalize x.before.waiting ch ssrc = line at hu ha ht
  cases line with
  | nil => cases hu
  | cons w line =>
    rcases ht with ht | ht
    · cases ht
    · cases ht
      rcases List.mem_cons.mp hu with hu | hu
      · exact huv hu
      · obtain ⟨first, -⟩ := List.pairwise_cons.mp ha
        exact first u hu rfl rfl

end Change

namespace Hub

variable {h g : Hub} {t : Task} {ch : Channel} {ssrc : Ssrc}

theorem inLine_move (hs : h.Serving ch ssrc) (hids : (h.tasks.map Task.id).Nodup) (hm : h.mover? = some (t, g)) :
    (Change.mk (.move t) h g).InLine ch ssrc where
  places := by
    obtain ⟨ht, hmove⟩ := of_mover? hm
    refine (waiting_move hmove).imp id fun ⟨hw, hsub⟩ => ⟨t.id, rfl, fun hmem => ?_, hsub⟩
    obtain ⟨u, hu, hut⟩ := List.mem_map.mp hmem
    obtain ⟨hu, huw⟩ := List.mem_filter.mp hu
    rw [List.inj_on_of_nodup_map hids hu ht hut, hw] at huw
    cases huw
  turn := by
    rintro ⟨hr, hx⟩
    exact turn_move hs hm hx (streamRead?_move.mp hr).2

end Hub

namespace Session

variable {s : Session} {past : List Change} {ch : Channel} {ssrc : Ssrc} {u v : Nat}

theorem Queued.inLine_move (h : s.Queued past ch ssrc) {t : Task} {g : Hub} (hm : s.hub.mover? = some (t, g)) :
    (Change.mk (.move t) s.hub g).InLine ch ssrc := by
  obtain ⟨a, o⟩ := h.proper.owned
  exact Hub.inLine_move h.serving o.ids hm

theorem Queued.inLine_perform (h : s.Queued past ch ssrc) (hq : s.hub.step? = none) {c : Command}
    (hc : ∀ n, c ≠ .advance n) :
    (Change.mk (.command c (s.perform c).2) s.hub (s.perform c).1.hub).InLine ch ssrc where
  places := .inl (waiting_perform h.told h.gates hc)
  turn hs := .inl (by rw [Hub.waiting_of_settled hq hs.2, List.head?_nil])

/-- Of two tasks one was in line before the other, and either it has left the line since, or it is still there and has
not been overtaken. -/
def KeepsAhead (s : Session) (past : List Change) (ch : Channel) (ssrc : Ssrc) (u v : Nat) : Prop :=
  ∀ pre x mid, past = pre ++ x :: mid → u ∈ x.before.waiting ch ssrc → v ∉ x.before.waiting ch ssrc →
    (∃ z ∈ x :: mid, u ∉ z.after.waiting ch ssrc)
      ∨ u ∈ s.hub.waiting ch ssrc ∧ Change.Ahead u v (s.hub.waiting ch ssrc)

theorem KeepsAhead.next (h : s.KeepsAhead past ch ssrc u v) {y : Change} (hy : y.InLine ch ssrc)
    (hb : y.before = s.hub) {s' : Session} (ha : y.after = s'.hub) : s'.KeepsAhead (past ++ [y]) ch ssrc u v := by
  intro pre x mid he hu hv
  -- who was ahead before the change is ahead after it, if still in line
  have still (hu : u ∈ s.hub.waiting ch ssrc) (hah : Change.Ahead u v (s.hub.waiting ch ssrc)) :
      u ∉ y.after.waiting ch ssrc ∨ u ∈ s'.hub.waiting ch ssrc ∧ Change.Ahead u v (s'.hub.waiting ch ssrc) := by
    rw [← hb] at hu hah
    rw [← ha]
    exact (em _).imp id fun hn => ⟨not_not.mp hn, hy.ahead hu hah⟩
  rcases List.eq_nil_or_concat mid with rfl | ⟨mid, z, rfl⟩
  · obtain ⟨rfl, hxy⟩ := List.append_inj' he rfl
    cases hxy
    rw [hb] at hu hv
    exact (still hu (Change.ahead_of_not_mem hv)).imp (fun hn => ⟨y, List.mem_singleton_self y, hn⟩) id
  · rw [List.concat_eq_append, ← List.cons_append, ← List.append_assoc] at he
    obtain ⟨hp, hyz⟩ := List.append_inj' he rfl
    cases hyz
    have hz : ∀ {z}, z ∈ x :: mid ∨ z = y → z ∈ x :: mid.concat y := by
      intro z hz
      rw [List.concat_eq_append, ← List.cons_append]
      exact List.mem_append.mpr (hz.imp id List.mem_singleton.mpr)
    rcases h pre x mid hp hu hv with ⟨z, hmem, hn⟩ | ⟨hu, hah⟩
    · exact .inl ⟨z, hz (.inl hmem), hn⟩
    · exact (still hu hah).imp (fun hn => ⟨y, hz (.inr rfl), hn⟩) id

theorem keepsAhead_invariant (ch : Channel) (ssrc : Ssrc) (u v : Nat) :
    InvariantOf (fun h => h.step? = none) fun s past => s.Queued past ch ssrc ∧ s.KeepsAhead past ch ssrc u v where
  settled h := h.step?_settle
  move s _ t g h hm :=
    ⟨(queued_invariant ch ssrc).move s _ t g h.1 hm, h.2.next (h.1.inLine_move hm) rfl rfl⟩
  clock s _ time h hq := ⟨(queued_invariant ch ssrc).clock s _ time h.1 hq, h.2⟩
  command s _ c h hq hc :=
    ⟨(queued_invariant ch ssrc).command s _ c h.1 hq hc, h.2.next (h.1.inLine_perform hq hc) rfl rfl⟩
  shown s _ h := ⟨(queued_invariant ch ssrc).shown s _ h.1, h.2⟩

theorem queued_new (settings : Settings) (kind : Kind) (ch : Channel) (ssrc : Ssrc) :
    (new settings kind).Queued [] ch ssrc where
  proper := proper_new settings kind
  told := Receiver.told_new kind settings.receiverMtu
  gates t ht := by cases ht
  serving _ := by rintro ⟨u, hu, -⟩; cases hu

end Session

/-! ## All datagrams of a run -/

/-- What a stream accepts and hands out in a run, to whom and in which order. -/
structure HandedOut (s : Session) (past : List Change) (ch : Channel) (ssrc : Ssrc) : Prop where
  /-- What was accepted is what was handed out, in order, and then what is still queued. -/
  balance : past.flatMap (·.pushed ch ssrc)
    = past.flatMap (·.taken ch ssrc) ++ (s.hub.transport.stream ch ssrc).queued
  /-- A datagram is accepted unless the stream is closed. -/
  pushes : ∀ x ∈ past, ∀ c reply d, x.cause = .command (.transport c) reply → c.datagram? = some (ch, ssrc, d) →
    reply = if (x.before.transport.stream ch ssrc).closed then .failed .closedPipe else .done
  /-- A read of the stream fails, waits, or is handed the first datagram. -/
  reads : ∀ x ∈ past, ∀ n, x.streamRead? = some (ch, ssrc, n) → x.Reads ch ssrc n
  /-- Nothing else takes a datagram: neither to begin to wait nor to be dropped does. -/
  idle : ∀ x ∈ past, (∀ n, x.streamRead? ≠ some (ch, ssrc, n)) → x.taken ch ssrc = []
  /-- Those that wait keep their places, and the first of them is served. -/
  line : ∀ x ∈ past, x.InLine ch ssrc
  /-- Of two readers the one that began to wait later is not served as long as the other one waits. -/
  order : ∀ u v, u ≠ v → Session.Along (fun earlier y => y.Serves ch ssrc → y.mover? = some v →
    ∀ pre x mid, earlier = pre ++ x :: mid → u ∈ x.before.waiting ch ssrc → v ∉ x.before.waiting ch ssrc →
      ∃ z ∈ x :: mid, u ∉ z.after.waiting ch ssrc) [] past
  /-- Whoever is at the stream now waits there, and there is nothing for it: the stream is open and empty. -/
  settled : ∀ t ∈ s.hub.tasks, s.hub.standsAt ch ssrc t →
    (s.hub.transport.stream ch ssrc).closed = false ∧ (s.hub.transport.stream ch ssrc).queued = []
      ∧ t.stage = .waiting .datagram
  /-- Once the stream is closed it accepts nothing and hands out nothing, and all reads of it fail. -/
  closed : Session.Along (fun earlier y => (∃ x ∈ earlier, (x.after.transport.stream ch ssrc).closed) →
    y.pushed ch ssrc = [] ∧ y.taken ch ssrc = []
      ∧ ∀ n, y.streamRead? = some (ch, ssrc, n) → y.Shows (.done (.error .closedPipe))) [] past

namespace Session

/-- Whatever was asked of a session, every datagram that a stream accepts is handed to one read, in order, and those
that wait for the stream are served in the order in which they began to wait. -/
theorem datagrams_handed_out (settings : Settings) (kind : Kind) (cs : List Command) (ch : Channel) (ssrc : Ssrc) :
    HandedOut ((new settings kind).after cs) ((new settings kind).history cs) ch ssrc where
  balance := conserved_after settings kind cs ch ssrc
  pushes x hx _ _ _ hc hd := (handles_history settings kind cs x hx).pushes hc hd
  reads x hx _ hr := (handles_history settings kind cs x hx).reads hr
  idle x hx hr := (handles_history settings kind cs x hx).idle hr
  line x hx := by
    have along : Along (fun _ x => x.InLine ch ssrc) [] ((new settings kind).history cs) :=
      (queued_invariant ch ssrc).along (fun _ _ _ _ h hm => h.inLine_move hm)
        (fun _ _ _ h hq hc => h.inLine_perform hq hc) cs rfl (queued_new settings kind ch ssrc)
    exact (along.of_mem hx).elim fun _ h => h
  order u v huv := by
    -- whoever is served has nobody ahead
    have unserved : ∀ {s : Session} {past : List Change} {y : Change}, s.KeepsAhead past ch ssrc u v →
        y.InLine ch ssrc → y.before = s.hub → y.Serves ch ssrc → y.mover? = some v →
        ∀ pre x mid, past = pre ++ x :: mid → u ∈ x.before.waiting ch ssrc → v ∉ x.before.waiting ch ssrc →
          ∃ z ∈ x :: mid, u ∉ z.after.waiting ch ssrc := by
      intro s past y h hy hb hs hv pre x mid he hu hn
      refine (h pre x mid he hu hn).resolve_right fun ⟨hu, ha⟩ => ?_
      rw [← hb] at hu ha
      exact hy.first hs hv huv hu ha
    refine (keepsAhead_invariant ch ssrc u v).along (fun _ _ _ _ h hm => unserved h.2 (h.1.inLine_move hm) rfl)
      (fun _ _ _ h hq hc => unserved h.2 (h.1.inLine_perform hq hc) rfl) cs rfl
      ⟨queued_new settings kind ch ssrc, fun pre x mid he => ?_⟩
    simp at he
  settled _ ht hs := Hub.idle_of_settled (step?_after rfl cs) (atGates_after settings kind cs) ht hs
  closed := closed_along settings kind cs ch ssrc

end Session

end MediaRelay
