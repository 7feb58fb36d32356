import MediaRelay.Proofs.Delivery
import MediaRelay.Proofs.Readers

/-!
# Every datagram is handed out once

- `Change.pushed` is what a change adds to a stream, `Change.streamRead?` the read of a stream that it makes, if any,
  and `Change.Shows` says that what came of that read was replied, or handed to the task that reads;
- `Change.Handles` lists what a change does to the streams, and every change does one of these (`handles_perform`,
  `handles_move`);
- `conserved_after`: what a stream has accepted is what was taken from it, in order, and then what it still has.
-/

namespace MediaRelay

/-! ## What a change does to a stream -/

/-- The datagram that a command pushes, and the stream that it goes to. -/
def TransportCommand.datagram? : TransportCommand → Option (Channel × Ssrc × Datagram)
  | .push ch ssrc d => some (ch, ssrc, d)
  | .pushMedia ssrc p => (Rtp.encode p).toOption.map (.media, ssrc, ·)
  | .pushControl ssrc ps => (Rtcp.encode ps).toOption.map (.control, ssrc, ·)
  | _ => none

namespace Change

/-- The datagrams that a change adds to a stream. -/
def pushed (x : Change) (ch : Channel) (ssrc : Ssrc) : List Datagram :=
  match x.cause with
  | .command (.transport c) .done =>
    match c.datagram? with
    | some (ch', ssrc', d) => if ch' = ch ∧ ssrc' = ssrc then [d] else []
    | none => []
  | _ => []

/-- The read of a stream that a change makes, if any, with the size of its buffer. -/
def streamRead? (x : Change) : Option (Channel × Ssrc × Nat) :=
  match x.cause with
  | .command (.transport (.read ch ssrc n)) _ => some (ch, ssrc, n)
  | .command (.reading (.read q)) _ => if x.before.offers q then x.before.target? q else none
  | .command _ _ => none
  | .move t =>
    match t.job.query? with
    | some q => if x.before.quits t then none else x.before.target? q
    | none => none

/-- What came of the read of a stream was replied, or the task that reads went on with it. -/
def Shows (x : Change) (a : Attempt Datagram) : Prop :=
  match x.cause with
  | .command (.reading (.read q)) reply => reply = .ofProgress (q.progress a)
  | .command _ reply => reply = .ofAttempt a
  | .move t => ∀ q, t.job.query? = some q →
    match q.progress a with
    | .done r => ∃ u, x.after = Hub.finish t { x.before with transport := u } r
    | _ => x.after = x.before.park t .datagram

/-- What a change can do to the streams: push to one, read from one, or close some and leave them alone otherwise. -/
inductive Handles (x : Change) : Prop
  | push {c : TransportCommand} {ch : Channel} {ssrc : Ssrc} {d : Datagram}
    (hc : x.cause = .command (.transport c) (.ofResult (x.before.transport.push ch ssrc d).2))
    (hd : c.datagram? = some (ch, ssrc, d)) (ht : x.after.transport = (x.before.transport.push ch ssrc d).1) : Handles x
  | read {ch : Channel} {ssrc : Ssrc} {n : Nat} (hr : x.streamRead? = some (ch, ssrc, n))
    (ht : ∀ ch' ssrc', x.after.transport.stream ch' ssrc'
      = (x.before.transport.readStream ch ssrc n).1.stream ch' ssrc')
    (hs : x.Shows (x.before.transport.readStream ch ssrc n).2) : Handles x
  | other (hp : ∀ c reply, x.cause = .command (.transport c) reply → c.datagram? = none) (hr : x.streamRead? = none)
    (ht : x.before.transport.Untouched x.after.transport) : Handles x

end Change

/-! ## Every change does one of these -/

namespace QueueTransport

theorem untouched_refuseClose (t : QueueTransport) (ch : Channel) (ssrc : Ssrc) (b : Bool) :
    t.Untouched (t.refuseClose ch ssrc b) :=
  t.forall_onStream ch ssrc _ .refl fun _ => ⟨rfl, rfl, id⟩

theorem Untouched.refl (t : QueueTransport) : t.Untouched t :=
  fun _ _ => .refl _

/-- A read that waits leaves all streams as they are. -/
theorem stream_readStream_of_waiting {t : QueueTransport} {ch : Channel} {ssrc : Ssrc} {n : Nat}
    (hw : (t.readStream ch ssrc n).2 = .waiting) (ch' : Channel) (ssrc' : Ssrc) :
    (t.readStream ch ssrc n).1.stream ch' ssrc' = t.stream ch' ssrc' := by
  have hs : ((t.stream ch ssrc).read n).1 = t.stream ch ssrc := by
    have hw : ((t.stream ch ssrc).read n).2 = .waiting := hw
    rcases (t.stream ch ssrc).read_cases n with ⟨-, he⟩ | ⟨-, -, he⟩ | ⟨d, -, -, he⟩ <;> rw [he] at hw ⊢
    cases hw
  by_cases h : ch' = ch ∧ ssrc' = ssrc
  · obtain ⟨rfl, rfl⟩ := h
    rw [readStream, stream_onStream_self, hs]
  · rw [readStream, stream_onStream_of_ne _ _ _ _ h]

end QueueTransport

/-- A read that waits at a gate after it has asked its stream waits for a datagram. -/
theorem Read.progress_gate? {q : Read} {a : Attempt Datagram} {g : Gate} (h : (q.progress a).gate? = some g) :
    a = .waiting := by
  rcases a with _ | (e | d)
  · rfl
  · cases h
  · cases h

theorem Change.shows_of_done {h : Hub} {t : Task} {q : Read} {a : Attempt Datagram} {r : Except Error Data}
    {u : QueueTransport} (hq : t.job.query? = some q) (hp : q.progress a = .done r) :
    (Change.mk (.move t) h (Hub.finish t { h with transport := u } r)).Shows a := by
  intro q' hq'
  cases hq.symm.trans hq'
  rw [hp]
  exact ⟨u, rfl⟩

namespace Hub

variable {h g : Hub} {t : Task} {q : Read}

theorem transport_startRelay (h : Hub) (index : Nat) (rids : List String) :
    (h.startRelay index rids).1.transport = h.transport := by
  refine startRelay_keeps (P := fun g => g.transport = h.transport) rfl rfl (fun g r rid hg => ?_) rids
  unfold startLayer
  dsimp only
  split <;> exact hg

/-- To go on with the result of a read touches no stream. -/
theorem transport_finish (t : Task) (h : Hub) (r : Except Error Data) : (finish t h r).transport = h.transport := by
  unfold finish
  split
  · rfl
  · unfold pumped
    split
    · split
      · rfl
      · exact (failPump_fields _ _ _ _).1
    · exact (failPump_fields _ _ _ _).1
    · exact (failPump_fields _ _ _ _).1
  · unfold greeted
    split <;> rfl
  · rfl

/-- A move of a task that does not read leaves the transport alone. -/
theorem transport_of_no_query (hq : t.job.query? = none) (hm : h.move? t = some g) : g.transport = h.transport := by
  cases move_of_move? hm with
  | park hj =>
    obtain ⟨q, hq'⟩ := (Job.isReading_iff _).mp hj
    rw [hq] at hq'
    cases hq'
  | expire | round | begin => rfl
  | announce =>
    unfold announce
    split
    · rfl
    · exact transport_startRelay _ _ _
    · dsimp only
      split <;> rfl
  | read hj | forward hj | refuse hj | fail hj | unrouted hj | cease hj | greet hj =>
    rw [hj] at hq
    cases hq

/-- Every move does one of the things listed to the streams. -/
theorem handles_move (hm : h.move? t = some g) : (Change.mk (.move t) h g).Handles := by
  have other : (Change.mk (.move t) h g).streamRead? = none → g.transport = h.transport →
      (Change.mk (.move t) h g).Handles := fun hr ht => .other (by rintro c reply ⟨⟩) hr (by
        dsimp only
        rw [ht]
        exact .refl _)
  cases hq : t.job.query? with
  | none => exact other (by simp [Change.streamRead?, hq]) (transport_of_no_query hq hm)
  | some q =>
    rcases reader_move hq hm with hn | ⟨hn, hread⟩
    · obtain ⟨p, -, rfl | ⟨-, rfl⟩⟩ := move_of_quits hn hm
      · exact other (by simp [Change.streamRead?, hq, hn]) (failPump_fields _ _ _ _).1
      · exact other (by simp [Change.streamRead?, hq, hn]) rfl
    · cases htg : h.target? q with
      | none =>
        refine other (by simp [Change.streamRead?, hq, htg]) ?_
        rcases hread with ⟨r, -, rfl⟩ | ⟨gate, -, -, rfl⟩
        · rw [transport_finish, (read_of_no_target htg).1]
        · rfl
      | some x =>
        obtain ⟨ch, ssrc, n⟩ := x
        have hrt := read_of_target htg
        rw [hrt] at hread
        have hr : (Change.mk (.move t) h g).streamRead? = some (ch, ssrc, n) := by
          simp [Change.streamRead?, hq, hn, htg]
        rcases hread with ⟨r, hdone, rfl⟩ | ⟨gate, hgate, -, rfl⟩
        · exact .read hr (fun _ _ => by rw [transport_finish]) (Change.shows_of_done hq hdone)
        · have hw : (h.transport.readStream ch ssrc n).2 = .waiting := Read.progress_gate? hgate
          rw [hw] at hgate
          cases hgate
          refine .read hr (fun ch' ssrc' => (QueueTransport.stream_readStream_of_waiting hw ch' ssrc').symm) ?_
          rw [show (Change.mk (.move t) h (h.park t .datagram)).before = h from rfl, hw]
          exact fun _ _ => rfl

end Hub

namespace Session

variable {s : Session}

theorem handles_performTransport (c : TransportCommand) :
    (Change.mk (.command (.transport c) (s.performTransport c).2) s.hub (s.performTransport c).1.hub).Handles := by
  have other : ∀ {c : TransportCommand} {r : Reply} {g : Hub}, c.datagram? = none → (∀ ch ssrc n, c ≠ .read ch ssrc n) →
      s.hub.transport.Untouched g.transport → (Change.mk (.command (.transport c) r) s.hub g).Handles := by
    intro c r g hd hr ht
    refine .other ?_ ?_ ht
    · rintro c' reply ⟨⟩
      exact hd
    · unfold Change.streamRead?
      split
      · next he =>
        cases he
        exact absurd rfl (hr _ _ _)
      · next he => cases he
      · rfl
      · next he => cases he
  cases c with
  | push ch ssrc d => exact .push rfl rfl rfl
  | pushMedia ssrc p =>
    cases he : Rtp.encode p with
    | error f =>
      refine other (by simp [TransportCommand.datagram?, he, Except.toOption]) (by simp) ?_
      simp only [performTransport, onTransport, QueueTransport.pushMedia, he]
      exact .refl _
    | ok d =>
      refine @Change.Handles.push _ (.pushMedia ssrc p) .media ssrc d ?_ ?_ ?_ <;>
        simp [TransportCommand.datagram?, performTransport, onTransport, QueueTransport.pushMedia, setHub, he,
          Except.toOption]
  | pushControl ssrc ps =>
    cases he : Rtcp.encode ps with
    | error f =>
      refine other (by simp [TransportCommand.datagram?, he, Except.toOption]) (by simp) ?_
      simp only [performTransport, onTransport, QueueTransport.pushControl, he]
      exact .refl _
    | ok d =>
      refine @Change.Handles.push _ (.pushControl ssrc ps) .control ssrc d ?_ ?_ ?_ <;>
        simp [TransportCommand.datagram?, performTransport, onTransport, QueueTransport.pushControl, setHub, he,
          Except.toOption]
  | refuseOpen ch ssrc => exact other rfl (by simp) (s.hub.transport.untouched_refuseOpen ch ssrc)
  | refuseClose ch ssrc b => exact other rfl (by simp) (s.hub.transport.untouched_refuseClose ch ssrc b)
  | info ch ssrc => exact other rfl (by simp) (.refl _)
  | close ch ssrc => exact other rfl (by simp) (s.hub.transport.untouched_close ch ssrc)
  | read ch ssrc n =>
    refine .read rfl (fun _ _ => rfl) ?_
    simp only [Change.Shows, performTransport]
    generalize s.hub.transport.readStream ch ssrc n = x
    obtain ⟨u, a⟩ := x
    rcases a with _ | (e | d) <;> rfl

/-- A command that is not one to the far side neither pushes nor reads there. -/
theorem handles_of_untouched {c : Command} {reply : Reply} {g : Hub} (hc : ∀ c', c ≠ .transport c')
    (hr : ∀ q, c ≠ .reading (.read q)) (ht : s.hub.transport.Untouched g.transport) :
    (Change.mk (.command c reply) s.hub g).Handles := by
  refine .other ?_ ?_ ht
  · rintro c' reply' ⟨⟩
    exact absurd rfl (hc c')
  · unfold Change.streamRead?
    split
    · next he =>
      cases he
      exact absurd rfl (hc _)
    · next he =>
      cases he
      exact absurd rfl (hr _)
    · rfl
    · next he => cases he

/-- What a command that reads does to the streams. -/
theorem handles_read (q : Read) :
    (Change.mk (.command (.reading (.read q)) (s.performRead (.read q)).2) s.hub
      (s.performRead (.read q)).1.hub).Handles := by
  have other : ∀ {x : Change}, x.cause = .command (.reading (.read q)) (s.performRead (.read q)).2 →
      ∀ c reply, x.cause = .command (.transport c) reply → c.datagram? = none := by
    intro x hx c reply hc
    rw [hx] at hc
    cases hc
  cases ho : s.hub.offers q with
  | false =>
    have hr : ∃ r, s.refuseRead q = some r := by
      rw [← Option.ne_none_iff_exists']
      rw [ne_eq, refuseRead_eq_none_iff, ho]
      simp
    obtain ⟨r, hr⟩ := hr
    refine .other (other rfl) ?_ ?_
    · simp [Change.streamRead?, ho]
    · simp only [performRead, hr]
      exact .refl _
  | true =>
    have hr := (refuseRead_eq_none_iff q).mpr ho
    cases ht : s.hub.target? q with
    | none =>
      refine .other (other rfl) ?_ ?_
      · simp [Change.streamRead?, ht]
      · simp only [performRead, hr, setHub, (Hub.read_of_no_target ht).1]
        exact .refl _
    | some x =>
      obtain ⟨ch, ssrc, n⟩ := x
      refine @Change.Handles.read _ ch ssrc n ?_ ?_ ?_
      · simp [Change.streamRead?, ho, ht]
      · intro ch' ssrc'
        simp only [performRead, hr, setHub, Hub.read_of_target ht]
      · simp only [Change.Shows, performRead, hr, Hub.read_of_target ht]

/-- Every command does one of the things listed to the streams. -/
theorem handles_perform {c : Command} (hc : ∀ n, c ≠ .advance n) :
    (Change.mk (.command c (s.perform c).2) s.hub (s.perform c).1.hub).Handles := by
  by_cases hct : ∃ c', c = .transport c'
  · obtain ⟨c', rfl⟩ := hct
    exact handles_performTransport c'
  · by_cases hcr : ∃ q, c = .reading (.read q)
    · obtain ⟨q, rfl⟩ := hcr
      exact handles_read q
    · have d := deed_of_perform (s := s) hc
      refine handles_of_untouched (fun c' e => hct ⟨c', e⟩) (fun q e => hcr ⟨q, e⟩) ?_
      generalize (s.perform c).1.hub = g at d
      generalize (s.perform c).1.tokens = names at d
      cases d with
      | read q => exact absurd ⟨q, rfl⟩ hcr
      | refuseOpen | refuseClose | push | close | readStream => exact absurd ⟨_, rfl⟩ hct
      | receiveFailed | receive => exact s.hub.transport.untouched_receive _ _
      | bind => exact s.hub.transport.untouched_bind _ _ _
      | stop => exact s.hub.transport.untouched_stop _
      | startRelay => exact (Hub.transport_startRelay _ _ _).symm ▸ .refl _
      | _ => exact .refl _

end Session

/-! ## Single streams -/

namespace Change

variable {x : Change}

/-- What comes of a read of a stream, and what it takes: it fails on a closed stream, waits on an empty one, and
otherwise gets the first datagram, or loses it if that does not fit the buffer. -/
inductive Reads (x : Change) (ch : Channel) (ssrc : Ssrc) (n : Nat) : Prop
  | ended (hc : (x.before.transport.stream ch ssrc).closed = true) (hs : x.Shows (.done (.error .closedPipe)))
    (ht : x.taken ch ssrc = []) : Reads x ch ssrc n
  | waits (hc : (x.before.transport.stream ch ssrc).closed = false)
    (hq : (x.before.transport.stream ch ssrc).queued = []) (hs : x.Shows .waiting) (ht : x.taken ch ssrc = []) :
    Reads x ch ssrc n
  | takes {d : Datagram} (hc : (x.before.transport.stream ch ssrc).closed = false)
    (hq : (x.before.transport.stream ch ssrc).queued.head? = some d)
    (hs : x.Shows (.done (if n < d.length then .error .shortBuffer else .ok d))) (ht : x.taken ch ssrc = [d]) :
    Reads x ch ssrc n

theorem taken_of_eq {ch : Channel} {ssrc : Ssrc}
    (h : (x.after.transport.stream ch ssrc).taken = (x.before.transport.stream ch ssrc).taken) :
    x.taken ch ssrc = [] := by
  rw [taken, h, List.drop_take, Nat.sub_self, List.take_zero]

/-- What a change does to one stream: push to it, read from it, or neither. -/
theorem Handles.stream (hx : x.Handles) (ch : Channel) (ssrc : Ssrc) :
    (∃ c d, x.cause = .command (.transport c) (.ofResult ((x.before.transport.stream ch ssrc).push d).2)
        ∧ c.datagram? = some (ch, ssrc, d)
        ∧ x.after.transport.stream ch ssrc = ((x.before.transport.stream ch ssrc).push d).1)
      ∨ (∃ n, x.streamRead? = some (ch, ssrc, n)
        ∧ x.after.transport.stream ch ssrc = ((x.before.transport.stream ch ssrc).read n).1
        ∧ x.Shows ((x.before.transport.stream ch ssrc).read n).2)
      ∨ (∀ c reply d, x.cause = .command (.transport c) reply → c.datagram? ≠ some (ch, ssrc, d))
        ∧ (∀ n, x.streamRead? ≠ some (ch, ssrc, n))
        ∧ (x.before.transport.stream ch ssrc).Untouched (x.after.transport.stream ch ssrc) := by
  cases hx with
  | @push c ch' ssrc' d hc hd ht =>
    by_cases he : ch = ch' ∧ ssrc = ssrc'
    · obtain ⟨rfl, rfl⟩ := he
      exact .inl ⟨c, d, hc, hd, by rw [ht, QueueTransport.push, QueueTransport.stream_onStream_self]⟩
    · refine .inr (.inr ⟨?_, ?_, ?_⟩)
      · rintro c' reply d' hc' hd'
        cases hc.symm.trans hc'
        cases hd.symm.trans hd'
        exact he ⟨rfl, rfl⟩
      · intro n
        unfold streamRead?
        rw [hc]
        cases c <;> simp [TransportCommand.datagram?] at hd ⊢
      · rw [ht, QueueTransport.push, QueueTransport.stream_onStream_of_ne _ _ _ _ he]
        exact .refl _
  | @read ch' ssrc' n hr ht hs =>
    by_cases he : ch = ch' ∧ ssrc = ssrc'
    · obtain ⟨rfl, rfl⟩ := he
      exact .inr (.inl ⟨n, hr, by rw [ht, QueueTransport.readStream, QueueTransport.stream_onStream_self], hs⟩)
    · refine .inr (.inr ⟨?_, ?_, ?_⟩)
      · rintro c reply d hc hd
        unfold streamRead? at hr
        rw [hc] at hr
        cases c <;> simp [TransportCommand.datagram?] at hd hr
      · intro m hm
        cases hr.symm.trans hm
        exact he ⟨rfl, rfl⟩
      · rw [ht, QueueTransport.readStream, QueueTransport.stream_onStream_of_ne _ _ _ _ he]
        exact .refl _
  | other hp hr ht =>
    refine .inr (.inr ⟨?_, ?_, ht ch ssrc⟩)
    · intro c reply d hc
      rw [hp c reply hc]
      simp
    · simp [hr]

/-- A change that pushes nothing to a stream adds nothing to it. -/
theorem pushed_eq_nil {ch : Channel} {ssrc : Ssrc}
    (h : ∀ c reply d, x.cause = .command (.transport c) reply → c.datagram? ≠ some (ch, ssrc, d)) :
    x.pushed ch ssrc = [] := by
  unfold pushed
  split
  · next c hc =>
    split
    · next d hd =>
      rw [if_neg]
      rintro ⟨rfl, rfl⟩
      exact h c _ d hc hd
    · rfl
  · rfl

/-- A change that reads a stream pushes nothing to it. -/
theorem pushed_of_streamRead {n : Nat} {ch : Channel} {ssrc : Ssrc} (hr : x.streamRead? = some (ch, ssrc, n)) :
    x.pushed ch ssrc = [] := by
  apply pushed_eq_nil
  intro c reply d hc hd
  unfold streamRead? at hr
  rw [hc] at hr
  cases c <;> simp [TransportCommand.datagram?] at hd hr

theorem Handles.accepted (hx : x.Handles) (ch : Channel) (ssrc : Ssrc) :
    (x.after.transport.stream ch ssrc).accepted
      = (x.before.transport.stream ch ssrc).accepted ++ x.pushed ch ssrc := by
  rcases hx.stream ch ssrc with ⟨c, d, hc, hd, ht⟩ | ⟨n, hr, ht, -⟩ | ⟨hp, -, ht⟩
  · rw [ht, pushed, hc]
    unfold QueueStream.push
    split
    · simp [Reply.ofResult]
    · simp [Reply.ofResult, hd]
  · rw [ht, pushed_of_streamRead hr, List.append_nil]
    rcases (x.before.transport.stream ch ssrc).read_cases n with ⟨-, he⟩ | ⟨-, -, he⟩ | ⟨d, -, -, he⟩ <;> rw [he]
  · rw [ht.accepted, pushed_eq_nil hp, List.append_nil]

/-- Nothing is pushed to a stream that is closed, and it stays closed. -/
theorem Handles.closed (hx : x.Handles) {ch : Channel} {ssrc : Ssrc}
    (hc : (x.before.transport.stream ch ssrc).closed = true) :
    (x.after.transport.stream ch ssrc).closed = true ∧ x.pushed ch ssrc = [] := by
  have ha := hx.accepted ch ssrc
  rcases hx.stream ch ssrc with ⟨c, d, -, -, ht⟩ | ⟨n, hr, ht, -⟩ | ⟨hp, -, ht⟩
  · rw [ht, QueueStream.push, if_pos hc] at ha ⊢
    exact ⟨hc, List.self_eq_append_right.mp ha⟩
  · rw [ht]
    exact ⟨((x.before.transport.stream ch ssrc).onward_read n).closed hc, pushed_of_streamRead hr⟩
  · exact ⟨ht.closed hc, pushed_eq_nil hp⟩

/-- What a push to a stream replies. -/
theorem Handles.pushes (hx : x.Handles) {c : TransportCommand} {reply : Reply} {ch : Channel} {ssrc : Ssrc}
    {d : Datagram} (hc : x.cause = .command (.transport c) reply) (hd : c.datagram? = some (ch, ssrc, d)) :
    reply = if (x.before.transport.stream ch ssrc).closed then .failed .closedPipe else .done := by
  rcases hx.stream ch ssrc with ⟨c', d', hc', -, -⟩ | ⟨n, hr, -⟩ | ⟨hp, -⟩
  · cases hc.symm.trans hc'
    unfold QueueStream.push
    split <;> rfl
  · unfold streamRead? at hr
    rw [hc] at hr
    cases c <;> simp [TransportCommand.datagram?] at hd hr
  · exact absurd hd (hp c reply d hc)

/-- Only a read takes datagrams from a stream. -/
theorem Handles.idle (hx : x.Handles) {ch : Channel} {ssrc : Ssrc} (hr : ∀ n, x.streamRead? ≠ some (ch, ssrc, n)) :
    x.taken ch ssrc = [] := by
  apply taken_of_eq
  rcases hx.stream ch ssrc with ⟨c, d, -, -, ht⟩ | ⟨n, hr', -⟩ | ⟨-, -, ht⟩
  · rw [ht]
    unfold QueueStream.push
    split <;> rfl
  · exact absurd hr' (hr n)
  · exact ht.taken

/-- A read takes at most one datagram from a stream. -/
theorem Handles.reads (hx : x.Handles) {ch : Channel} {ssrc : Ssrc} {n : Nat}
    (hr : x.streamRead? = some (ch, ssrc, n)) : x.Reads ch ssrc n := by
  rcases hx.stream ch ssrc with ⟨c, d, hc, hd, -⟩ | ⟨m, hr', ht, hs⟩ | ⟨-, hr', -⟩
  · unfold streamRead? at hr
    rw [hc] at hr
    cases c <;> simp [TransportCommand.datagram?] at hd hr
  · cases hr.symm.trans hr'
    rcases (x.before.transport.stream ch ssrc).read_cases n with ⟨hc, he⟩ | ⟨hc, hq, he⟩ | ⟨d, hc, hd, he⟩
    · rw [he] at ht hs
      exact .ended hc hs (taken_of_eq (by rw [ht]))
    · rw [he] at ht hs
      exact .waits hc hq hs (taken_of_eq (by rw [ht]))
    · refine .takes hc ?_ ?_ (Session.taken_of_readStream hd hc ht)
      · rw [QueueStream.queued, List.head?_drop, hd]
      · rw [he] at hs
        exact hs
  · exact absurd hr (hr' n)

/-- Nothing comes to a stream that is closed, and nothing from it. -/
theorem Handles.shut (hx : x.Handles) {ch : Channel} {ssrc : Ssrc}
    (hc : (x.before.transport.stream ch ssrc).closed = true) :
    x.pushed ch ssrc = [] ∧ x.taken ch ssrc = []
      ∧ ∀ n, x.streamRead? = some (ch, ssrc, n) → x.Shows (.done (.error .closedPipe)) := by
  have ended : ∀ n, x.streamRead? = some (ch, ssrc, n) →
      x.Shows (.done (.error .closedPipe)) ∧ x.taken ch ssrc = [] := by
    intro n hr
    cases hx.reads hr with
    | ended _ hs ht => exact ⟨hs, ht⟩
    | waits ho | takes ho =>
      rw [hc] at ho
      cases ho
  refine ⟨(hx.closed hc).2, ?_, fun n hr => (ended n hr).1⟩
  by_cases hr : ∃ n, x.streamRead? = some (ch, ssrc, n)
  · obtain ⟨n, hr⟩ := hr
    exact (ended n hr).2
  · exact hx.idle (not_exists.mp hr)

theorem Handles.onward (hx : x.Handles) (ch : Channel) (ssrc : Ssrc) :
    (x.before.transport.stream ch ssrc).Onward (x.after.transport.stream ch ssrc) := by
  rcases hx.stream ch ssrc with ⟨c, d, -, -, ht⟩ | ⟨n, -, ht, -⟩ | ⟨-, -, ht⟩
  · rw [ht]
    exact QueueStream.onward_push _ d
  · rw [ht]
    exact QueueStream.onward_read _ n
  · exact ht.onward

end Change

/-! ## Runs -/

/-- What a stream has accepted and given away is what was pushed to it and taken from it. -/
structure QueueStream.Records (s : QueueStream) (past : List Change) (ch : Channel) (ssrc : Ssrc) : Prop where
  sound : s.Sound
  pushed : past.flatMap (·.pushed ch ssrc) = s.accepted
  taken : past.flatMap (·.taken ch ssrc) = s.accepted.take s.taken

/-- A change adds to the records what it pushes and takes. -/
theorem QueueStream.Records.next {x : Change} {past : List Change} {ch : Channel} {ssrc : Ssrc}
    (hr : (x.before.transport.stream ch ssrc).Records past ch ssrc) (hx : x.Handles) :
    (x.after.transport.stream ch ssrc).Records (past ++ [x]) ch ssrc where
  sound := (hx.onward ch ssrc).sound hr.sound
  pushed := by rw [List.flatMap_append, List.flatMap_singleton, hr.pushed, hx.accepted]
  taken := by
    rw [List.flatMap_append, List.flatMap_singleton, hr.taken, Session.take_onward (hx.onward ch ssrc) hr.sound]
    rfl

namespace Session

theorem records_invariant (ch : Channel) (ssrc : Ssrc) :
    Invariant fun s past => (s.hub.transport.stream ch ssrc).Records past ch ssrc where
  move _ _ _ _ h hm := h.next (Hub.handles_move (Hub.of_mover? hm).2)
  clock _ _ _ h := h
  command _ _ _ h hc := h.next (handles_perform hc)
  shown _ _ h := h

theorem records_new (settings : Settings) (kind : Kind) (ch : Channel) (ssrc : Ssrc) :
    ((new settings kind).hub.transport.stream ch ssrc).Records [] ch ssrc := by
  cases ch <;> exact ⟨Nat.zero_le _, rfl, rfl⟩

theorem records_after (settings : Settings) (kind : Kind) (cs : List Command) (ch : Channel) (ssrc : Ssrc) :
    (((new settings kind).after cs).hub.transport.stream ch ssrc).Records ((new settings kind).history cs) ch ssrc :=
  @Invariant.after _ (records_invariant ch ssrc) cs _ [] (records_new settings kind ch ssrc)

/-- What was pushed to a stream is what was taken from it, in order, and then what it still has. -/
theorem conserved_after (settings : Settings) (kind : Kind) (cs : List Command) (ch : Channel) (ssrc : Ssrc) :
    ((new settings kind).history cs).flatMap (·.pushed ch ssrc)
      = ((new settings kind).history cs).flatMap (·.taken ch ssrc)
        ++ (((new settings kind).after cs).hub.transport.stream ch ssrc).queued := by
  have h := records_after settings kind cs ch ssrc
  rw [h.pushed, h.taken, QueueStream.taken_append_queued]

/-- Every change of a run does one of the things listed to the streams. -/
theorem handles_history (settings : Settings) (kind : Kind) (cs : List Command) :
    ∀ x ∈ (new settings kind).history cs, x.Handles := by
  have along : Along (fun _ x => x.Handles) [] ((new settings kind).history cs) :=
    (records_invariant .media 0).along (fun _ _ _ _ _ hm => Hub.handles_move (Hub.of_mover? hm).2)
      (fun _ _ _ _ hc => handles_perform hc) cs (records_new settings kind .media 0)
  exact fun x hx => (along.of_mem hx).elim fun _ h => h

/-- A stream that was closed is closed. -/
theorem closed_invariant (ch : Channel) (ssrc : Ssrc) :
    Invariant fun s past => ∀ x ∈ past, (x.after.transport.stream ch ssrc).closed →
      (s.hub.transport.stream ch ssrc).closed := by
  have next : ∀ {h : Hub} {past : List Change} {y : Change}, (∀ x ∈ past, (x.after.transport.stream ch ssrc).closed →
      (h.transport.stream ch ssrc).closed) → y.Handles → y.before = h →
      ∀ x ∈ past ++ [y], (x.after.transport.stream ch ssrc).closed → (y.after.transport.stream ch ssrc).closed := by
    intro h past y hp hy hb x hx hc
    rcases List.mem_append.mp hx with hx | hx
    · exact (hy.closed (hb ▸ hp x hx hc)).1
    · exact List.mem_singleton.mp hx ▸ hc
  exact ⟨fun _ _ _ _ h hm => next h (Hub.handles_move (Hub.of_mover? hm).2) rfl, fun _ _ _ h => h,
    fun _ _ _ h hc => next h (handles_perform hc) rfl, fun _ _ h => h⟩

/-- Once a stream is closed nothing comes to it, and nothing from it. -/
theorem closed_along (settings : Settings) (kind : Kind) (cs : List Command) (ch : Channel) (ssrc : Ssrc) :
    Along (fun earlier y => (∃ x ∈ earlier, (x.after.transport.stream ch ssrc).closed) →
      y.pushed ch ssrc = [] ∧ y.taken ch ssrc = []
        ∧ ∀ n, y.streamRead? = some (ch, ssrc, n) → y.Shows (.done (.error .closedPipe)))
      [] ((new settings kind).history cs) := by
  refine (closed_invariant ch ssrc).along (fun _ _ _ _ h hm => ?_) (fun _ _ _ h hc => ?_) cs
    (s := new settings kind) (by simp) <;> rintro ⟨x, hx, hcl⟩
  · exact (Hub.handles_move (Hub.of_mover? hm).2).shut (h x hx hcl)
  · exact (handles_perform hc).shut (h x hx hcl)

end Session

end MediaRelay
