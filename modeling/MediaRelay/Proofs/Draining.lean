import MediaRelay.Proofs.Conservation
import MediaRelay.Proofs.Listening
import MediaRelay.Proofs.Queueing

/-!
# What a closed stream still gives

A stream of a queue transport gives nothing once it is closed. A stream over a secure link keeps what it holds when it
is closed (`SecureLink.Holds`): nothing that the link, the receiver or the session does adds to that
(`SecureSession.holds_step`), and reads get it, datagram by datagram, before they fail (`SecureSession.spends_step`).

- `closed_streams_drain`: both transports side by side;
- `closed_stream_read`: a datagram that is read off a stream after it was closed.
-/

namespace MediaRelay

/-! ## Inboxes -/

namespace Inbox

variable {b c : Inbox} {id : Nat} {rest : List Datagram}

/-- The stream of a number is closed, and holds some datagrams. -/
def Holds (b : Inbox) (id : Nat) (rest : List Datagram) : Prop :=
  ∃ v, b.streams[id]? = some v ∧ v.closed = true ∧ v.queued = rest

theorem Holds.of_streams_eq (h : b.Holds id rest) (hs : c.streams = b.streams) : c.Holds id rest := by
  unfold Holds
  rw [hs]
  exact h

/-- Another stream is changed, or the stream stays closed and is taken nothing from. -/
theorem Holds.put (h : b.Holds id rest) {id' : Nat} {u v : SecureStream} (hu : b.streams[id']? = some u)
    (hv : u.closed = true → v.closed = true ∧ v.queued = u.queued) : (b.put id' v).Holds id rest := by
  obtain ⟨w, hw, hc, hq⟩ := h
  by_cases hi : id' = id
  · subst hi
    cases hu.symm.trans hw
    have hlt := (List.getElem?_eq_some_iff.mp hu).1
    exact ⟨v, by simp [Inbox.put, hlt], (hv hc).1, (hv hc).2.trans hq⟩
  · exact ⟨w, by rw [Inbox.put, List.getElem?_set_ne hi, hw], hc, hq⟩

theorem Holds.streamOf (h : b.Holds id rest) (ssrc : Ssrc) : (b.streamOf ssrc).1.Holds id rest := by
  obtain ⟨v, hv, hc⟩ := h
  unfold Inbox.streamOf
  split
  · exact ⟨v, hv, hc⟩
  · exact ⟨v, (List.getElem?_append_left (List.getElem?_eq_some_iff.mp hv).1).trans hv, hc⟩

theorem Holds.claim (h : b.Holds id rest) : b.claim.Holds id rest := by
  unfold Inbox.claim
  split <;> exact h

/-- A closed stream takes nothing in. -/
theorem Holds.deliver (h : b.Holds id rest) (d : Datagram) (ks : List Ssrc) : (b.deliver d ks).Holds id rest := by
  induction ks generalizing b with
  | nil => exact h
  | cons k ks ih =>
    have henroll : (b.enroll k).Holds id rest := by
      unfold enroll
      split
      · exact (h.streamOf k).claim
      · exact h.streamOf k
    cases hst : (b.enroll k).stalled with
    | true =>
      rw [deliver_of_stalled hst]
      exact henroll
    | false =>
      have heq : b.enroll k = if (b.streamOf k).2.2 then (b.streamOf k).1.claim else (b.streamOf k).1 := rfl
      unfold Inbox.deliver
      generalize b.streamOf k = r at heq ⊢
      obtain ⟨c, i, isNew⟩ := r
      dsimp only at heq ⊢
      rw [← heq, if_neg (by rw [hst]; exact Bool.false_ne_true)]
      split
      · exact henroll
      · next u hu =>
        split
        · exact ih henroll
        · next v hv =>
          refine ih (henroll.put hu fun hc => ?_)
          rw [SecureStream.write, if_pos hc] at hv
          cases hv

theorem Holds.take (h : b.Holds id rest) (ms : List Protected) : (b.take ms).Holds id rest := by
  induction ms generalizing b with
  | nil => exact h
  | cons m ms ih =>
    unfold Inbox.take
    split
    · exact h
    · have hj : (b.judge m).1.Holds id rest := by
        obtain ⟨⟨w, i, hj⟩, -⟩ := b.exists_judge m
        rw [hj]
        exact h
      exact ih (hj.deliver m.datagram _)

theorem Holds.arrive (h : b.Holds id rest) (m : Protected) : (b.arrive m).Holds id rest := by
  unfold Inbox.arrive
  split
  · exact h
  · exact h.take [m]

theorem Holds.forget (h : b.Holds id rest) (ssrc : Ssrc) : (b.forget ssrc).Holds id rest := by
  unfold Inbox.forget
  split
  · exact h
  · refine Holds.take ?_ b.backlog
    exact h.of_streams_eq rfl

/-- Closing leaves what a stream holds, be it closed once more. -/
theorem Holds.close (h : b.Holds id rest) (id' : Nat) : (b.closeStream id').Holds id rest := by
  unfold Inbox.closeStream
  split
  · exact h
  · next u hu => exact (@Holds.put _ _ _ h id' u { u with closed := true } hu fun _ => ⟨rfl, rfl⟩).forget u.ssrc

/-- A stream that is closed holds what it held. -/
theorem holds_close {u : SecureStream} (hu : b.streams[id]? = some u) : (b.closeStream id).Holds id u.queued := by
  have hlt := (List.getElem?_eq_some_iff.mp hu).1
  have hput : (b.put id { u with closed := true }).Holds id u.queued :=
    ⟨{ u with closed := true }, by simp [put, hlt], rfl, rfl⟩
  have hclose : b.closeStream id = (b.put id { u with closed := true }).forget u.ssrc := by
    rw [closeStream, hu]
    rfl
  rw [hclose]
  exact hput.forget u.ssrc

/-- A read of a closed stream gives the next datagram that it holds, and fails if there is none; a read of another
stream changes nothing. -/
theorem Holds.read (h : b.Holds id rest) (n : Nat) :
    (b.readStream id n).1.Holds id rest.tail
      ∧ Reply.ofAttempt (b.readStream id n).2 = rest.head?.elim (.failed .closedPipe) (fitted n)
      ∧ ∀ id', id' ≠ id → (b.readStream id' n).1.Holds id rest := by
  obtain ⟨v, hv, hc, rfl⟩ := h
  have hlt := (List.getElem?_eq_some_iff.mp hv).1
  have hread : b.readStream id n = (b.put id (v.read n).1, (v.read n).2) := by
    rw [readStream, hv]
    rfl
  refine ⟨?_, ?_, fun id' hi => ?_⟩
  · rw [hread]
    refine ⟨(v.read n).1, by simp [Inbox.put, hlt], ?_⟩
    unfold SecureStream.read
    split
    · next hq => exact ⟨hc, by rw [hq]; rfl⟩
    · exact ⟨hc, (List.tail_drop).symm⟩
  · rw [hread]
    unfold SecureStream.read
    split
    · next hq => rw [hq, hc]; rfl
    · next d ds hq =>
      rw [hq]
      show Reply.ofAttempt (.done (if n < d.length then _ else _)) = fitted n d
      unfold fitted
      split <;> rfl
  · unfold readStream
    split
    · exact ⟨v, hv, hc, rfl⟩
    · exact ⟨v, by rw [List.getElem?_set_ne hi, hv], hc, rfl⟩

end Inbox

/-! ## Links -/

namespace SecureLink

variable {l : SecureLink} {ch : Channel} {id : Nat} {rest : List Datagram}

/-- A stream of a channel is closed, and holds some datagrams. -/
def Holds (l : SecureLink) (ch : Channel) (id : Nat) (rest : List Datagram) : Prop :=
  (l.inbox ch).Holds id rest

theorem Holds.of_inbox_eq (h : l.Holds ch id rest) {l' : SecureLink} (hl : l'.inbox ch = l.inbox ch) :
    l'.Holds ch id rest := by
  unfold Holds
  rw [hl]
  exact h

/-- An inbox is replaced by one in which the stream holds as much. -/
theorem Holds.setInbox (h : l.Holds ch id rest) {ch' : Channel} {b : Inbox} (hb : ch' = ch → b.Holds id rest) :
    (l.setInbox ch' b).Holds ch id rest := by
  by_cases hc : ch' = ch
  · subst hc
    unfold Holds
    rw [inbox_setInbox_self]
    exact hb rfl
  · exact h.of_inbox_eq (inbox_setInbox_of_ne _ _ _ (Ne.symm hc))

theorem Holds.openStream (h : l.Holds ch id rest) (ch' : Channel) (ssrc : Ssrc) :
    (l.openStream ch' ssrc).1.Holds ch id rest :=
  h.setInbox fun hc => by subst hc; exact Inbox.Holds.streamOf h ssrc

theorem Holds.closeStream (h : l.Holds ch id rest) (ch' : Channel) (id' : Nat) :
    (l.closeStream ch' id').1.Holds ch id rest :=
  h.setInbox fun hc => by subst hc; exact Inbox.Holds.close h id'

theorem Holds.send (h : l.Holds ch id rest) (ch' : Channel) (m : Protected) : (l.send ch' m).1.Holds ch id rest := by
  unfold SecureLink.send
  split
  · exact h
  · exact h
  · dsimp only
    split
    · exact h.setInbox fun hc => by subst hc; exact Inbox.Holds.arrive h m
    · exact h

theorem Holds.writeMedia (h : l.Holds ch id rest) (p : Rtp.Packet) : (l.writeMedia p).1.Holds ch id rest := by
  rw [fst_writeMedia]
  split
  · exact h
  · split
    · refine Holds.send ?_ _ _
      exact h.of_inbox_eq (by cases ch <;> rfl)
    · exact h

theorem Holds.writeControl (h : l.Holds ch id rest) (ps : List Rtcp.Packet) :
    (l.writeControl ps).1.Holds ch id rest := by
  induction ps generalizing l with
  | nil => exact h
  | cons p ps ih =>
    rw [fst_writeControl_cons]
    split
    · exact h
    · split
      · exact ih (h.send _ _)
      · exact h

/-- A read of the link leaves what the stream holds, or takes the next datagram. -/
theorem Holds.readStream (h : l.Holds ch id rest) (ch' : Channel) (id' n : Nat) :
    (l.readStream ch' id' n).1.Holds ch id (if ch' = ch ∧ id' = id then rest.tail else rest) := by
  obtain ⟨hself, -, hother⟩ := Inbox.Holds.read h n
  by_cases hc : ch' = ch
  · subst hc
    show ((l.setInbox ch' ((l.inbox ch').readStream id' n).1).inbox ch').Holds id _
    rw [inbox_setInbox_self]
    by_cases hi : id' = id
    · subst hi
      rw [if_pos ⟨rfl, rfl⟩]
      exact hself
    · rw [if_neg fun e => hi e.2]
      exact hother id' hi
  · rw [if_neg fun e => hc e.1]
    exact h.of_inbox_eq (inbox_setInbox_of_ne _ _ _ (Ne.symm hc))

/-- The stream keeps what it holds, or the next datagram is taken. -/
def Spends (l : SecureLink) (ch : Channel) (id : Nat) (rest : List Datagram) : Prop :=
  l.Holds ch id rest ∨ l.Holds ch id rest.tail

theorem Holds.spends_readStream (h : l.Holds ch id rest) (ch' : Channel) (id' n : Nat) :
    (l.readStream ch' id' n).1.Spends ch id rest := by
  have hread := h.readStream ch' id' n
  split at hread
  · exact .inr hread
  · exact .inl hread

/-- Nothing that a receiver does with a link but reading changes what the stream holds. -/
theorem holds_alike (ch : Channel) (id : Nat) (rest : List Datagram) :
    Alike fun l l' : SecureLink => l = l' ∧ l.Holds ch id rest :=
  .of_keeps (fun _ ch' ssrc h => h.openStream ch' ssrc) fun _ ch' id' h => h.closeStream ch' id'

end SecureLink

/-! ## Sessions -/

/-- Whether a command reads, from a stream or from the receiver. -/
def SecureCommand.reads : SecureCommand → Bool
  | .read _ _ | .readReceiver _ => true
  | _ => false

namespace SecureSession

variable {x : SecureSession} {ch : Channel} {id : Nat} {rest : List Datagram}

/-- A receiver's read leaves a link alone, or reads one stream of it. -/
theorem fst_read (r : Receiver Nat) (l : SecureLink) (q : Read) :
    (r.read l q).1 = l ∨ ∃ ch' id' n, (r.read l q).1 = (l.readStream ch' id' n).1 := by
  unfold Receiver.read
  split
  · exact .inl rfl
  · exact .inl rfl
  · exact .inl rfl
  · next ch' id' _ =>
    refine .inr ⟨ch', id', q.buffer r.mtu, ?_⟩
    have hr : Transport.readStream l ch' id' (q.buffer r.mtu) = l.readStream ch' id' (q.buffer r.mtu) := rfl
    rw [hr]
    split <;> next h => rw [h]

/-- A command that reads takes the next datagram at most. -/
theorem spends_step (h : x.link.Holds ch id rest) {c : SecureCommand} (hc : c.reads = true) :
    (x.step c).1.link.Spends ch id rest := by
  cases c with
  | read name n =>
    cases hx : x.names.find? name with
    | none => exact .inl (by simpa [step, onStream, hx] using h)
    | some y =>
      rw [Follows.step_read hx]
      exact h.spends_readStream y.1 y.2 n
  | readReceiver q =>
    simp only [step]
    split
    · exact .inl h
    · dsimp only
      rcases fst_read x.receiver x.link q with he | ⟨ch', id', n, he⟩ <;> rw [he]
      · exact .inl h
      · exact h.spends_readStream ch' id' n
  | _ => cases hc

/-- No other command takes anything from a stream that is closed or adds to it. -/
theorem holds_step (h : x.link.Holds ch id rest) {c : SecureCommand} (hc : c.reads = false) :
    (x.step c).1.link.Holds ch id rest := by
  have alike := SecureLink.holds_alike ch id rest
  cases c with
  | read | readReceiver => cases hc
  | openStream name ch' ssrc => exact h.openStream ch' ssrc
  | close name =>
    cases hx : x.names.find? name with
    | none => simpa [step, onStream, hx] using h
    | some y =>
      simp only [step, onStream, hx]
      exact h.closeStream y.1 y.2
  | writeMedia p => exact h.writeMedia p
  | writeControl ps => exact h.writeControl ps
  | forward ssrc p => exact h.writeMedia _
  | setWire | unknown => exact h
  | finish ch' => exact h.setInbox fun hc => by subst hc; exact Inbox.Holds.of_streams_eq h rfl
  | receive es =>
    have hr := (alike.receive ⟨rfl, h⟩ x.receiver es).2.fst.2
    simp only [step]
    split <;> exact hr
  | bind rid ssrc => exact (alike.bind ⟨rfl, h⟩ x.receiver rid ssrc).2.fst.2
  | stop => exact (alike.stop ⟨rfl, h⟩ x.receiver).2.fst.2

/-- After commands a closed stream holds what it held, less what reads took. -/
theorem holds_steps (h : x.link.Holds ch id rest) (ds : List SecureCommand) :
    ∃ k, k ≤ ds.countP SecureCommand.reads ∧ (x.steps ds).1.link.Holds ch id (rest.drop k) := by
  induction ds generalizing x rest with
  | nil => exact ⟨0, Nat.le_refl _, h⟩
  | cons d ds ih =>
    have keep (hd : (x.step d).1.link.Holds ch id rest) :
        ∃ k, k ≤ (d :: ds).countP SecureCommand.reads ∧ (x.steps (d :: ds)).1.link.Holds ch id (rest.drop k) := by
      obtain ⟨k, hk, hs⟩ := ih hd
      exact ⟨k, hk.trans (List.sublist_cons_self d ds).countP_le, hs⟩
    cases hr : d.reads with
    | false => exact keep (holds_step h hr)
    | true =>
      rcases spends_step h hr with hd | hd
      · exact keep hd
      · obtain ⟨k, hk, hs⟩ := ih hd
        refine ⟨k + 1, ?_, by rwa [List.drop_tail] at hs⟩
        rw [List.countP_cons_of_pos hr]
        exact Nat.succ_le_succ hk

/-- What a read of a closed stream replies. -/
theorem reply_read_holds (h : x.link.Holds ch id rest) {name : String} (hn : x.names.find? name = some (ch, id))
    (n : Nat) : (x.step (.read name n)).2 = rest.head?.elim (.failed .closedPipe) (fitted n) := by
  rw [Follows.step_read hn]
  exact (Inbox.Holds.read h n).2.1

end SecureSession

/-! ## Both transports -/

/-- What a stream of a queue transport is like in a run, once it is closed. -/
structure Session.Shut (settings : Settings) (kind : Kind) (cs : List Command) (ch : Channel) (ssrc : Ssrc) :
    Prop where
  /-- From then on nothing is pushed to it or taken from it, and every read of it fails. -/
  along : Along (fun earlier y => (∃ x ∈ earlier, (x.after.transport.stream ch ssrc).closed) →
      y.pushed ch ssrc = [] ∧ y.taken ch ssrc = []
        ∧ ∀ n, y.streamRead? = some (ch, ssrc, n) → y.Shows (.done (.error .closedPipe)))
    [] ((new settings kind).history cs)
  /-- No read waits for it any more. -/
  nobody : (((new settings kind).after cs).hub.transport.stream ch ssrc).closed = true →
    ∀ t ∈ ((new settings kind).after cs).hub.tasks, ((new settings kind).after cs).hub.standsAt ch ssrc t = false

namespace SecureSession

variable {r : Receiver Nat} {cs : List SecureCommand} {name : String} {ch : Channel} {id : Nat} {u : SecureStream}

/-- What becomes of a stream `u` that is closed by a name after commands. -/
structure Drains (r : Receiver Nat) (cs : List SecureCommand) (name : String) (ch : Channel) (id : Nat)
    (u : SecureStream) : Prop where
  /-- Closing succeeds. -/
  done : ((after r cs).step (.close name)).2 = .done
  /-- Nothing comes to the stream any more, and only reads take from it. A read gives the next datagram that it held
  when it was closed, and fails once there is none. -/
  reads : ∀ ds, ∃ i, i ≤ ds.countP SecureCommand.reads
    ∧ (after r (cs ++ .close name :: ds)).link.Holds ch id (u.queued.drop i)
    ∧ ∀ name' n, (after r (cs ++ .close name :: ds)).names.find? name' = some (ch, id) →
        ((after r (cs ++ .close name :: ds)).step (.read name' n)).2
          = (u.queued[i]?).elim (.failed .closedPipe) (fitted n)
  /-- So all reads from then on fail exactly if it held nothing. -/
  fails : (∀ ds name' n, (after r (cs ++ .close name :: ds)).names.find? name' = some (ch, id) →
      ((after r (cs ++ .close name :: ds)).step (.read name' n)).2 = .failed .closedPipe) ↔ u.queued = []

theorem after_close (r : Receiver Nat) (cs : List SecureCommand) (name : String) (ds : List SecureCommand) :
    after r (cs ++ .close name :: ds) = (((after r cs).step (.close name)).1.steps ds).1 := by
  unfold after
  generalize ({ receiver := r } : SecureSession) = x
  induction cs generalizing x with
  | nil => rfl
  | cons c cs ih => exact ih (x.step c).1

theorem step_close {x : SecureSession} (hn : x.names.find? name = some (ch, id)) :
    x.step (.close name) = ({ x with link := (x.link.closeStream ch id).1 }, .done) := by
  simp only [step, onStream, hn]
  rfl

theorem drains (hn : (after r cs).names.find? name = some (ch, id))
    (hu : ((after r cs).link.inbox ch).streams[id]? = some u) : Drains r cs name ch id u := by
  have hclose : ((after r cs).step (.close name)).1.link.Holds ch id u.queued := by
    rw [step_close hn]
    show (((after r cs).link.setInbox ch (((after r cs).link.inbox ch).closeStream id)).inbox ch).Holds id u.queued
    rw [SecureLink.inbox_setInbox_self]
    exact Inbox.holds_close hu
  have hreads : ∀ ds, ∃ i, i ≤ ds.countP SecureCommand.reads
      ∧ (after r (cs ++ .close name :: ds)).link.Holds ch id (u.queued.drop i)
      ∧ ∀ name' n, (after r (cs ++ .close name :: ds)).names.find? name' = some (ch, id) →
        ((after r (cs ++ .close name :: ds)).step (.read name' n)).2
          = (u.queued[i]?).elim (.failed .closedPipe) (fitted n) := by
    intro ds
    obtain ⟨i, hi, hd⟩ := holds_steps hclose ds
    rw [← after_close] at hd
    refine ⟨i, hi, hd, fun name' n hn' => ?_⟩
    rw [reply_read_holds hd hn', List.head?_drop]
  refine ⟨by rw [step_close hn], hreads, fun hall => ?_, fun hnil ds name' n hn' => ?_⟩
  · -- the first read after the close, into a buffer that is large enough, gives the first datagram
    obtain ⟨i, hi, -, hr⟩ := hreads []
    obtain rfl : i = 0 := Nat.le_zero.mp hi
    have hname : (after r (cs ++ [.close name])).names.find? name = some (ch, id) := by
      rw [after_close, step_close hn]
      exact hn
    cases hq : u.queued with
    | nil => rfl
    | cons d rest =>
      have hread := (hr name d.length hname).symm.trans (hall [] name d.length hname)
      rw [hq] at hread
      simp [fitted] at hread
  · obtain ⟨i, -, -, hr⟩ := hreads ds
    rw [hr name' n hn', hnil]
    rfl

end SecureSession

/-- A stream of a queue transport gives nothing once closing it has succeeded. A stream over a secure link, the closing
of which always succeeds, takes nothing in any more, but gives what it held. -/
theorem closed_streams_drain (settings : Settings) (kind : Kind) (cs : List Command) (ssrc : Ssrc) (r : Receiver Nat)
    (ss : List SecureCommand) (name : String) (id : Nat) (u : SecureStream) (ch : Channel) :
    (∀ (v : QueueStream) (refusal : Error), (v.close refusal).2 = .ok () → (v.close refusal).1.closed = true)
      ∧ Session.Shut settings kind cs ch ssrc
      ∧ ((SecureSession.after r ss).names.find? name = some (ch, id) →
          ((SecureSession.after r ss).link.inbox ch).streams[id]? = some u →
          SecureSession.Drains r ss name ch id u) := by
  refine ⟨fun v refusal h => ?_, ⟨Session.closed_along settings kind cs ch ssrc, ?_⟩, SecureSession.drains⟩
  · unfold QueueStream.close at h ⊢
    dsimp only at h ⊢
    split at h
    · cases h
    · next hc => rw [if_neg hc]
  · intro hc t ht
    cases hs : ((Session.new settings kind).after cs).hub.standsAt ch ssrc t with
    | false => rfl
    | true =>
      obtain ⟨ho, -, -⟩ :=
        Hub.idle_of_settled (Session.step?_after rfl cs) (Session.atGates_after settings kind cs) ht hs
      exact absurd hc (by rw [ho]; exact Bool.false_ne_true)

/-- A stream that holds a datagram when it is closed, and another one that holds nothing. -/
theorem closed_streams_drain_buffered :
    let r : Receiver Nat := { kind := .video, mtu := 1460 }
    let p : Rtp.Packet := { ssrc := 1, sequence := 1, payload := [7] }
    let cs : List SecureCommand := [.openStream "a" .media 1, .openStream "b" .media 2, .writeMedia p]
    SecureSession.Drains r cs "a" .media 0 { ssrc := 1, accepted := [p.datagram] }
      ∧ SecureSession.Drains r cs "b" .media 1 { ssrc := 2 } :=
  ⟨(closed_streams_drain {} .video [] 1 _ _ _ _ _ _).2.2 (by decide +kernel) (by decide +kernel),
    (closed_streams_drain {} .video [] 2 _ _ _ _ _ _).2.2 (by decide +kernel) (by decide +kernel)⟩

/-- A datagram is read off a stream over a secure link after closing it has succeeded. -/
theorem closed_stream_read :
    let r : Receiver Nat := { kind := .video, mtu := 1460 }
    let p : Rtp.Packet := { ssrc := 1, sequence := 1, payload := [7] }
    let s := SecureSession.after r [.openStream "a" .media 1, .writeMedia p]
    (s.step (.close "a")).2 = .done
      ∧ ((s.step (.close "a")).1.step (.read "a" 1500)).2 = .data (.bytes p.datagram) :=
  ⟨rfl, rfl⟩

end MediaRelay
