import MediaRelay.Proofs.Sorting
import MediaRelay.Secure.Session

/-!
# What a stream holds

A `Listener` notes, from commands and their replies alone, what concerns one channel and one SSRC: what was written for
it and arrives (`Listener.postings`), what its reads gave (`Listener.heard`), which names stand for its stream. What the
reads have to give is what replay protection lets pass of that (`Listener.due`). `Hears` says that the inbox of a link
agrees with a listener.

- `Hears.writeMedia`, `Hears.writeControl`: a write, for whatever SSRC, keeps them in agreement;
- `Hears.along`, `Hears.taken_next`: so do steps beside the stream, and the read of a datagram.
-/

namespace MediaRelay

/-- The bytes that datagrams take in a stream. -/
def weight (ds : List Datagram) : Nat :=
  ds.foldr (fun d n => d.length + 2 + n) 0

theorem weight_append (ds es : List Datagram) : weight (ds ++ es) = weight ds + weight es := by
  unfold weight
  induction ds with
  | nil => simp
  | cons d ds ih =>
    rw [List.cons_append, List.foldr_cons, List.foldr_cons, ih]
    omega

/-! ## Listeners -/

/-- What is noted of a run. -/
structure Listener where
  names : Table String (Channel × Ssrc) := {}
  wire : Wire := .up
  finished : Bool := false
  closed : Bool := false
  postings : List Posting := []
  heard : List (Nat × Reply) := []

/-- What a write of a media packet posts for an SSRC: nothing if the packet is of another, or cannot be written. -/
def mediaFor (s : Ssrc) (p : Rtp.Packet) : List (UInt16 × Datagram) :=
  match Rtp.encode p with
  | .error _ => []
  | .ok d => if p.ssrc = s ∧ (Rtp.decodeHeader d).isOk then [(p.sequence, d)] else []

/-- What a write of control packets posts for an SSRC: a datagram for each packet that is for the SSRC, up to the first
packet that cannot be written. -/
def controlFor (s : Ssrc) : List Rtcp.Packet → List (UInt16 × Datagram)
  | [] => []
  | p :: ps =>
    match p.encode with
    | .error _ => []
    | .ok d =>
      if d.length < SecureLink.shortest then []
      else (if s ∈ p.audience d then [(0, d)] else []) ++ controlFor s ps

/-- Whether a reply tells that a read waits. -/
def Reply.waits : Reply → Bool
  | .pending => true
  | _ => false

/-- The reply to a read of a datagram into a buffer. -/
def fitted (n : Nat) (d : Datagram) : Reply :=
  if n < d.length then .failed (.srtp (.buffer .short)) else .data (.bytes d)

namespace Listener

variable {ch : Channel} {s : Ssrc} {o : Listener} {ms : List (UInt16 × Datagram)}

/-- Whether a datagram that is written now arrives: the wire takes it, the reader's session has not ended, and it fits
what the session can receive. -/
def reaches (o : Listener) (ch : Channel) (d : Datagram) : Bool :=
  o.wire = .up ∧ o.finished = false ∧ d.length + SecureLink.overhead ch ≤ SecureLink.longest

theorem live_of_reaches {d : Datagram} (h : o.reaches ch d = true) : o.finished = false := by
  simp only [reaches, decide_eq_true_eq] at h
  exact h.2.1

/-- Notes datagrams that are posted. -/
def post (o : Listener) (ch : Channel) (ms : List (UInt16 × Datagram)) : Listener :=
  { o with postings := o.postings ++ ms.map fun m => ⟨m.1, m.2, o.reaches ch m.2⟩ }

/-- Notes a command and its reply. -/
def note (ch : Channel) (s : Ssrc) (o : Listener) : SecureCommand × Reply → Listener
  | (.openStream name c k, _) => { o with names := o.names.insert name (c, k) }
  | (.read name n, r) =>
    if o.names.find? name = some (ch, s) ∧ r.waits = false then { o with heard := o.heard ++ [(n, r)] } else o
  | (.close name, _) => if o.names.find? name = some (ch, s) then { o with closed := true } else o
  | (.writeMedia p, _) => if ch = .media then o.post ch (mediaFor s p) else o
  | (.forward k p, _) => if ch = .media then o.post ch (mediaFor s { p with ssrc := k }) else o
  | (.writeControl ps, _) => if ch = .control ∧ o.wire = .up then o.post ch (controlFor s ps) else o
  | (.setWire w, _) => { o with wire := w }
  | (.finish c, _) => if c = ch then { o with finished := true } else o
  | _ => o

/-- The datagrams that the reads of the stream have to give: those that arrive, but for media packets that replay
protection refuses. -/
def due (o : Listener) : Channel → List Datagram
  | .media => ({} : Guard).passed o.postings
  | .control => written o.postings

/-- What both ends know about the SSRC. -/
def guard (o : Listener) : Guard :=
  o.postings.foldl Guard.after {}

/-- The datagrams that have not been read yet. -/
def unread (o : Listener) (ch : Channel) : List Datagram :=
  (o.due ch).drop o.heard.length

theorem post_nil (o : Listener) (ch : Channel) : o.post ch [] = o := by
  simp [post]

theorem post_append (o : Listener) (ch : Channel) (ms ns : List (UInt16 × Datagram)) :
    o.post ch (ms ++ ns) = (o.post ch ms).post ch ns := by
  simp [post, reaches]

/-- One more datagram is due if it arrives and is let pass. -/
theorem due_post_single (o : Listener) (ch : Channel) (m : UInt16 × Datagram) :
    (o.post ch [m]).due ch = o.due ch
      ++ if o.reaches ch m.2 && (ch = .control || o.guard.lets m.1) then [m.2] else [] := by
  cases ch with
  | media => simp [due, post, Guard.passed_concat, guard]
  | control => simp [due, post, written_concat]

theorem exists_due_post (o : Listener) (ch : Channel) (ms : List (UInt16 × Datagram)) :
    ∃ ds, (o.post ch ms).due ch = o.due ch ++ ds := by
  induction ms generalizing o with
  | nil => exact ⟨[], by rw [post_nil, List.append_nil]⟩
  | cons m ms ih =>
    obtain ⟨ds, hds⟩ := ih (o.post ch [m])
    rw [← List.singleton_append, post_append, hds, due_post_single, List.append_assoc]
    exact ⟨_, rfl⟩

/-- What is unread takes no less room after more was posted. -/
theorem weight_unread_post (o : Listener) (ch : Channel) (ms : List (UInt16 × Datagram)) :
    weight (o.unread ch) ≤ weight ((o.post ch ms).unread ch) := by
  obtain ⟨ds, hds⟩ := exists_due_post o ch ms
  unfold unread
  rw [hds, List.drop_append]
  exact weight_append _ _ ▸ Nat.le_add_right _ _

theorem guard_post_single (o : Listener) (ch : Channel) (m : UInt16 × Datagram) :
    (o.post ch [m]).guard = o.guard.after ⟨m.1, m.2, o.reaches ch m.2⟩ := by
  simp [guard, post]

/-- What is due is, in order, part of what arrives. -/
theorem due_sublist (o : Listener) (ch : Channel) : (o.due ch).Sublist (written o.postings) := by
  cases ch with
  | media => exact Guard.passed_sublist _ _
  | control => exact .refl _

end Listener

/-! ## Links -/

namespace SecureLink

variable (l : SecureLink) (c : Channel) (b : Inbox)

@[simp] theorem inbox_setInbox_self : (l.setInbox c b).inbox c = b := by
  cases c <;> rfl

@[simp] theorem inbox_setInbox_of_ne {ch : Channel} (h : ch ≠ c) : (l.setInbox c b).inbox ch = l.inbox ch := by
  cases ch <;> cases c
  · exact absurd rfl h
  · rfl
  · rfl
  · exact absurd rfl h

@[simp] theorem wire_setInbox : (l.setInbox c b).wire = l.wire := by
  cases c <;> rfl

@[simp] theorem indices_setInbox : (l.setInbox c b).indices = l.indices := by
  cases c <;> rfl

/-- What sending does to the link. -/
theorem fst_send (m : Protected) : (l.send c m).1
    = if l.wire = .up ∧ m.datagram.length + overhead c ≤ longest then l.setInbox c ((l.inbox c).arrive m) else l := by
  unfold send
  cases hw : l.wire with
  | up =>
    by_cases h : m.datagram.length + overhead c ≤ longest <;> simp [h]
  | closed => simp
  | timeout => simp

/-- The index that the next media packet of an SSRC gets. -/
def indexFor (p : Rtp.Packet) : PacketIndex :=
  .next (l.indices.find? p.ssrc) p.sequence

/-- The link after the datagram of a media packet has been protected and sent. -/
def sending (p : Rtp.Packet) (d : Datagram) : SecureLink :=
  (send { l with indices := l.indices.insert p.ssrc (l.indexFor p) } .media ⟨d, (l.indexFor p).wraps⟩).1

/-- What the write of a media packet does to the link. -/
theorem fst_writeMedia (p : Rtp.Packet) : (l.writeMedia p).1
    = match Rtp.encode p with
      | .error _ => l
      | .ok d =>
        if (Rtp.decodeHeader d).isOk then l.sending p d else l := by
  unfold writeMedia protect
  cases hd : Rtp.encode p with
  | error f => rfl
  | ok d =>
    cases hh : Rtp.decodeHeader d with
    | error f => simp [hh, bind, Except.bind, Except.isOk, Except.toBool]
    | ok h =>
      obtain ⟨hs, hq⟩ := Rtp.header_of_encode hd hh
      simp [hh, bind, Except.bind, Except.isOk, Except.toBool, hs, hq, sending, indexFor]

/-- What the write of control packets does to the link, packet by packet. -/
theorem fst_writeControl_cons (p : Rtcp.Packet) (ps : List Rtcp.Packet) : (l.writeControl (p :: ps)).1
    = match p.encode with
      | .error _ => l
      | .ok d =>
        if shortest ≤ d.length ∧ l.wire = .up then ((l.send .control ⟨d, 0⟩).1.writeControl ps).1 else l := by
  rw [writeControl]
  cases p.encode with
  | error f => rfl
  | ok d =>
    by_cases hd : d.length < shortest
    · simp [hd]
    · simp only [hd, if_false]
      cases hw : l.wire <;> simp [send, hw, Nat.not_lt.mp hd]

@[simp] theorem wire_send (m : Protected) : (l.send c m).1.wire = l.wire := by
  rw [fst_send]
  split
  · exact wire_setInbox _ _ _
  · rfl

@[simp] theorem indices_send (m : Protected) : (l.send c m).1.indices = l.indices := by
  rw [fst_send]
  split
  · exact indices_setInbox _ _ _
  · rfl

/-- A write of control packets touches the control channel only. -/
theorem writeControl_media (ps : List Rtcp.Packet) :
    (l.writeControl ps).1.media = l.media ∧ (l.writeControl ps).1.wire = l.wire
      ∧ (l.writeControl ps).1.indices = l.indices := by
  induction ps generalizing l with
  | nil => exact ⟨rfl, rfl, rfl⟩
  | cons p ps ih =>
    rw [fst_writeControl_cons]
    split
    · exact ⟨rfl, rfl, rfl⟩
    · split
      · next d _ _ =>
        obtain ⟨hm, hw, hi⟩ := ih (l.send .control ⟨d, 0⟩).1
        rw [hm, hw, hi, wire_send, fst_send]
        split <;> exact ⟨rfl, rfl, rfl⟩
      · exact ⟨rfl, rfl, rfl⟩

/-- A write of media packets touches the media channel only. -/
theorem writeMedia_control (p : Rtp.Packet) :
    (l.writeMedia p).1.control = l.control ∧ (l.writeMedia p).1.wire = l.wire := by
  rw [fst_writeMedia]
  split
  · exact ⟨rfl, rfl⟩
  · split
    · rw [sending, wire_send, fst_send]
      split <;> exact ⟨rfl, rfl⟩
    · exact ⟨rfl, rfl⟩

/-- Nothing is written while the wire is down. -/
theorem writeControl_down (h : l.wire ≠ .up) (ps : List Rtcp.Packet) : (l.writeControl ps).1 = l := by
  cases ps with
  | nil => rfl
  | cons p ps =>
    rw [fst_writeControl_cons]
    split
    · rfl
    · rw [if_neg (fun hc => h hc.2)]

/-- An inbox that has stalled stays so while control packets are written. -/
theorem stalled_writeControl (h : l.control.stalled = true) (ps : List Rtcp.Packet) :
    (l.writeControl ps).1.control.stalled = true := by
  induction ps generalizing l with
  | nil => exact h
  | cons p ps ih =>
    rw [fst_writeControl_cons]
    split
    · exact h
    · split
      · refine ih _ ?_
        rw [fst_send]
        split
        · exact Inbox.stalled_arrive h _
        · exact h
      · exact h

end SecureLink

/-- A read of an open stream takes the datagram after those that were taken. -/
theorem SecureStream.read_eq {t : SecureStream} (hc : t.closed = false) (n : Nat) : t.read n
    = match t.accepted[t.taken]? with
      | none => (t, .waiting)
      | some d =>
        ({ t with taken := t.taken + 1 }, .done (if n < d.length then .error (.srtp (.buffer .short)) else .ok d)) := by
  unfold SecureStream.read SecureStream.queued
  rw [← List.head?_drop, hc]
  cases t.accepted.drop t.taken <;> rfl

theorem Reply.ofAttempt_done (n : Nat) (d : Datagram) :
    ofAttempt (.done (if n < d.length then .error (.srtp (.buffer .short)) else .ok d)) = fitted n d := by
  unfold fitted
  split <;> rfl

theorem waits_fitted (n : Nat) (d : Datagram) : (fitted n d).waits = false := by
  unfold fitted
  split <;> rfl

/-! ## What a stream holds -/

/-- An inbox that flows and agrees with what a listener noted: the stream of the SSRC holds what is due, and as much
was taken from it as was heard. -/
structure Hears (ch : Channel) (s : Ssrc) (l : SecureLink) (o : Listener) : Prop where
  sound : (l.inbox ch).Sound
  channel : (l.inbox ch).channel = ch
  flows : (l.inbox ch).stalled = false
  backlog : (l.inbox ch).backlog = []
  wire : l.wire = o.wire
  finished : (l.inbox ch).finished = o.finished
  stream : (l.inbox ch).streamFor s = { ssrc := s, accepted := o.due ch, taken := o.heard.length }
  taken : o.heard.length ≤ (o.due ch).length
  guard : ch = .media → l.indices.find? s = o.guard.writer ∧ (l.inbox ch).Knows s o.guard

namespace Hears

variable {ch : Channel} {s : Ssrc} {l l' : SecureLink} {o o' : Listener}

/-- The room that streams of a channel have. -/
abbrev room (ch : Channel) : Nat :=
  ({ channel := ch } : Inbox).capacity

/-- Nothing arrives, but the writer may count on. -/
theorem stay (h : Hears ch s l o) (hbox : l'.inbox ch = l.inbox ch) (hwire : l'.wire = o'.wire)
    (hfin : o'.finished = o.finished) (hdue : o'.due ch = o.due ch) (hheard : o'.heard = o.heard)
    (hguard : ch = .media → l'.indices.find? s = o'.guard.writer ∧ (l.inbox ch).Knows s o'.guard) :
    Hears ch s l' o' where
  sound := hbox ▸ h.sound
  channel := by rw [hbox, h.channel]
  flows := by rw [hbox, h.flows]
  backlog := by rw [hbox, h.backlog]
  wire := hwire
  finished := by rw [hbox, h.finished, hfin]
  stream := by rw [hbox, h.stream, hdue, hheard]
  taken := by rw [hdue, hheard]; exact h.taken
  guard hch := hbox ▸ hguard hch

/-- Steps that touch other streams only. -/
theorem along (h : Hears ch s l o) (l' : SecureLink) (ha : (l.inbox ch).Along s (l'.inbox ch))
    (hst : (l'.inbox ch).stalled = false) (hs : (l'.inbox ch).streamFor s = (l.inbox ch).streamFor s)
    (hwire : l'.wire = l.wire) (hi : l'.indices = l.indices) : Hears ch s l' o where
  sound := ha.sound
  channel := ha.channel.trans h.channel
  flows := hst
  backlog := ha.backlog.trans h.backlog
  wire := hwire.trans h.wire
  finished := ha.finished.trans h.finished
  stream := hs.trans h.stream
  taken := h.taken
  guard hch := by
    unfold Inbox.Knows
    rw [hi, ha.windows, ha.indices]
    exact h.guard hch

/-- A datagram is taken from the stream. -/
theorem taken_next (h : Hears ch s l o) (l' : SecureLink) (r : Nat × Reply) (ha : (l.inbox ch).Along s (l'.inbox ch))
    (hst : (l'.inbox ch).stalled = false)
    (hs : (l'.inbox ch).streamFor s = { ssrc := s, accepted := o.due ch, taken := o.heard.length + 1 })
    (hlt : o.heard.length < (o.due ch).length) (hwire : l'.wire = l.wire) (hi : l'.indices = l.indices) :
    Hears ch s l' { o with heard := o.heard ++ [r] } where
  sound := ha.sound
  channel := ha.channel.trans h.channel
  flows := hst
  backlog := ha.backlog.trans h.backlog
  wire := hwire.trans h.wire
  finished := ha.finished.trans h.finished
  stream := by
    rw [hs, List.length_append]
    rfl
  taken := by
    rw [List.length_append]
    exact hlt
  guard hch := by
    unfold Inbox.Knows
    rw [hi, ha.windows, ha.indices]
    exact h.guard hch

/-- The reader's session ends. -/
theorem finish (h : Hears ch s l o) : Hears ch s (l.setInbox ch (l.inbox ch).finish.1) { o with finished := true } := by
  have hbox := SecureLink.inbox_setInbox_self l ch (l.inbox ch).finish.1
  refine ⟨?_, ?_, ?_, ?_, (SecureLink.wire_setInbox _ _ _).trans h.wire, ?_, ?_, h.taken, fun hch => ?_⟩
  · exact hbox.symm ▸ h.sound
  · exact hbox.symm ▸ h.channel
  · exact hbox.symm ▸ h.flows
  · exact hbox.symm ▸ h.backlog
  · rw [hbox]
    rfl
  · exact hbox.symm ▸ h.stream
  · rw [SecureLink.indices_setInbox, hbox]
    exact h.guard hch

/-- A datagram arrives. -/
theorem arrive (h : Hears ch s l o) {m : Protected} (hbox : l'.inbox ch = (l.inbox ch).arrive m)
    (hflow : ((l.inbox ch).arrive m).stalled = false) (hlive : o.finished = false) (hwire : l'.wire = o'.wire)
    (hfin : o'.finished = o.finished) (hheard : o'.heard = o.heard)
    (hdue : o'.due ch = o.due ch ++ if s ∈ ((l.inbox ch).judge m).2 then [m.datagram] else [])
    (hroom : weight (o'.unread ch) ≤ room ch)
    (hguard : ch = .media → l'.indices.find? s = o'.guard.writer ∧ ((l.inbox ch).judge m).1.Knows s o'.guard) :
    Hears ch s l' o' ∧ (l.inbox ch).Keeps s (l'.inbox ch) := by
  have hf := h.finished.trans hlive
  obtain ⟨ha, hkeeps, hchannel, hfinished, hbacklog, hstream⟩ := Inbox.arrive_spec h.sound hf h.flows hflow s
  refine ⟨⟨hbox ▸ ha.sound, by rw [hbox, hchannel, h.channel], by rw [hbox, hflow], by rw [hbox, hbacklog, h.backlog],
    hwire, by rw [hbox, hfinished, h.finished, hfin], ?_, ?_, fun hch => ?_⟩, hbox ▸ hkeeps⟩
  · rw [hbox, hstream, h.stream, hdue, hheard]
    by_cases hs : s ∈ ((l.inbox ch).judge m).2
    · have hcap : (l.inbox ch).capacity = room ch := Inbox.capacity_of_channel h.channel
      rw [if_pos hs, if_pos hs, SecureStream.offer_of_room rfl]
      -- there was room for the datagram, as there is room for all that is unread after it
      rw [if_pos hs] at hdue
      rw [Listener.unread, hdue, hheard, List.drop_append_of_le_length h.taken, weight_append] at hroom
      rw [hcap]
      show weight ((o.due ch).drop o.heard.length) + m.datagram.length + 2 ≤ room ch
      simpa [weight, Nat.add_assoc] using hroom
    · rw [if_neg hs, if_neg hs, List.append_nil]
  · rw [hdue, hheard, List.length_append]
    exact Nat.le_add_right_of_le h.taken
  · obtain ⟨hw, hk⟩ := hguard hch
    refine ⟨hw, ?_⟩
    unfold Inbox.Knows
    rw [hbox, ha.windows, ha.indices]
    exact hk

/-- A datagram is sent: it arrives if it reaches the inbox. -/
theorem inbox_send (h : Hears ch s l o) (l' : SecureLink) (hbox : l'.inbox ch = l.inbox ch)
    (hwire : l'.wire = l.wire) (m : Protected) :
    (l'.send ch m).1.inbox ch = if o.reaches ch m.datagram then (l.inbox ch).arrive m else l.inbox ch := by
  rw [SecureLink.fst_send, hbox, hwire, h.wire]
  unfold Listener.reaches
  by_cases hw : o.wire = .up ∧ m.datagram.length + SecureLink.overhead ch ≤ SecureLink.longest
  · rw [if_pos hw, SecureLink.inbox_setInbox_self]
    cases hf : o.finished with
    | false => simp [hw]
    | true => simp [Inbox.arrive_of_finished (h.finished.trans hf)]
  · rw [if_neg hw, hbox, if_neg]
    simp only [decide_eq_true_eq]
    exact fun ⟨hup, _, hfits⟩ => hw ⟨hup, hfits⟩

theorem inbox_sending (h : Hears .media s l o) (p : Rtp.Packet) (d : Datagram) :
    (l.sending p d).inbox .media
      = if o.reaches .media d then (l.inbox .media).arrive ⟨d, (l.indexFor p).wraps⟩ else l.inbox .media :=
  h.inbox_send { l with indices := l.indices.insert p.ssrc (l.indexFor p) } rfl rfl _

variable {p header : Rtp.Packet} {d : Datagram}

/-- The media packet of another SSRC is sent. -/
theorem sendOther (h : Hears .media s l o) (hs : p.ssrc ≠ s) (hh : Rtp.decodeHeader d = .ok header)
    (hssrc : header.ssrc = p.ssrc)
    (hflow : ((l.sending p d).inbox .media).stalled = false)
    (hroom : weight (o.unread .media) ≤ room .media) :
    Hears .media s (l.sending p d) o
      ∧ (l.inbox .media).Keeps s ((l.sending p d).inbox .media) := by
  obtain ⟨hwriter, hknows⟩ := h.guard rfl
  have hbox := h.inbox_sending p d
  obtain ⟨hj, hks⟩ := Inbox.judge_media (m := ⟨d, (l.indexFor p).wraps⟩) h.channel hh
  rw [hssrc] at hj hks
  have hindex : (l.sending p d).indices.find? s = o.guard.writer := by
    rw [SecureLink.sending, SecureLink.indices_send, Table.find?_insert_of_ne _ _ (Ne.symm hs), hwriter]
  have hwire : (l.sending p d).wire = o.wire :=
    (SecureLink.wire_send _ _ _).trans h.wire
  cases hr : o.reaches .media d with
  | true =>
    rw [hr, if_pos rfl] at hbox
    rw [hbox] at hflow
    refine h.arrive hbox hflow (Listener.live_of_reaches hr) hwire rfl rfl ?_ hroom fun _ =>
      ⟨hindex, hj ▸ Inbox.authenticate_of_ne hknows (Ne.symm hs) _ _⟩
    rw [hks, if_neg, List.append_nil]
    split
    · exact fun hmem => hs (List.mem_singleton.mp hmem).symm
    · exact List.not_mem_nil
  | false =>
    rw [hr, if_neg Bool.false_ne_true] at hbox
    exact ⟨h.stay hbox hwire rfl rfl rfl fun _ => ⟨hindex, hknows⟩, hbox ▸ .refl s _⟩

/-- A media packet of the SSRC is sent. -/
theorem sendOwn (h : Hears .media s l o) (hs : p.ssrc = s) (hh : Rtp.decodeHeader d = .ok header)
    (hheader : header.ssrc = p.ssrc ∧ header.sequence = p.sequence)
    (hflow : ((l.sending p d).inbox .media).stalled = false)
    (hroom : weight ((o.post .media [(p.sequence, d)]).unread .media) ≤ room .media) :
    Hears .media s (l.sending p d) (o.post .media [(p.sequence, d)])
      ∧ (l.inbox .media).Keeps s ((l.sending p d).inbox .media) := by
  subst hs
  obtain ⟨hwriter, hknows⟩ := h.guard rfl
  have hbox := h.inbox_sending p d
  obtain ⟨hj, hks⟩ := Inbox.judge_media (m := ⟨d, (l.indexFor p).wraps⟩) h.channel hh
  rw [hheader.1, hheader.2] at hj hks
  have hnext : l.indexFor p = .next o.guard.writer p.sequence := by rw [SecureLink.indexFor, hwriter]
  have hindex : (l.sending p d).indices.find? p.ssrc
      = (o.post .media [(p.sequence, d)]).guard.writer := by
    rw [SecureLink.sending, SecureLink.indices_send, Table.find?_insert_self, hnext, Listener.guard_post_single]
    rfl
  have hwire : (l.sending p d).wire = o.wire :=
    (SecureLink.wire_send _ _ _).trans h.wire
  cases hr : o.reaches .media d with
  | true =>
    rw [hr, if_pos rfl] at hbox
    rw [hbox] at hflow
    obtain ⟨hlets, hafter⟩ := Inbox.authenticate_spec hknows p.sequence d
    rw [← hnext] at hlets hafter
    refine h.arrive hbox hflow (Listener.live_of_reaches hr) hwire rfl rfl ?_ hroom fun _ => ⟨hindex, ?_⟩
    · rw [hks, hlets, Listener.due_post_single, hr]
      cases o.guard.lets p.sequence <;> simp
    · rw [hj, Listener.guard_post_single, hr]
      exact hafter
  | false =>
    rw [hr, if_neg Bool.false_ne_true] at hbox
    refine ⟨h.stay hbox hwire rfl ?_ rfl fun _ => ⟨hindex, ?_⟩, hbox ▸ .refl _ _⟩
    · rw [Listener.due_post_single, hr]
      exact List.append_nil _
    · rw [Listener.guard_post_single, hr]
      exact hknows

/-- A media packet is written. -/
theorem writeMedia (h : Hears .media s l o) (p : Rtp.Packet)
    (hflow : ((l.writeMedia p).1.inbox .media).stalled = false)
    (hroom : weight ((o.post .media (mediaFor s p)).unread .media) ≤ room .media) :
    Hears .media s (l.writeMedia p).1 (o.post .media (mediaFor s p))
      ∧ (l.inbox .media).Keeps s ((l.writeMedia p).1.inbox .media) := by
  have hrefl := Inbox.Keeps.refl s (l.inbox .media)
  rw [SecureLink.fst_writeMedia] at hflow ⊢
  unfold mediaFor at hroom ⊢
  cases hd : Rtp.encode p with
  | error f => exact ⟨by rwa [Listener.post_nil], hrefl⟩
  | ok d =>
    cases hh : Rtp.decodeHeader d with
    | error f => simpa [Except.isOk, Except.toBool, hh, Listener.post_nil] using ⟨h, hrefl⟩
    | ok header =>
      have hheader := Rtp.header_of_encode hd hh
      have hok : (Rtp.decodeHeader d).isOk = true := by rw [hh]; rfl
      simp only [hd, hok, if_true, and_true] at hflow hroom ⊢
      by_cases hs : p.ssrc = s
      · rw [if_pos hs] at hroom ⊢
        exact h.sendOwn hs hh hheader hflow hroom
      · rw [if_neg hs, Listener.post_nil] at hroom ⊢
        exact h.sendOther hs hh hheader.1 hflow hroom

/-- One control packet is sent. -/
theorem sendControl (h : Hears .control s l o) {p : Rtcp.Packet} (hd : p.encode = .ok d)
    (hflow : ((l.send .control ⟨d, 0⟩).1.inbox .control).stalled = false)
    (hroom : weight ((o.post .control (if s ∈ p.audience d then [(0, d)] else [])).unread .control) ≤ room .control) :
    Hears .control s (l.send .control ⟨d, 0⟩).1 (o.post .control (if s ∈ p.audience d then [(0, d)] else []))
      ∧ (l.inbox .control).Keeps s ((l.send .control ⟨d, 0⟩).1.inbox .control) := by
  have hbox := h.inbox_send l rfl rfl ⟨d, 0⟩
  have hwire : (l.send .control ⟨d, 0⟩).1.wire = o.wire := (SecureLink.wire_send _ _ _).trans h.wire
  obtain ⟨-, -, hmem⟩ := Inbox.judge_control (m := ⟨d, 0⟩) h.channel
  have hmem := hmem s
  rw [← Rtcp.audience_eq hd] at hmem
  have hdue : (o.post .control (if s ∈ p.audience d then [(0, d)] else [])).due .control
      = o.due .control ++ if o.reaches .control d ∧ s ∈ p.audience d then [d] else [] := by
    by_cases hs : s ∈ p.audience d
    · rw [if_pos hs, Listener.due_post_single]
      simp [hs]
    · simp [hs, Listener.post_nil]
  cases hr : o.reaches .control d with
  | true =>
    rw [hr, if_pos rfl] at hbox
    rw [hbox] at hflow
    refine h.arrive hbox hflow (Listener.live_of_reaches hr) hwire rfl rfl ?_ hroom (fun hch => by cases hch)
    simp only [hdue, hr, true_and, hmem]
  | false =>
    rw [hr, if_neg Bool.false_ne_true] at hbox
    refine ⟨h.stay hbox hwire rfl ?_ rfl (fun hch => by cases hch), hbox ▸ .refl s _⟩
    rw [hdue, hr]
    simp

/-- Control packets are written while the wire is up. -/
theorem writeControl (h : Hears .control s l o) (hup : o.wire = .up) (ps : List Rtcp.Packet)
    (hflow : ((l.writeControl ps).1.inbox .control).stalled = false)
    (hroom : weight ((o.post .control (controlFor s ps)).unread .control) ≤ room .control) :
    Hears .control s (l.writeControl ps).1 (o.post .control (controlFor s ps))
      ∧ (l.inbox .control).Keeps s ((l.writeControl ps).1.inbox .control) := by
  induction ps generalizing l o with
  | nil =>
    rw [controlFor, Listener.post_nil]
    exact ⟨h, .refl s _⟩
  | cons p ps ih =>
    rw [SecureLink.fst_writeControl_cons] at hflow ⊢
    unfold controlFor at hroom ⊢
    cases hd : p.encode with
    | error f => exact ⟨by rwa [Listener.post_nil], .refl s _⟩
    | ok d =>
      simp only [hd] at hflow hroom ⊢
      by_cases hlen : d.length < SecureLink.shortest
      · rw [if_pos hlen, if_neg (fun hc => Nat.not_lt.mpr hc.1 hlen), Listener.post_nil]
        exact ⟨h, .refl s _⟩
      · rw [if_neg hlen, Listener.post_append] at hroom ⊢
        rw [if_pos ⟨Nat.not_lt.mp hlen, h.wire.trans hup⟩] at hflow ⊢
        have hflow' : ((l.send .control ⟨d, 0⟩).1.inbox .control).stalled = false := by
          cases hst : ((l.send .control ⟨d, 0⟩).1.inbox .control).stalled with
          | false => rfl
          | true => exact (SecureLink.stalled_writeControl _ hst ps).symm.trans hflow
        have hroom' := Nat.le_trans (Listener.weight_unread_post _ .control (controlFor s ps)) hroom
        obtain ⟨h', hkeeps⟩ := h.sendControl hd hflow' hroom'
        obtain ⟨h'', hkeeps'⟩ := ih h' hup hflow hroom
        exact ⟨h'', hkeeps.trans hkeeps'⟩

end Hears

end MediaRelay
