import MediaRelay.Proofs.Hearing
import Mathlib.Data.List.Induction
import Mathlib.Data.List.Infix

/-!
# What a reader is given

One side of a secure session writes media packets and lists of control packets of any SSRCs, the other opens streams and
reads. As long as the inbox of a channel does not stall, the reads of an SSRC give exactly what is due
(`SecureSession.reads_after`), however much is written for others.

- `Follows.read`, `Follows.close`, `Follows.writeMedia`, …: what one command does;
- `SecureSession.follows`: what a whole run does.
-/

namespace MediaRelay

/-- A command to the transports themselves, not to the receiver that is built on one of them. -/
def SecureCommand.isDirect : SecureCommand → Bool
  | .receive _ | .bind _ _ | .stop | .readReceiver _ => false
  | _ => true

section ZipWith

variable {α β γ : Type} {f : α → β → γ}

theorem zipWith_append_of_le {as : List α} {bs : List β} (h : as.length ≤ bs.length) (cs : List β) :
    List.zipWith f as (bs ++ cs) = List.zipWith f as bs := by
  induction as generalizing bs with
  | nil => rfl
  | cons a as ih =>
    cases bs with
    | nil => exact absurd h (Nat.not_succ_le_zero _)
    | cons b bs =>
      rw [List.cons_append, List.zipWith_cons_cons, List.zipWith_cons_cons, ih (Nat.le_of_succ_le_succ h)]

theorem zipWith_concat {as : List α} {bs : List β} {b : β} (h : bs[as.length]? = some b) (a : α) :
    List.zipWith f (as ++ [a]) bs = List.zipWith f as bs ++ [f a b] := by
  induction as generalizing bs with
  | nil =>
    cases bs with
    | nil => cases h
    | cons c bs =>
      cases h
      simp
  | cons c as ih =>
    cases bs with
    | nil => cases h
    | cons d bs =>
      rw [List.cons_append, List.zipWith_cons_cons, List.zipWith_cons_cons, ih (by simpa using h), List.cons_append]

end ZipWith

/-! ## Commands -/

/-- The name of a stream stands for the same channel on both sides; on the channel that is listened to the stream is
made for the SSRC that the name was given to, and it is the one that is registered if that is the SSRC listened to. -/
def Handle (ch : Channel) (s : Ssrc) (b : Inbox) (x : Channel × Nat) (y : Channel × Ssrc) : Prop :=
  x.1 = y.1 ∧ (x.1 = ch → b.ssrcOf x.2 = some y.2 ∧ (y.2 = s → b.registered.find? s = some x.2))

/-- A session does what a listener notes. -/
structure Follows (ch : Channel) (s : Ssrc) (x : SecureSession) (o : Listener) : Prop where
  hears : Hears ch s x.link o
  named : ∀ name, Option.Rel (Handle ch s (x.link.inbox ch)) (x.names.find? name) (o.names.find? name)
  answered : o.heard.map (·.2) = List.zipWith fitted (o.heard.map (·.1)) (o.due ch)

namespace Follows

variable {ch : Channel} {s : Ssrc} {x : SecureSession} {o : Listener}

theorem new (r : Receiver Nat) (ch : Channel) (s : Ssrc) : Follows ch s { receiver := r } {} where
  hears := by
    cases ch <;>
      exact ⟨fun _ _ h => (by cases h), rfl, rfl, rfl, rfl, rfl, rfl, Nat.le_refl _, fun _ => ⟨rfl, rfl, rfl⟩⟩
  named _ := .none
  answered := rfl

theorem handles {b c : Inbox} {t : Option (Channel × Nat)} {u : Option (Channel × Ssrc)}
    (h : Option.Rel (Handle ch s b) t u) (hk : b.Keeps s c) : Option.Rel (Handle ch s c) t u := by
  cases h with
  | none => exact .none
  | some h =>
    refine .some ⟨h.1, fun hch => ⟨hk.numbered _ _ (h.2 hch).1, fun hs => hk.registered _ ((h.2 hch).2 hs)⟩⟩

/-- What was heard still was what is due once more is due. -/
theorem answered_post (h : Follows ch s x o) (ms : List (UInt16 × Datagram)) :
    o.heard.map (·.2) = List.zipWith fitted (o.heard.map (·.1)) ((o.post ch ms).due ch) := by
  obtain ⟨ds, hds⟩ := Listener.exists_due_post o ch ms
  rw [hds, zipWith_append_of_le (by rw [List.length_map]; exact h.hears.taken), ← h.answered]

/-- Only the link changes. -/
theorem relink {l : SecureLink} {o' : Listener} (h : Follows ch s x o) (hl : Hears ch s l o')
    (hk : (x.link.inbox ch).Keeps s (l.inbox ch)) (hnames : o'.names = o.names)
    (hans : o'.heard.map (·.2) = List.zipWith fitted (o'.heard.map (·.1)) (o'.due ch)) :
    Follows ch s { x with link := l } o' where
  hears := hl
  named name := hnames ▸ handles (h.named name) hk
  answered := hans

/-- Other streams of the channel change. -/
theorem beside {b : Inbox} (h : Follows ch s x o) (ha : (x.link.inbox ch).Along s b) (hst : b.stalled = false)
    (hs : b.streamFor s = (x.link.inbox ch).streamFor s) : Follows ch s { x with link := x.link.setInbox ch b } o := by
  have hbox := SecureLink.inbox_setInbox_self x.link ch b
  exact h.relink (h.hears.along _ (hbox.symm ▸ ha) (by rw [hbox, hst]) (by rw [hbox, hs])
    (SecureLink.wire_setInbox _ _ _) (SecureLink.indices_setInbox _ _ _)) (hbox.symm ▸ ha.toKeeps) rfl h.answered

/-- The link changes outside the channel. -/
theorem aside {l : SecureLink} (h : Follows ch s x o) (hbox : l.inbox ch = x.link.inbox ch)
    (hwire : l.wire = x.link.wire) (hi : ch = .media → l.indices = x.link.indices) :
    Follows ch s { x with link := l } o :=
  h.relink (h.hears.stay hbox (hwire.trans h.hears.wire) rfl rfl rfl fun hch => hi hch ▸ h.hears.guard hch)
    (hbox ▸ .refl s _) rfl h.answered

/-- A stream is opened under a name. -/
theorem openStream (h : Follows ch s x o) (name : String) (c : Channel) (k : Ssrc) :
    Follows ch s (x.step (.openStream name c k)).1 { o with names := o.names.insert name (c, k) } := by
  have hstep : (x.step (.openStream name c k)).1
      = { x with
          link := x.link.setInbox c ((x.link.inbox c).streamOf k).1
          names := x.names.insert name (c, ((x.link.inbox c).streamOf k).2.1) } := rfl
  rw [hstep]
  by_cases hc : ch = c
  · subst hc
    obtain ⟨ha, hs, -, hst⟩ := Inbox.streamOf_spec h.hears.sound k s
    obtain ⟨-, -, hreg, -⟩ := Inbox.streamOf_spec h.hears.sound k k
    have h' := h.beside ha (hst.trans h.hears.flows) hs
    refine ⟨h'.hears.stay rfl h'.hears.wire rfl rfl rfl fun hch => h'.hears.guard hch, fun m => ?_, h.answered⟩
    refine Table.rel_find?_insert (h'.named m) name ⟨rfl, fun _ => ?_⟩
    dsimp only
    rw [SecureLink.inbox_setInbox_self]
    exact ⟨ha.sound k _ hreg, fun hks => hks ▸ hreg⟩
  · have h' := h.aside (SecureLink.inbox_setInbox_of_ne x.link c ((x.link.inbox c).streamOf k).1 hc)
      (SecureLink.wire_setInbox _ _ _) fun _ => SecureLink.indices_setInbox _ _ _
    refine ⟨h'.hears.stay rfl h'.hears.wire rfl rfl rfl fun hch => h'.hears.guard hch, fun m => ?_, h.answered⟩
    exact Table.rel_find?_insert (h'.named m) name ⟨rfl, fun hcc => absurd hcc.symm hc⟩

theorem step_read {name : String} {c : Channel} {id : Nat} (hname : x.names.find? name = some (c, id)) (n : Nat) :
    x.step (.read name n) = ({ x with link := x.link.setInbox c ((x.link.inbox c).readStream id n).1 },
      Reply.ofAttempt ((x.link.inbox c).readStream id n).2) := by
  simp only [SecureSession.step, SecureSession.onStream, hname, SecureLink.readStream]
  obtain ⟨b, attempt⟩ := (x.link.inbox c).readStream id n
  cases attempt with
  | waiting => rfl
  | done result => cases result <;> rfl

/-- The name of the stream that is listened to. -/
theorem handle_of_name (h : Follows ch s x o) {name : String} (hname : o.names.find? name = some (ch, s)) :
    ∃ id, x.names.find? name = some (ch, id) ∧ (x.link.inbox ch).registered.find? s = some id := by
  have hrel := h.named name
  rw [hname] at hrel
  cases hx : x.names.find? name with
  | none => rw [hx] at hrel; cases hrel
  | some y =>
    rw [hx] at hrel
    cases hrel with
    | some hy =>
      obtain ⟨c, id⟩ := y
      obtain ⟨rfl, hy⟩ := hy
      exact ⟨id, rfl, (hy rfl).2 rfl⟩

/-- The name of a stream that is not listened to. -/
theorem handle_of_other (h : Follows ch s x o) {name : String} (hname : o.names.find? name ≠ some (ch, s)) :
    x.names.find? name = none ∨ ∃ c id, x.names.find? name = some (c, id)
      ∧ (c = ch → ∃ k, s ≠ k ∧ (x.link.inbox ch).ssrcOf id = some k) := by
  have hrel := h.named name
  cases hx : x.names.find? name with
  | none => exact .inl rfl
  | some y =>
    rw [hx] at hrel
    cases ho : o.names.find? name with
    | none => rw [ho] at hrel; cases hrel
    | some z =>
      rw [ho] at hrel hname
      cases hrel with
      | some hyz =>
        obtain ⟨c, id⟩ := y
        obtain ⟨c', k⟩ := z
        obtain ⟨rfl, hyz⟩ := hyz
        refine .inr ⟨c, id, rfl, fun hc => ⟨k, fun hs => hname ?_, (hyz hc).1⟩⟩
        rw [hs, hc]

/-- A read of the stream gives what is due next, and waits if nothing is. -/
theorem reply_read (h : Follows ch s x o) {name : String} (hname : o.names.find? name = some (ch, s)) (n : Nat) :
    (x.step (.read name n)).2 = ((o.due ch)[o.heard.length]?).elim .pending (fitted n) := by
  obtain ⟨id, hx, hreg⟩ := h.handle_of_name hname
  obtain ⟨-, -, -, hread⟩ := Inbox.read_spec h.hears.sound (h.hears.sound s id hreg) n s
  rw [step_read hx, (hread hreg).2, h.hears.stream, SecureStream.read_eq rfl]
  dsimp only
  cases (o.due ch)[o.heard.length]? with
  | none => rfl
  | some d => exact Reply.ofAttempt_done n d

/-- A stream is read. -/
theorem read (h : Follows ch s x o) (name : String) (n : Nat) :
    Follows ch s (x.step (.read name n)).1
      (if o.names.find? name = some (ch, s) ∧ (x.step (.read name n)).2.waits = false then
        { o with heard := o.heard ++ [(n, (x.step (.read name n)).2)] } else o) := by
  by_cases hname : o.names.find? name = some (ch, s)
  · obtain ⟨id, hx, hreg⟩ := h.handle_of_name hname
    obtain ⟨ha, hst, -, hread⟩ := Inbox.read_spec h.hears.sound (h.hears.sound s id hreg) n s
    have hreply := h.reply_read hname n
    have hbox := SecureLink.inbox_setInbox_self x.link ch ((x.link.inbox ch).readStream id n).1
    have hstream := (hread hreg).1
    rw [h.hears.stream, SecureStream.read_eq rfl] at hstream
    rw [hreply, step_read hx]
    cases hnext : (o.due ch)[o.heard.length]? with
    | none =>
      simp only [hnext] at hstream
      rw [if_neg (by simp [Reply.waits])]
      exact h.beside ha (hst.trans h.hears.flows) (hstream.trans h.hears.stream.symm)
    | some d =>
      simp only [hnext] at hstream
      rw [if_pos ⟨hname, waits_fitted n d⟩]
      refine h.relink (h.hears.taken_next _ _ (hbox.symm ▸ ha) (by rw [hbox, hst]; exact h.hears.flows)
        (by rw [hbox, hstream]) (List.getElem?_eq_some_iff.mp hnext).1 (SecureLink.wire_setInbox _ _ _)
        (SecureLink.indices_setInbox _ _ _)) (hbox.symm ▸ ha.toKeeps) rfl ?_
      show (o.heard ++ [(n, fitted n d)]).map (·.2)
        = List.zipWith fitted ((o.heard ++ [(n, fitted n d)]).map (·.1)) (o.due ch)
      rw [List.map_append, List.map_append, List.map_singleton, List.map_singleton,
        zipWith_concat (by rwa [List.length_map]), h.answered]
  · rw [if_neg (fun hc => hname hc.1)]
    rcases h.handle_of_other hname with hx | ⟨c, id, hx, hother⟩
    · have hstep : (x.step (.read name n)).1 = x := by simp [SecureSession.step, SecureSession.onStream, hx]
      rwa [hstep]
    · rw [step_read hx]
      by_cases hc : c = ch
      · subst hc
        obtain ⟨k, hk, hid⟩ := hother rfl
        obtain ⟨ha, hst, hs, -⟩ := Inbox.read_spec h.hears.sound hid n s
        exact h.beside ha (hst.trans h.hears.flows) (hs hk)
      · exact h.aside (SecureLink.inbox_setInbox_of_ne _ _ _ (Ne.symm hc)) (SecureLink.wire_setInbox _ _ _)
          fun _ => SecureLink.indices_setInbox _ _ _

/-- A stream that is not listened to is closed. -/
theorem close (h : Follows ch s x o) {name : String} (hname : o.names.find? name ≠ some (ch, s)) :
    Follows ch s (x.step (.close name)).1 o := by
  rcases h.handle_of_other hname with hx | ⟨c, id, hx, hother⟩
  · have hstep : (x.step (.close name)).1 = x := by simp [SecureSession.step, SecureSession.onStream, hx]
    rwa [hstep]
  · have hstep : (x.step (.close name)).1
        = { x with link := x.link.setInbox c ((x.link.inbox c).closeStream id) } := by
      simp [SecureSession.step, SecureSession.onStream, hx, SecureLink.closeStream]
    rw [hstep]
    by_cases hc : c = ch
    · subst hc
      obtain ⟨k, hk, hid⟩ := hother rfl
      obtain ⟨ha, hst, hs⟩ := Inbox.close_spec h.hears.sound hid hk h.hears.flows h.hears.backlog
      exact h.beside ha hst hs
    · exact h.aside (SecureLink.inbox_setInbox_of_ne _ _ _ (Ne.symm hc)) (SecureLink.wire_setInbox _ _ _)
        fun _ => SecureLink.indices_setInbox _ _ _

/-- A media packet is written. -/
theorem writeMedia (h : Follows ch s x o) (p : Rtp.Packet)
    (hflow : ((x.link.writeMedia p).1.inbox ch).stalled = false)
    (hroom : weight ((if ch = .media then o.post ch (mediaFor s p) else o).unread ch) ≤ Hears.room ch) :
    Follows ch s { x with link := (x.link.writeMedia p).1 } (if ch = .media then o.post ch (mediaFor s p) else o) := by
  cases ch with
  | media =>
    rw [if_pos rfl] at hroom ⊢
    obtain ⟨hl, hk⟩ := h.hears.writeMedia p hflow hroom
    exact h.relink hl hk rfl (h.answered_post _)
  | control =>
    obtain ⟨hbox, hwire⟩ := x.link.writeMedia_control p
    exact h.aside hbox hwire fun hch => by cases hch

/-- Control packets are written. -/
theorem writeControl (h : Follows ch s x o) (ps : List Rtcp.Packet)
    (hflow : ((x.link.writeControl ps).1.inbox ch).stalled = false)
    (hroom : weight ((if ch = .control ∧ o.wire = .up then o.post ch (controlFor s ps) else o).unread ch)
      ≤ Hears.room ch) :
    Follows ch s { x with link := (x.link.writeControl ps).1 }
      (if ch = .control ∧ o.wire = .up then o.post ch (controlFor s ps) else o) := by
  cases ch with
  | media =>
    obtain ⟨hbox, hwire, hi⟩ := x.link.writeControl_media ps
    exact h.aside hbox hwire fun _ => hi
  | control =>
    by_cases hup : o.wire = .up
    · rw [if_pos ⟨rfl, hup⟩] at hroom ⊢
      obtain ⟨hl, hk⟩ := h.hears.writeControl hup ps hflow hroom
      exact h.relink hl hk rfl (h.answered_post _)
    · rw [if_neg (fun hc => hup hc.2)]
      rw [x.link.writeControl_down (h.hears.wire.symm ▸ hup)]
      exact h

/-- The reader's session on a channel ends. -/
theorem finish (h : Follows ch s x o) (c : Channel) :
    Follows ch s { x with link := x.link.setInbox c (x.link.inbox c).finish.1 }
      (if c = ch then { o with finished := true } else o) := by
  by_cases hc : c = ch
  · subst hc
    rw [if_pos rfl]
    refine h.relink h.hears.finish ?_ rfl h.answered
    rw [SecureLink.inbox_setInbox_self]
    exact ⟨fun _ _ h => h, fun _ h => h⟩
  · rw [if_neg hc]
    exact h.aside (SecureLink.inbox_setInbox_of_ne _ _ _ (Ne.symm hc)) (SecureLink.wire_setInbox _ _ _)
      fun _ => SecureLink.indices_setInbox _ _ _

/-- One command. -/
theorem step (h : Follows ch s x o) {c : SecureCommand} (hd : c.isDirect = true)
    (hopen : (o.note ch s (c, (x.step c).2)).closed = false)
    (hflow : ((x.step c).1.link.inbox ch).stalled = false)
    (hroom : weight ((o.note ch s (c, (x.step c).2)).unread ch) ≤ Hears.room ch) :
    Follows ch s (x.step c).1 (o.note ch s (c, (x.step c).2)) := by
  cases c with
  | openStream name c k => exact h.openStream name c k
  | read name n => exact h.read name n
  | close name =>
    unfold Listener.note at hopen ⊢
    dsimp only at hopen ⊢
    split at hopen
    · cases hopen
    · next hname =>
      rw [if_neg hname]
      exact h.close hname
  | writeMedia p => exact h.writeMedia p hflow hroom
  | writeControl ps => exact h.writeControl ps hflow hroom
  | forward k p => exact h.writeMedia { p with ssrc := k } hflow hroom
  | setWire w =>
    exact h.relink (h.hears.stay rfl rfl rfl rfl rfl fun hch => h.hears.guard hch) (.refl s _) rfl h.answered
  | finish c => exact h.finish c
  | receive encodings => cases hd
  | bind rid ssrc => cases hd
  | stop => cases hd
  | readReceiver q => cases hd
  | unknown => exact h

end Follows

/-! ## Runs -/

namespace SecureSession

variable {r : Receiver Nat} {ch : Channel} {s : Ssrc} {cs : List SecureCommand}

/-- The session after commands, from the beginning, with a receiver on the reading side. -/
def after (r : Receiver Nat) (cs : List SecureCommand) : SecureSession :=
  (steps { receiver := r } cs).1

/-- Commands with their replies. -/
def transcript (r : Receiver Nat) (cs : List SecureCommand) : List (SecureCommand × Reply) :=
  cs.zip ((steps { receiver := r } cs).2.map (·.1))

/-- What a listener has noted after commands. -/
def listener (r : Receiver Nat) (ch : Channel) (s : Ssrc) (cs : List SecureCommand) : Listener :=
  (transcript r cs).foldl (Listener.note ch s) {}

theorem steps_concat (x : SecureSession) (cs : List SecureCommand) (c : SecureCommand) :
    (x.steps (cs ++ [c])).1 = ((x.steps cs).1.step c).1
      ∧ (x.steps (cs ++ [c])).2.map (·.1) = (x.steps cs).2.map (·.1) ++ [((x.steps cs).1.step c).2]
      ∧ (x.steps cs).2.length = cs.length := by
  induction cs generalizing x with
  | nil => exact ⟨rfl, rfl, rfl⟩
  | cons d cs ih =>
    obtain ⟨h, hr, hl⟩ := ih (x.step d).1
    exact ⟨h, congrArg ((x.step d).2 :: ·) hr, congrArg (· + 1) hl⟩

theorem after_concat (r : Receiver Nat) (cs : List SecureCommand) (c : SecureCommand) :
    after r (cs ++ [c]) = ((after r cs).step c).1 :=
  (steps_concat { receiver := r } cs c).1

theorem listener_concat (r : Receiver Nat) (cs : List SecureCommand) (c : SecureCommand) :
    listener r ch s (cs ++ [c]) = (listener r ch s cs).note ch s (c, ((after r cs).step c).2) := by
  obtain ⟨-, hr, hl⟩ := steps_concat { receiver := r } cs c
  unfold listener transcript
  rw [hr, List.zip_append (by rw [List.length_map, hl]), List.foldl_append]
  rfl

/-- The commands go to the transports themselves, no stream of the SSRC is closed, the inbox of the channel never
stalls, and what is unread never takes more room than a stream has. -/
structure Steady (r : Receiver Nat) (ch : Channel) (s : Ssrc) (cs : List SecureCommand) : Prop where
  direct : ∀ c ∈ cs, c.isDirect = true
  kept : (listener r ch s cs).closed = false
  flows : ∀ ds, ds <+: cs → ((after r ds).link.inbox ch).stalled = false
  roomy : ∀ ds, ds <+: cs → weight ((listener r ch s ds).unread ch) ≤ ({ channel := ch } : Inbox).capacity

/-- What was closed stays closed. -/
theorem closed_of_note {o : Listener} {c : SecureCommand} {reply : Reply}
    (h : (o.note ch s (c, reply)).closed = false) : o.closed = false := by
  cases c with
  | close name =>
    unfold Listener.note at h
    dsimp only at h
    split at h
    · cases h
    · exact h
  | read name n | writeMedia p | forward k p | writeControl ps | finish c =>
    unfold Listener.note at h
    dsimp only at h
    split at h <;> exact h
  | _ => exact h

theorem Steady.of_concat {c : SecureCommand} (h : Steady r ch s (cs ++ [c])) : Steady r ch s cs where
  direct d hd := h.direct d (List.mem_append_left _ hd)
  kept := closed_of_note (listener_concat r cs c ▸ h.kept)
  flows ds hds := h.flows ds (hds.trans (List.prefix_append _ _))
  roomy ds hds := h.roomy ds (hds.trans (List.prefix_append _ _))

/-- A steady run does what the listener notes. -/
theorem follows (h : Steady r ch s cs) : Follows ch s (after r cs) (listener r ch s cs) := by
  induction cs using List.reverseRecOn with
  | nil => exact .new r ch s
  | append_singleton cs c ih =>
    have hkept := h.kept
    have hflows := h.flows _ (List.prefix_refl _)
    have hroomy := h.roomy _ (List.prefix_refl _)
    rw [listener_concat] at hkept hroomy ⊢
    rw [after_concat] at hflows ⊢
    exact (ih h.of_concat).step (h.direct c (List.mem_append_right _ (List.mem_singleton_self c))) hkept hflows hroomy

/-- In a steady run the reads of an SSRC have given, in order, the first datagrams that are due, each with the reply
that its buffer asks for; the next read gives the next one and waits only if there is none. What is due is part of what
arrived for the SSRC, in order; on the control channel it is all of that, and on the media channel too if nothing was
lost and all sequence numbers were fresh. -/
theorem reads_after (h : Steady r ch s cs) :
    let o := listener r ch s cs
    o.heard.map (·.2) = List.zipWith fitted (o.heard.map (·.1)) (o.due ch)
      ∧ (∀ name n, o.names.find? name = some (ch, s) →
          ((after r cs).step (.read name n)).2 = ((o.due ch)[o.heard.length]?).elim .pending (fitted n))
      ∧ (o.due ch).Sublist (written o.postings)
      ∧ ((ch = .media → (∀ m ∈ o.postings, m.arrives = true) ∧ ReplayWindow.Fresh (o.postings.map (·.sequence))) →
          o.due ch = written o.postings) := by
  intro o
  have hf := follows h
  refine ⟨hf.answered, fun name n hname => hf.reply_read hname n, o.due_sublist ch, fun hfresh => ?_⟩
  cases ch with
  | media => exact Guard.passed_eq_written (hfresh rfl).1 (hfresh rfl).2
  | control => rfl

/-- The sequence numbers of an SSRC wrap around while another SSRC is written to. -/
theorem reads_after_wrap :
    let r : Receiver Nat := { kind := .video, mtu := 1460 }
    let p : Ssrc → UInt16 → Rtp.Packet := fun ssrc sequence => { ssrc, sequence, payload := [7] }
    let cs : List SecureCommand := [.openStream "a" .media 1, .writeMedia (p 1 65535), .writeMedia (p 2 9),
      .writeMedia (p 1 0), .read "a" 1500]
    Steady r .media 1 cs ∧ ((after r cs).step (.read "a" 1500)).2 = .data (.bytes (p 1 0).datagram) := by
  intro r p cs
  have hflows : ∀ ds ∈ cs.inits, ((after r ds).link.inbox .media).stalled = false := by decide +kernel
  have hroomy : ∀ ds ∈ cs.inits,
      weight ((listener r .media 1 ds).unread .media) ≤ ({ channel := .media } : Inbox).capacity := by decide +kernel
  have hmem : ∀ ds, ds <+: cs → ds ∈ cs.inits := fun ds hds => (List.mem_inits ds cs).mpr hds
  have h : Steady r .media 1 cs := ⟨by decide, by decide +kernel, fun ds hds => hflows ds (hmem ds hds),
    fun ds hds => hroomy ds (hmem ds hds)⟩
  obtain ⟨-, hread, -, -⟩ := reads_after h
  have hdue : ((listener r .media 1 cs).due .media)[(listener r .media 1 cs).heard.length]?
      = some (p 1 0).datagram := by decide +kernel
  exact ⟨h, by rw [hread "a" 1500 (by decide +kernel), hdue]; rfl⟩

/-- Reads wait though a packet was written: after nine other SSRCs, and after a sequence number was repeated. -/
theorem reads_withheld :
    let r : Receiver Nat := { kind := .video, mtu := 1460 }
    let p : Ssrc → Rtp.Packet := fun ssrc => { ssrc, sequence := 1, payload := [7] }
    let crowd : List SecureCommand := .openStream "a" .media 1
      :: ([2, 3, 4, 5, 6, 7, 8, 9, 10, 1].map fun ssrc => .writeMedia (p ssrc))
    let again : List SecureCommand := [.openStream "a" .media 1, .writeMedia (p 1), .writeMedia (p 1), .read "a" 1500]
    (written (listener r .media 1 crowd).postings = [(p 1).datagram] ∧ (listener r .media 1 crowd).heard.length = 0
        ∧ ((after r crowd).step (.read "a" 1500)).2.waits = true)
      ∧ written (listener r .media 1 again).postings = [(p 1).datagram, (p 1).datagram]
        ∧ (listener r .media 1 again).heard.length = 1 ∧ ((after r again).step (.read "a" 1500)).2.waits = true := by
  decide +kernel

end SecureSession

end MediaRelay
