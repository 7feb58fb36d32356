import MediaRelay.Transport.Queue

/-!
# What happens to the streams of a queue transport

- an operation on one stream leaves all others alone (`stream_onStream_of_ne`), and so do opening and refusing;
- `QueueStream.Onward`: a stream forgets nothing that it accepted or gave away, and never opens again; every
  operation leads onward (`onward_push`, `onward_read`, `Untouched.onward`);
- `QueueStream.Untouched`: nothing was pushed or read, only closed perhaps.
-/

namespace MediaRelay

/-! ## Single streams -/

namespace QueueStream

/-- No more datagrams were taken than accepted. -/
def Sound (s : QueueStream) : Prop :=
  s.taken ≤ s.accepted.length

/-- A later state of the same stream. -/
structure Onward (s s' : QueueStream) : Prop where
  accepted : s.accepted <+: s'.accepted
  taken : s.taken ≤ s'.taken
  closed : s.closed → s'.closed
  sound : s.Sound → s'.Sound

/-- A later state of the same stream, to which nothing was pushed and of which nothing was read. -/
structure Untouched (s s' : QueueStream) : Prop where
  accepted : s'.accepted = s.accepted
  taken : s'.taken = s.taken
  closed : s.closed → s'.closed

variable {s s' s'' : QueueStream}

theorem Onward.refl (s : QueueStream) : s.Onward s :=
  ⟨List.prefix_refl _, Nat.le_refl _, id, id⟩

theorem Onward.trans (h : s.Onward s') (h' : s'.Onward s'') : s.Onward s'' :=
  ⟨h.accepted.trans h'.accepted, Nat.le_trans h.taken h'.taken, h'.closed ∘ h.closed, h'.sound ∘ h.sound⟩

theorem Untouched.refl (s : QueueStream) : s.Untouched s :=
  ⟨rfl, rfl, id⟩

theorem Untouched.trans (h : s.Untouched s') (h' : s'.Untouched s'') : s.Untouched s'' :=
  ⟨h'.accepted.trans h.accepted, h'.taken.trans h.taken, h'.closed ∘ h.closed⟩

theorem Untouched.onward (h : s.Untouched s') : s.Onward s' where
  accepted := h.accepted ▸ List.prefix_refl _
  taken := Nat.le_of_eq h.taken.symm
  closed := h.closed
  sound hs := by unfold Sound; rw [h.accepted, h.taken]; exact hs

theorem onward_push (s : QueueStream) (d : Datagram) : s.Onward (s.push d).1 := by
  unfold push
  split
  · exact .refl s
  · refine ⟨List.prefix_append _ _, Nat.le_refl _, id, fun hs => ?_⟩
    simp only [Sound, List.length_append] at hs ⊢
    omega

/-- What a read does: it fails on a closed stream, waits on an empty one, and otherwise takes the first datagram. -/
theorem read_cases (s : QueueStream) (n : Nat) :
    (s.closed = true ∧ s.read n = (s, .done (.error .closedPipe)))
      ∨ (s.closed = false ∧ s.queued = [] ∧ s.read n = (s, .waiting))
      ∨ ∃ d, s.closed = false ∧ s.accepted[s.taken]? = some d
          ∧ s.read n = ({ s with taken := s.taken + 1 },
            .done (if n < d.length then .error .shortBuffer else .ok d)) := by
  unfold read
  cases hc : s.closed with
  | true => exact .inl ⟨rfl, rfl⟩
  | false =>
    cases hq : s.queued with
    | nil => exact .inr (.inl ⟨rfl, rfl, rfl⟩)
    | cons d ds =>
      refine .inr (.inr ⟨d, rfl, ?_, rfl⟩)
      have h := congrArg List.head? hq
      rwa [queued, List.head?_drop] at h

theorem onward_read (s : QueueStream) (n : Nat) : s.Onward (s.read n).1 := by
  rcases s.read_cases n with ⟨-, h⟩ | ⟨-, -, h⟩ | ⟨d, -, hd, h⟩ <;> rw [h]
  · exact .refl s
  · exact .refl s
  · exact ⟨List.prefix_refl _, Nat.le_succ _, id, fun _ => (List.getElem?_eq_some_iff.mp hd).1⟩

theorem untouched_close (s : QueueStream) (e : Error) : s.Untouched (s.close e).1 := by
  unfold close
  dsimp only
  split
  · exact ⟨rfl, rfl, id⟩
  · exact ⟨rfl, rfl, fun _ => rfl⟩

end QueueStream

/-! ## The streams of a transport -/

namespace QueueTransport

@[simp] theorem channel_setChannel_self (t : QueueTransport) (ch : Channel) (c : QueueChannel) :
    (t.setChannel ch c).channel ch = c := by
  cases ch <;> rfl

theorem channel_setChannel_of_ne (t : QueueTransport) {ch ch' : Channel} (c : QueueChannel) (h : ch' ≠ ch) :
    (t.setChannel ch c).channel ch' = t.channel ch' := by
  cases ch <;> cases ch' <;> first | rfl | exact absurd rfl h

variable {α : Type} (t : QueueTransport) (ch : Channel) (ssrc : Ssrc) (f : QueueStream → QueueStream × α)

theorem stream_onStream_self : (t.onStream ch ssrc f).1.stream ch ssrc = (f (t.stream ch ssrc)).1 := by
  simp [onStream, stream, QueueChannel.stream, QueueChannel.setStream]

theorem stream_onStream_of_ne {ch' : Channel} {ssrc' : Ssrc} (h : ¬ (ch' = ch ∧ ssrc' = ssrc)) :
    (t.onStream ch ssrc f).1.stream ch' ssrc' = t.stream ch' ssrc' := by
  simp only [onStream, stream]
  by_cases hc : ch' = ch
  · subst hc
    have hs : ssrc' ≠ ssrc := fun e => h ⟨rfl, e⟩
    simp [QueueChannel.stream, QueueChannel.setStream, hs]
  · rw [channel_setChannel_of_ne _ _ hc]

/-- The result of an operation on a stream is that of the operation. -/
@[simp] theorem onStream_snd : (t.onStream ch ssrc f).2 = (f (t.stream ch ssrc)).2 := rfl

theorem refusesOpen_onStream (ch' : Channel) :
    ((t.onStream ch ssrc f).1.channel ch').refusesOpen = (t.channel ch').refusesOpen := by
  simp only [onStream]
  by_cases hc : ch' = ch
  · subst hc; rw [channel_setChannel_self]; rfl
  · rw [channel_setChannel_of_ne _ _ hc]

/-- Changing what a channel knows besides its streams changes no stream. -/
theorem stream_setChannel_of_streams_eq (c : QueueChannel) (hc : c.streams = (t.channel ch).streams) (ch' : Channel)
    (ssrc' : Ssrc) : (t.setChannel ch c).stream ch' ssrc' = t.stream ch' ssrc' := by
  simp only [stream]
  by_cases h : ch' = ch
  · subst h; rw [channel_setChannel_self, QueueChannel.stream, hc]; rfl
  · rw [channel_setChannel_of_ne _ _ h]

theorem stream_openStream (ch' : Channel) (ssrc' : Ssrc) :
    (t.openStream ch ssrc).1.stream ch' ssrc' = t.stream ch' ssrc' := by
  unfold openStream
  dsimp only
  split
  · rfl
  · apply stream_setChannel_of_streams_eq
    rfl

/-- A relation that holds between each stream and itself, and between a stream and what an operation makes of it,
holds for all streams when the operation is carried out on one of them. -/
theorem forall_onStream {R : QueueStream → QueueStream → Prop} (refl : ∀ s, R s s) (hf : ∀ s, R s (f s).1)
    (ch' : Channel) (ssrc' : Ssrc) : R (t.stream ch' ssrc') ((t.onStream ch ssrc f).1.stream ch' ssrc') := by
  by_cases h : ch' = ch ∧ ssrc' = ssrc
  · obtain ⟨rfl, rfl⟩ := h
    rw [stream_onStream_self]
    exact hf _
  · rw [stream_onStream_of_ne _ _ _ _ h]
    exact refl _

/-- A later state of the same transport. -/
def Onward (t t' : QueueTransport) : Prop :=
  ∀ ch ssrc, (t.stream ch ssrc).Onward (t'.stream ch ssrc)

/-- A later state of the same transport, to which nothing was pushed and of which nothing was read. -/
def Untouched (t t' : QueueTransport) : Prop :=
  ∀ ch ssrc, (t.stream ch ssrc).Untouched (t'.stream ch ssrc)

theorem Untouched.onward {t t' : QueueTransport} (h : t.Untouched t') : t.Onward t' :=
  fun ch ssrc => (h ch ssrc).onward

theorem Untouched.queued {t t' : QueueTransport} (h : t.Untouched t') {ch : Channel} {ssrc : Ssrc} :
    (t'.stream ch ssrc).queued = (t.stream ch ssrc).queued := by
  rw [QueueStream.queued, (h ch ssrc).accepted, (h ch ssrc).taken, QueueStream.queued]

theorem onward_read (n : Nat) : t.Onward (t.readStream ch ssrc n).1 :=
  t.forall_onStream ch ssrc _ .refl fun s => s.onward_read n

theorem onward_push (d : Datagram) : t.Onward (t.push ch ssrc d).1 :=
  t.forall_onStream ch ssrc _ .refl fun s => s.onward_push d

theorem stream_push_of_ne (d : Datagram) {ch' : Channel} {ssrc' : Ssrc} (h : ¬ (ch' = ch ∧ ssrc' = ssrc)) :
    (t.push ch ssrc d).1.stream ch' ssrc' = t.stream ch' ssrc' :=
  stream_onStream_of_ne _ _ _ _ h

/-- A datagram that comes to an open stream where there was nothing to read is all that there is. -/
theorem stream_push_of_open (hc : (t.stream ch ssrc).closed = false) (hq : (t.stream ch ssrc).queued = [])
    (d : Datagram) : ((t.push ch ssrc d).1.stream ch ssrc).closed = false
      ∧ ((t.push ch ssrc d).1.stream ch ssrc).queued.length ≤ 1 := by
  rw [push, stream_onStream_self, QueueStream.push, if_neg (by simp [hc])]
  refine ⟨hc, ?_⟩
  simp only [QueueStream.queued, List.drop_eq_nil_iff, List.length_drop, List.length_append,
    List.length_singleton] at hq ⊢
  omega

theorem onward_refuseClose (b : Bool) : t.Onward (t.refuseClose ch ssrc b) :=
  t.forall_onStream ch ssrc _ .refl fun _ => ⟨List.prefix_refl _, Nat.le_refl _, id, id⟩

theorem untouched_close : t.Untouched (t.closeStream ch ssrc).1 :=
  t.forall_onStream ch ssrc _ .refl fun s => s.untouched_close _

theorem untouched_open : t.Untouched (t.openStream ch ssrc).1 := fun ch' ssrc' => by
  rw [stream_openStream]
  exact .refl _

theorem untouched_refuseOpen : t.Untouched (t.refuseOpen ch ssrc) := fun ch' ssrc' => by
  have h : (t.refuseOpen ch ssrc).stream ch' ssrc' = t.stream ch' ssrc' := by
    apply stream_setChannel_of_streams_eq
    rfl
  rw [h]
  exact .refl _

end QueueTransport

end MediaRelay
