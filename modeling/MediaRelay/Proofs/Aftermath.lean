import MediaRelay.Proofs.Binding
import MediaRelay.Proofs.Rollback

/-!
# Once the receiver was told to stop

A stop that succeeds is final: the receiver stays as it is and opens nothing (`sealed_invariant`). A stop that fails is
not: encodings are turned away from then on (`refuseReceive_of_closing`), but a layer that was not bound can still be
bound, and its streams are opened, until a later stop succeeds.

- `Change.Inert` is a change that opens nothing, and `Change.BindsLate` what is still possible (`afterStop_perform`);
- `after_stop_only_late_binding`: all changes once the receiver was told to stop;
- `bound_after_stop`: a layer that is bound after a stop that failed.
-/

namespace MediaRelay

open Receiver

/-! ## What is seen of layers -/

/-- What is seen of the layers. -/
def Receiver.seen (r : Receiver Ssrc) : List (String × Ssrc × Bool) :=
  r.layers.map fun l => (l.rid, l.ssrc, l.isReady)

/-- A stop, successful or not, changes nothing that is seen of the layers. -/
theorem Receiver.seen_stop {r : Receiver Ssrc} (h : r.Sound) (t : QueueTransport) : (r.stop t).1.seen = r.seen := by
  have hc := stop_closed h.received t
  unfold seen
  generalize r.layers = ls at hc ⊢
  generalize (r.stop t).1.layers = ls' at hc ⊢
  induction hc with
  | nil => rfl
  | cons h _ ih => rw [List.map_cons, List.map_cons, ih, h.rid_eq, h.ssrc_eq, h.isReady_eq]

/-- Nothing is opened in a change, and no layer gets an SSRC or becomes ready. -/
structure Change.Inert (x : Change) : Prop where
  opened : ∀ ch, (x.after.transport.channel ch).opened = (x.before.transport.channel ch).opened
  layers : x.after.receiver.seen = x.before.receiver.seen

/-- A layer is to be bound that is there and not bound, while no stop has succeeded, and at least its media stream can
be opened. -/
def Change.BindsLate (x : Change) : Prop :=
  ∃ rid ssrc reply, x.cause = .command (.receiver (.bind rid ssrc)) reply ∧ x.before.held = true
    ∧ x.before.receiver.phase = .receiving
    ∧ ∀ f ∈ x.before.receiver.bindFault? x.before.transport rid ssrc, f = .controlRefused

/-! ## Only two commands open streams -/

namespace QueueTransport

theorem opened_closeStream (t : QueueTransport) (ch : Channel) (ssrc : Ssrc) (ch' : Channel) :
    ((t.closeStream ch ssrc).1.channel ch').opened = (t.channel ch').opened :=
  t.opened_onStream ch ssrc (fun s => s.close (closeRefusal ssrc)) ch'

theorem opened_stop (t : QueueTransport) (r : Receiver Ssrc) (ch : Channel) :
    ((r.stop t).2.1.channel ch).opened = (t.channel ch).opened :=
  stop_keeps (P := fun u : QueueTransport => (u.channel ch).opened = (t.channel ch).opened)
    (fun u ch' ssrc hu => (u.opened_closeStream ch' ssrc ch).trans hu) r rfl

theorem opened_refuseOpen (t : QueueTransport) (ch : Channel) (ssrc : Ssrc) (ch' : Channel) :
    ((t.refuseOpen ch ssrc).channel ch').opened = (t.channel ch').opened := by
  unfold refuseOpen
  by_cases hc : ch' = ch
  · subst hc
    rw [channel_setChannel_self]
  · rw [channel_setChannel_of_ne _ _ hc]

/-- What a late call opens: the media stream at least. -/
theorem opened_bind {t : QueueTransport} {r : Receiver Ssrc} {rid : String} {ssrc : Ssrc}
    (h : ∀ f ∈ r.bindFault? t rid ssrc, f = .controlRefused) :
    ((r.bind t rid ssrc).2.1.channel .media).opened = (t.channel .media).opened ++ [ssrc] := by
  have hm : ssrc ∉ (t.channel .media).refusesOpen := by
    have hn := not_applies_of_bindFault? (BindFault.early ++ [.mediaRefused]) [.controlRefused] rfl
      (fun f hf => by rw [h f hf]; decide) (f := .mediaRefused) (by decide)
    simpa [BindFault.applies] using hn
  have ho : ((t.openStream .media ssrc).1.channel .media).opened = (t.channel .media).opened ++ [ssrc] := by
    rw [opened_openStream, openStream_snd, if_neg hm]
    simp [openedOf, Except.isOk, Except.toBool]
  rw [bind_eq]
  cases hf : r.bindFault? t rid ssrc with
  | none =>
    dsimp only
    rw [opened_openStream, ho]
    simp [openedOf]
  | some f =>
    dsimp only
    rw [if_pos (h f hf), opened_closeStream, ho]

end QueueTransport

theorem Hub.opened_read (h : Hub) (q : Read) (ch : Channel) :
    ((h.read q).1.transport.channel ch).opened = (h.transport.channel ch).opened := by
  cases ht : h.target? q with
  | none => rw [(read_of_no_target ht).1]
  | some x =>
    obtain ⟨ch', ssrc, n⟩ := x
    rw [read_of_target ht]
    exact h.transport.opened_onStream ch' ssrc (fun s => s.read n) ch

namespace Session

variable {s : Session} {c : Command} {g : Hub} {names : Table String Token}

/-- Only calls to receive and to bind a layer open streams. -/
theorem Deed.opened (d : s.Deed c g names) (hr : ∀ es, c ≠ .receiver (.receive es))
    (hb : ∀ rid ssrc, c ≠ .receiver (.bind rid ssrc)) (ch : Channel) :
    (g.transport.channel ch).opened = (s.hub.transport.channel ch).opened := by
  cases d with
  | receiveFailed | receive => exact absurd rfl (hr _)
  | bind => exact absurd rfl (hb _ _)
  | read q => exact s.hub.opened_read q ch
  | stop => exact s.hub.transport.opened_stop _ ch
  | refuseOpen ch' ssrc => exact s.hub.transport.opened_refuseOpen ch' ssrc ch
  | refuseClose ch' ssrc b =>
    exact s.hub.transport.opened_onStream ch' ssrc (fun q => ({ q with refusesClose := b }, ())) ch
  | push ch' ssrc d => exact s.hub.transport.opened_onStream ch' ssrc (fun q => q.push d) ch
  | close ch' ssrc => exact s.hub.transport.opened_closeStream ch' ssrc ch
  | readStream ch' ssrc n => exact s.hub.transport.opened_onStream ch' ssrc (fun q => q.read n) ch
  | startRelay => rw [Hub.transport_startRelay]
  | _ => rfl

/-! ## Calls once the receiver was told to stop -/

/-- A receiver that was told to stop turns all encodings away. -/
theorem refuseReceive_of_closing {r : Receiver Ssrc} (hs : r.Sound) (hc : r.closing = true)
    (hu : r.received = false → r.phase = if r.closing then .stopped else .created) (es : List Encoding) :
    ∃ e, r.refuseReceive es = some e := by
  cases hr : r.refuseReceive es with
  | some e => exact ⟨e, rfl⟩
  | none =>
    obtain ⟨-, -, hp, ha⟩ := of_refuseReceive hr
    have hrec : r.received = false := Bool.eq_false_iff.mpr fun h => by
      rw [hs.attempted h] at ha
      cases ha
    have hphase := hu hrec
    rw [hc] at hphase
    exact absurd hphase hp

theorem perform_receive_of_refused {e : Error} {es : List Encoding} (hr : s.hub.receiver.refuseReceive es = some e) :
    (s.perform (.receiver (.receive es))).1 = s ∧ ∀ v, (s.perform (.receiver (.receive es))).2 ≠ .track v := by
  cases hh : s.hub.held with
  | false =>
    rw [perform_of_not_held hh rfl]
    exact ⟨rfl, by intro _ h; cases h⟩
  | true =>
    rw [perform_receive hh, receive_of_refused hr]
    exact ⟨rfl, by intro _ h; cases h⟩

/-- A call to bind a layer that does not come to open a stream leaves everything as it was. -/
theorem perform_bind_of_fault {rid : String} {ssrc : Ssrc}
    (h : s.hub.held = true → ∃ f, s.hub.receiver.bindFault? s.hub.transport rid ssrc = some f ∧ f ≠ .controlRefused) :
    (s.perform (.receiver (.bind rid ssrc))).1 = s := by
  cases hh : s.hub.held with
  | false => rw [perform_of_not_held hh rfl]
  | true =>
    obtain ⟨f, hf, hne⟩ := h hh
    rw [perform_bind hh, bind_eq, hf]
    dsimp only
    rw [if_neg hne]
    rfl

/-- A layer can be bound only while the receiver receives. -/
theorem receiving_of_bindFault? {r : Receiver Ssrc} {t : QueueTransport} {rid : String} {ssrc : Ssrc} (hs : r.Sound)
    (h : ∀ f ∈ r.bindFault? t rid ssrc, f = .controlRefused) : r.phase = .receiving := by
  obtain ⟨hp, l, hl, -⟩ := unbound_of_bindFault? fun f hf => by rw [h f hf]; decide
  have ht := track_of_layers_ne_nil (List.ne_nil_of_mem (List.mem_of_find?_eq_some hl))
  cases hr : r.phase with
  | receiving => rfl
  | stopped => exact absurd hr hp
  | unspecified => exact absurd hr hs.specified
  | created =>
    have := hs.created hr
    rw [hs.received, ht] at this
    cases this

/-! ## Changes -/

/-- A change that neither receives nor binds a layer is inert. -/
theorem inert_perform (hs : s.hub.receiver.Sound) (hc : ∀ n, c ≠ .advance n)
    (hr : ∀ es, c ≠ .receiver (.receive es)) (hb : ∀ rid ssrc, c ≠ .receiver (.bind rid ssrc)) (reply : Reply) :
    (Change.mk (.command c reply) s.hub (s.perform c).1.hub).Inert := by
  have d := deed_of_perform (s := s) hc
  refine ⟨d.opened hr hb, ?_⟩
  rcases d.receiver_cases with ⟨he, -⟩ | ⟨es, rfl, -⟩ | ⟨rid, ssrc, rfl, -⟩ | ⟨-, -, he⟩
  · exact congrArg seen he
  · exact absurd rfl (hr es)
  · exact absurd rfl (hb rid ssrc)
  · exact (congrArg seen he).trans (seen_stop hs _)

theorem inert_of_hub_eq {h : Hub} (cause : Cause) (hg : g = h) : (Change.mk cause h g).Inert := by
  subst hg
  exact ⟨fun _ => rfl, rfl⟩

end Session

/-- A change once the receiver was told to stop. -/
structure Change.AfterStop (x : Change) : Prop where
  /-- Nothing is received any more. -/
  receive : ∀ es reply, x.cause = .command (.receiver (.receive es)) reply → x.after = x.before ∧ ∀ v, reply ≠ .track v
  /-- Once a stop has succeeded the receiver stays as it is and opens nothing. -/
  stopped : x.before.receiver.phase = .stopped →
    x.after.receiver = x.before.receiver
      ∧ ∀ ch, (x.after.transport.channel ch).opened = (x.before.transport.channel ch).opened
  /-- Until then layers can be bound that were not, and nothing but that opens a stream or is seen of the layers. -/
  inert : x.Inert ↔ ¬ x.BindsLate

namespace Session

variable {s : Session} {c : Command} {g : Hub}

theorem afterStop_move {t : Task} (hm : s.hub.mover? = some (t, g)) : (Change.mk (.move t) s.hub g).AfterStop := by
  have hmove := (Hub.of_mover? hm).2
  have hr := (Hub.move_of_move? hmove).framed.receiver
  have ho := fun ch => Hub.opened_move hmove ch
  refine ⟨fun _ _ h => (by cases h), fun _ => ⟨hr, ho⟩, fun _ => ?_, fun _ => ⟨ho, congrArg seen hr⟩⟩
  rintro ⟨_, _, _, h, -⟩
  cases h

/-- Encodings that are turned away leave everything as it was. -/
theorem afterStop_receive {es : List Encoding} (h : ∃ e, s.hub.receiver.refuseReceive es = some e) :
    (Change.mk (.command (.receiver (.receive es)) (s.perform (.receiver (.receive es))).2) s.hub
      (s.perform (.receiver (.receive es))).1.hub).AfterStop := by
  obtain ⟨e, he⟩ := h
  obtain ⟨hsame, hreply⟩ := perform_receive_of_refused he
  have hhub := congrArg Session.hub hsame
  refine ⟨?_, fun _ => ⟨congrArg Hub.receiver hhub, fun ch => by rw [hhub]⟩, fun _ => ?_,
    fun _ => inert_of_hub_eq _ hhub⟩
  · rintro _ _ ⟨⟩
    exact ⟨hhub, hreply⟩
  · rintro ⟨_, _, _, h, -⟩
    cases h

/-- A layer can be bound, or else everything is left as it was. -/
theorem afterStop_bind (hs : s.hub.receiver.Sound) (rid : String) (ssrc : Ssrc) :
    (Change.mk (.command (.receiver (.bind rid ssrc)) (s.perform (.receiver (.bind rid ssrc))).2) s.hub
      (s.perform (.receiver (.bind rid ssrc))).1.hub).AfterStop := by
  by_cases hl : s.hub.held = true ∧ ∀ f ∈ s.hub.receiver.bindFault? s.hub.transport rid ssrc, f = .controlRefused
  · obtain ⟨hh, hf⟩ := hl
    have hphase := receiving_of_bindFault? hs hf
    refine ⟨by rintro _ _ ⟨⟩, fun hp => ?_, fun hi => ?_, fun hn => absurd ⟨rid, ssrc, _, rfl, hh, hphase, hf⟩ hn⟩
    · rw [hphase] at hp
      cases hp
    · -- at least the media stream has been opened
      have ho := hi.opened .media
      rw [perform_bind hh] at ho
      have ho' := QueueTransport.opened_bind hf
      rw [show ((s.hub.receiver.bind s.hub.transport rid ssrc).2.1.channel .media).opened = _ from ho] at ho'
      simp at ho'
  · have hsame : (s.perform (.receiver (.bind rid ssrc))).1 = s := perform_bind_of_fault fun hh => by
      by_contra hn
      exact hl ⟨hh, fun f hf => by_contra fun hne => hn ⟨f, hf, hne⟩⟩
    have hhub := congrArg Session.hub hsame
    refine ⟨by rintro _ _ ⟨⟩, fun _ => ⟨congrArg Hub.receiver hhub, fun ch => by rw [hhub]⟩, fun _ => ?_,
      fun _ => inert_of_hub_eq _ hhub⟩
    rintro ⟨_, _, _, ⟨⟩, hh, -, hf⟩
    exact hl ⟨hh, hf⟩

/-- No other command opens streams, or does anything to the layers that is seen. -/
theorem afterStop_other (hs : s.hub.receiver.Sound) (hc : ∀ n, c ≠ .advance n)
    (hr : ∀ es, c ≠ .receiver (.receive es)) (hb : ∀ rid ssrc, c ≠ .receiver (.bind rid ssrc)) :
    (Change.mk (.command c (s.perform c).2) s.hub (s.perform c).1.hub).AfterStop := by
  have hi := inert_perform hs hc hr hb (s.perform c).2
  refine ⟨fun es _ he => ?_, fun hp => ⟨?_, hi.opened⟩, fun _ => ?_, fun _ => hi⟩
  · cases he
    exact absurd rfl (hr es)
  · rcases (deed_of_perform (s := s) hc).receiver_cases with
      ⟨he, -⟩ | ⟨es, rfl, -⟩ | ⟨rid, ssrc, rfl, -⟩ | ⟨-, -, he⟩
    · exact he
    · exact absurd rfl (hr es)
    · exact absurd rfl (hb rid ssrc)
    · exact he.trans (congrArg Prod.fst (stop_of_stopped hp _))
  · rintro ⟨rid, ssrc, _, ⟨⟩, -⟩
    exact hb rid ssrc rfl

theorem afterStop_perform (hs : s.hub.receiver.Sound) (hcl : s.hub.receiver.closing = true)
    (hu : s.hub.receiver.received = false → s.hub.receiver.phase = if s.hub.receiver.closing then .stopped else .created)
    (hc : ∀ n, c ≠ .advance n) : (Change.mk (.command c (s.perform c).2) s.hub (s.perform c).1.hub).AfterStop := by
  by_cases hr : ∃ es, c = .receiver (.receive es)
  · obtain ⟨es, rfl⟩ := hr
    exact afterStop_receive (refuseReceive_of_closing hs hcl hu es)
  by_cases hb : ∃ rid ssrc, c = .receiver (.bind rid ssrc)
  · obtain ⟨rid, ssrc, rfl⟩ := hb
    exact afterStop_bind hs rid ssrc
  · exact afterStop_other hs hc (not_exists.mp hr) fun rid ssrc he => hb ⟨rid, ssrc, he⟩

/-! ## Runs -/

/-- A receiver that has stopped is as it was at some time, and so is what was opened. -/
structure Sealed (r : Receiver Ssrc) (opened : Channel → List Ssrc) (s : Session) : Prop where
  sound : s.hub.receiver.Sound
  phase : s.hub.receiver.phase = .stopped
  receiver : s.hub.receiver = r
  opened : ∀ ch, (s.hub.transport.channel ch).opened = opened ch

theorem sealed_invariant (r : Receiver Ssrc) (opened : Channel → List Ssrc) :
    Invariant fun s _ => s.Sealed r opened where
  move s _ t g h hm := by
    obtain ⟨hr, ho⟩ := (afterStop_move hm).stopped h.phase
    have hr : g.receiver = s.hub.receiver := hr
    exact ⟨hr ▸ h.sound, hr ▸ h.phase, hr.trans h.receiver, fun ch => (ho ch).trans (h.opened ch)⟩
  clock _ _ _ h := ⟨h.sound, h.phase, h.receiver, h.opened⟩
  command s _ c h hc := by
    have hcl := (h.sound.stopped h.phase).1
    obtain ⟨hr, ho⟩ := (afterStop_perform h.sound hcl (fun _ => by rw [h.phase, if_pos hcl]) hc).stopped h.phase
    have hr : (s.perform c).1.hub.receiver = s.hub.receiver := hr
    exact ⟨hr ▸ h.sound, hr ▸ h.phase, hr.trans h.receiver, fun ch => (ho ch).trans (h.opened ch)⟩
  shown _ _ h := ⟨h.sound, h.phase, h.receiver, h.opened⟩

/-- Once the receiver was told to stop nothing is received, and nothing opens a stream or changes what is seen of a
layer but that layers are bound that were not; once a stop has succeeded the receiver stays as it is for good, and
opens nothing any more. -/
theorem after_stop_only_late_binding (settings : Settings) (kind : Kind) (cs ds : List Command)
    (hstop : wasStopped ((new settings kind).history cs) = true) :
    let s := (new settings kind).after cs
    (∀ x ∈ s.history ds, x.AfterStop)
      ∧ (s.hub.receiver.phase = .stopped → (s.after ds).hub.receiver = s.hub.receiver
        ∧ ∀ ch, ((s.after ds).hub.transport.channel ch).opened = (s.hub.transport.channel ch).opened) := by
  intro s
  constructor
  · have along : Along (fun past x => wasStopped past = true → x.AfterStop) ((new settings kind).history cs)
        (s.history ds) := by
      refine (told_invariant.and unreceived_invariant).along (fun _ _ _ _ _ hm _ => afterStop_move hm)
        (fun _ _ _ h hc hw => ?_) ds ⟨told_after settings kind cs, (accounted_after settings kind cs).sound,
          unreceived_after settings kind cs⟩
      exact afterStop_perform h.2.1 (h.1.closing.trans hw) (fun hr => (h.2.2 hr).phase) hc
    intro x hx
    obtain ⟨done, hd⟩ := along.of_mem hx
    exact hd (by rw [wasStopped, List.any_append, Bool.or_eq_true]; exact .inl hstop)
  · intro hp
    have h := @Invariant.after _ (sealed_invariant s.hub.receiver fun ch => (s.hub.transport.channel ch).opened) ds s []
      ⟨(accounted_after settings kind cs).sound, hp, rfl, fun _ => rfl⟩
    exact ⟨h.receiver, h.opened⟩

/-- A stop that fails, a layer that is bound after it, a stop that succeeds, and a layer that is not bound after it. -/
theorem after_stop_only_late_binding_retried :
    let cs : List Command := [.receiver (.receive [⟨"q", 1⟩, ⟨"h", 0⟩, ⟨"f", 0⟩]),
      .transport (.refuseClose .control 1 true), .receiver .stop]
    let ds : List Command := [.receiver (.bind "h" 2), .transport (.refuseClose .control 1 false), .receiver .stop]
    let u := (new {} .video).after (cs ++ ds)
    wasStopped ((new {} .video).history cs) = true
      ∧ (∀ x ∈ ((new {} .video).after cs).history ds, x.AfterStop)
      ∧ (u.after [.receiver (.bind "f" 3)]).hub.receiver = u.hub.receiver :=
  ⟨by decide +kernel, (after_stop_only_late_binding {} .video _ _ (by decide +kernel)).1,
    ((after_stop_only_late_binding {} .video _ _ (by decide +kernel)).2 (by decide +kernel)).1⟩

/-- A layer is bound after the receiver was told to stop: the stop has failed, and both streams are opened. -/
theorem bound_after_stop :
    let cs : List Command := [.receiver (.receive [⟨"q", 1⟩, ⟨"h", 0⟩]), .transport (.refuseClose .control 1 true),
      .receiver .stop]
    let s := (new {} .video).after cs
    let u := s.after [.receiver (.bind "h" 2)]
    wasStopped ((new {} .video).history cs) = true
      ∧ s.hub.receiver.seen = [("q", 1, true), ("h", 0, false)]
      ∧ s.hub.transport.media.opened = [1] ∧ s.hub.transport.control.opened = [1]
      ∧ u.hub.receiver.seen = [("q", 1, true), ("h", 2, true)]
      ∧ u.hub.transport.media.opened = [1, 2] ∧ u.hub.transport.control.opened = [1, 2] := by
  decide +kernel

end Session

end MediaRelay
