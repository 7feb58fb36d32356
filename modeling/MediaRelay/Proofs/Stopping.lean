import MediaRelay.Proofs.Lasting

/-!
# The receiver in every run

- `receiver_consistent`: the parts of the receiver agree in every state, and no step undoes anything;
- `teardown_orderly`: stops close the streams of the layers in order, each at most once, and can be tried again until
  all streams are closed.
-/

namespace MediaRelay

/-! ## The parts of the receiver -/

/-- The parts of a receiver agree with each other and with what stops have closed. -/
structure Receiver.Consistent (r : Receiver Ssrc) (past : List Change) : Prop where
  specified : r.phase ≠ .unspecified
  received : r.received = true ↔ r.track.isSome = true
  created : r.phase = .created → r.received = false
  receiving : r.phase = .receiving → r.received = true
  stopped : r.phase = .stopped → r.closing = true
  ready : ∀ l ∈ r.layers, l.isReady = true ↔ l.ssrc ≠ 0
  /-- Before the first attempt to stop, a layer that is ready has both its streams. -/
  bound : r.closing = false → ∀ l ∈ r.layers, l.isReady → l.binding = .bound l.ssrc l.ssrc false
  /-- A layer that is ready and has no streams any more has had both closed by stops. -/
  released : ∀ l ∈ r.layers, l.isReady → (∀ m c cc, l.binding ≠ .bound m c cc) →
    ClosedByStop past .control l.ssrc ∧ ClosedByStop past .media l.ssrc

theorem Receiver.Accounted.consistent {r : Receiver Ssrc} {past : List Change} (h : r.Accounted past) :
    r.Consistent past where
  specified := h.sound.specified
  received := by rw [h.sound.received]
  created := h.sound.created
  receiving := h.sound.receiving
  stopped hs := (h.sound.stopped hs).1
  ready := h.sound.ready
  bound hc l hl hr := by
    obtain ⟨m, c, hb⟩ := h.sound.bound hc l hl hr
    obtain ⟨rfl, rfl⟩ := h.named l hl m c false hb
    exact hb
  released l hl hr hn := by
    have hnil : l.toClose = [] := by
      unfold Layer.toClose
      cases hb : l.binding with
      | bound m c cc => exact absurd hb (hn m c cc)
      | _ => rfl
    have hc : ∀ ch, ClosedByStop past ch l.ssrc := fun ch => by
      rcases h.covered l hl hr ch with hx | hx
      · rw [hnil] at hx
        cases hx
      · exact hx
    exact ⟨hc .control, hc .media⟩

/-- In every state of every session the parts of the receiver agree, and no step undoes any of them. -/
theorem Session.receiver_consistent (settings : Settings) (kind : Kind) (cs : List Command) :
    let s := (Session.new settings kind).after cs
    s.hub.receiver.Consistent ((Session.new settings kind).history cs)
      ∧ ∀ c, s.hub.receiver.Onward (s.step c).1.hub.receiver := by
  have h := accounted_after settings kind cs
  exact ⟨h.consistent, fun c => (grown_after h.sound [c]).first.receiver⟩

/-! ## Orderly teardown -/

/-- Whether a change binds a layer, if it does, for an SSRC that no other layer has. -/
def Change.bindsFresh (x : Change) : Bool :=
  match x.cause with
  | .command (.receiver (.bind rid ssrc)) _ => x.before.receiver.layers.all fun l => l.ssrc ≠ ssrc || l.rid = rid
  | _ => true

/-- The media stream of a layer is closed after its control stream, perhaps by a later stop. -/
def ControlFirst (log : List (Closing Ssrc)) : Prop :=
  ∀ done c rest, log = done ++ c :: rest → c.channel = .media → ⟨.control, c.stream, .ok ()⟩ ∈ done

/-- Stops in the later part of a run close streams in order, each at most once, until all are closed. -/
structure OrderlyTeardown (earlier later : List Change) (r : Receiver Ssrc) : Prop where
  /-- A stop goes through the streams that are still to be closed, layer by layer, up to the first that fails. It
  succeeds if all its attempts do, and only then the receiver is stopped. -/
  sweep : ∀ x ∈ later, ∀ reply, x.cause = .command (.receiver .stop) reply → x.before.held →
    x.before.receiver.phase ≠ .stopped → ∃ result, reply = .ofResult result
      ∧ Sweep (toClose x.before.receiver.layers) x.stopClosings result (toClose x.after.receiver.layers)
      ∧ (result = .ok () ↔ ∀ c ∈ x.stopClosings, c.result = .ok ())
      ∧ x.after.receiver.phase = if result = .ok () then .stopped else x.before.receiver.phase
  controlFirst : ControlFirst (stopClosings (earlier ++ later))
  /-- The receiver never closes a stream again that a stop has closed. -/
  once : ∀ done x rest, later = done ++ x :: rest → (x.stopClosings.map Closing.target).Nodup
    ∧ ∀ c ∈ x.openClosings ++ x.stopClosings, ¬ ClosedByStop (earlier ++ done) c.channel c.stream
  /-- Once the receiver is stopped both streams of all layers that were ever bound have been closed. -/
  closed : r.phase = .stopped → ∀ l ∈ r.layers, l.isReady → ∀ ch, ClosedByStop (earlier ++ later) ch l.ssrc
  /-- A receiver that is stopped is stopped again by doing nothing. -/
  again : r.phase = .stopped → ∀ t : QueueTransport, r.stop t = (r, t, .ok ()) ∧ r.closingsOfStop t = []

/-! ### Single stops -/

section Order

variable {σ : Type}

/-- A place in what is to be closed is a place in what is to be closed of one layer. -/
theorem toClose_split {ls : List (Layer σ)} {pre post : List (Channel × σ)} {x : Channel × σ}
    (h : toClose ls = pre ++ x :: post) :
    ∃ l ∈ ls, ∃ pre₁ pre₂ post', l.toClose = pre₂ ++ x :: post' ∧ pre = pre₁ ++ pre₂ := by
  induction ls generalizing pre with
  | nil => simp [toClose] at h
  | cons l ls ih =>
    rw [toClose, List.flatMap_cons, ← toClose] at h
    rcases List.append_eq_append_iff.mp h with ⟨mid, rfl, hm⟩ | ⟨mid, hm, hp⟩
    · obtain ⟨k, hk, pre₁, pre₂, post', hx, rfl⟩ := ih hm
      exact ⟨k, List.mem_cons_of_mem _ hk, l.toClose ++ pre₁, pre₂, post', hx, (List.append_assoc _ _ _).symm⟩
    · cases mid with
      | nil =>
        rw [List.nil_append] at hp
        rw [List.append_nil] at hm
        obtain ⟨k, hk, pre₁, pre₂, post', hx, he⟩ := @ih [] hp.symm
        obtain ⟨rfl, rfl⟩ := List.append_eq_nil_iff.mp he.symm
        exact ⟨k, List.mem_cons_of_mem _ hk, pre, [], post', hx, (List.append_nil _).symm⟩
      | cons y mid =>
        obtain ⟨rfl, -⟩ := List.cons_eq_cons.mp hp
        exact ⟨l, List.mem_cons_self, [], pre, mid, hm, rfl⟩

end Order

namespace Receiver

variable {r : Receiver Ssrc} {past : List Change}

/-- Before the media stream of a layer its control stream is to be closed, unless that has been done. -/
theorem Accounted.control_before (h : r.Accounted past) {pre post : List (Channel × Ssrc)} {ssrc : Ssrc}
    (hp : toClose r.layers = pre ++ (.media, ssrc) :: post) :
    ClosedByStop past .control ssrc ∨ (.control, ssrc) ∈ pre := by
  obtain ⟨l, hl, pre₁, pre₂, post', hx, rfl⟩ := toClose_split hp
  have hm : (Channel.media, ssrc) ∈ l.toClose := by rw [hx]; simp
  obtain ⟨hr, rfl⟩ := h.of_mem_toClose hl hm
  rcases h.covered l hl hr .control with hc | hc
  · refine .inr (List.mem_append_right _ ?_)
    unfold Layer.toClose at hc hx
    cases hb : l.binding with
    | unbound => rw [hb] at hc; cases hc
    | released => rw [hb] at hc; cases hc
    | bound m c cc =>
      cases cc <;> simp [hb] at hc hx
      cases pre₂ with
      | nil => simp at hx
      | cons y pre₂ =>
        obtain ⟨rfl, -⟩ := List.cons_eq_cons.mp hx
        rw [hc]
        exact List.mem_cons_self
  · exact .inl hc

/-- A stop attempts to close the media stream of a layer only after its control stream has been closed. -/
theorem Accounted.control_first (h : r.Accounted past) (t : QueueTransport) {done rest : List (Closing Ssrc)}
    {c : Closing Ssrc} (hl : r.closingsOfStop t = done ++ c :: rest) (hc : c.channel = .media) :
    ⟨.control, c.stream, .ok ()⟩ ∈ stopClosings past ++ done := by
  have hph : r.phase ≠ .stopped := fun hs => by
    rw [closingsOfStop_of_stopped hs] at hl
    simp at hl
  have hs := stop_sweep h.sound.received hph t
  obtain ⟨left, hleft⟩ := hs.prefix_plan
  rw [hl, List.map_append, List.map_cons, List.append_assoc, List.cons_append, Closing.target, hc] at hleft
  rcases h.control_before hleft.symm with hx | hx
  · exact List.mem_append_left _ hx
  · obtain ⟨d, hd, hdt⟩ := List.mem_map.mp hx
    have hok := hs.ok_before hl hd
    obtain ⟨ch, s, res⟩ := d
    simp only [Closing.target, Prod.mk.injEq] at hdt hok
    obtain ⟨rfl, rfl⟩ := hdt
    subst hok
    exact List.mem_append_right _ hd

/-- No stop closes a stream twice, or one that a stop has closed before. -/
theorem Accounted.stop_once (h : r.Accounted past) (hd : r.Distinct) (t : QueueTransport) :
    ((r.closingsOfStop t).map Closing.target).Nodup
      ∧ ∀ c ∈ r.closingsOfStop t, ¬ ClosedByStop past c.channel c.stream := by
  by_cases hph : r.phase = .stopped
  · rw [closingsOfStop_of_stopped hph]
    exact ⟨List.nodup_nil, fun c hc => by cases hc⟩
  · have hp := (stop_sweep h.sound.received hph t).prefix_plan
    refine ⟨hp.sublist.nodup (h.nodup_toClose hd), fun c hc => ?_⟩
    obtain ⟨l, hl, hx⟩ := List.mem_flatMap.mp (hp.mem (List.mem_map_of_mem hc))
    exact h.unclosed hd l hl c.target hx

/-! ### Closes while streams are opened -/

/-- Receiving closes nothing that a stop has closed. -/
theorem Accounted.receive_once (h : r.Accounted past) (t : QueueTransport) (es : List Encoding) {c : Closing Ssrc}
    (hc : c ∈ r.closingsOfReceive t es) : ¬ ClosedByStop past c.channel c.stream := by
  cases hr : r.refuseReceive es with
  | none => exact h.none_closed hr _ _
  | some e =>
    simp only [closingsOfReceive, Receiver.receive, hr] at hc
    cases hc

/-- Binding closes at most the media stream of the SSRC. -/
theorem of_mem_closingsOfBind {t : QueueTransport} {rid : String} {ssrc : Ssrc} {c : Closing Ssrc}
    (hc : c ∈ r.closingsOfBind t rid ssrc) : r.refuseBind rid ssrc = none ∧ c.stream = ssrc := by
  cases hr : r.refuseBind rid ssrc with
  | some e =>
    simp only [closingsOfBind, Receiver.bind, hr] at hc
    cases hc
  | none =>
    refine ⟨rfl, ?_⟩
    have hl : c ∈ (openPair (⟨t, []⟩ : Logged QueueTransport Ssrc) ssrc).1.log := by
      simp only [closingsOfBind, Receiver.bind, hr] at hc
      generalize openPair (⟨t, []⟩ : Logged QueueTransport Ssrc) ssrc = x at hc
      rcases x with ⟨u, e | ⟨m, c'⟩⟩ <;> exact hc
    have ho := mem_log_openPair hl
    simp only [Transport.openStream, QueueTransport.openStream] at ho
    split at ho
    · cases ho
    · cases ho
      rfl

/-- Binding for an SSRC that no other layer has closes nothing that a stop has closed. -/
theorem Accounted.bind_once (h : r.Accounted past) {t : QueueTransport} {rid : String} {ssrc : Ssrc}
    (hf : ∀ l ∈ r.layers, l.ssrc = ssrc → l.rid = rid) {c : Closing Ssrc} (hc : c ∈ r.closingsOfBind t rid ssrc) :
    ¬ ClosedByStop past c.channel c.stream := by
  obtain ⟨hr, hs⟩ := of_mem_closingsOfBind hc
  intro hclosed
  obtain ⟨l, hl, hlr, hls⟩ := h.owned _ _ hclosed
  obtain ⟨-, -, k, hk, hkr⟩ := of_refuseBind hr
  rw [h.sound.layer_unique hl (hf l hl (hls.trans hs)) hk, hkr] at hlr
  cases hlr

end Receiver

/-! ### Runs -/

namespace Session

open Receiver

/-- What a change that stops the receiver does and replies. -/
theorem perform_stop {s : Session} (hh : s.hub.held) :
    (s.perform (.receiver .stop)).1.hub.receiver = (s.hub.receiver.stop s.hub.transport).1
      ∧ (s.perform (.receiver .stop)).2 = .ofResult (s.hub.receiver.stop s.hub.transport).2.2 := by
  have hp : s.perform (.receiver .stop) = s.performHeld .stop := perform_of_held hh _
  rw [hp]
  exact ⟨rfl, rfl⟩

/-- What is to be shown of each change of a run. -/
def Orderly (earlier : List Change) (x : Change) : Prop :=
  (∀ reply, x.cause = .command (.receiver .stop) reply → x.before.held → x.before.receiver.phase ≠ .stopped →
    ∃ result, reply = .ofResult result
      ∧ Sweep (toClose x.before.receiver.layers) x.stopClosings result (toClose x.after.receiver.layers)
      ∧ (result = .ok () ↔ ∀ c ∈ x.stopClosings, c.result = .ok ())
      ∧ x.after.receiver.phase = if result = .ok () then .stopped else x.before.receiver.phase)
  ∧ (x.before.receiver.Distinct → x.bindsFresh → (x.stopClosings.map Closing.target).Nodup
    ∧ ∀ c ∈ x.openClosings ++ x.stopClosings, ¬ ClosedByStop earlier c.channel c.stream)

theorem orderly_of_no_closings {past : List Change} {x : Change} (ho : x.openClosings = []) (hs : x.stopClosings = [])
    (hn : ∀ reply, x.cause ≠ .command (.receiver .stop) reply) : Orderly past x := by
  refine ⟨fun reply hr => absurd hr (hn reply), fun _ _ => ?_⟩
  rw [ho, hs]
  exact ⟨List.nodup_nil, fun c hc => by cases hc⟩

theorem orderly_move {past : List Change} {t : Task} {h g : Hub} : Orderly past ⟨.move t, h, g⟩ :=
  orderly_of_no_closings rfl rfl fun _ h => by cases h

theorem orderly_perform {s : Session} {past : List Change} (h : s.hub.receiver.Accounted past) (c : Command) :
    Orderly past ⟨.command c (s.perform c).2, s.hub, (s.perform c).1.hub⟩ := by
  by_cases hc : c.changesReceiver = true
  · cases c with
    | receiver c =>
      cases c with
      | receive es =>
        refine ⟨fun reply hr => by simp at hr, fun _ _ => ⟨List.nodup_nil, fun c hc => ?_⟩⟩
        simp only [Change.openClosings, Change.stopClosings, List.append_nil] at hc
        split at hc
        · exact h.receive_once _ _ hc
        · cases hc
      | bind rid ssrc =>
        refine ⟨fun reply hr => by simp at hr, fun _ hf => ⟨List.nodup_nil, fun c hc => ?_⟩⟩
        simp only [Change.openClosings, Change.stopClosings, List.append_nil] at hc
        split at hc
        · exact h.bind_once (fun l hl hls => by simpa [hls] using List.all_eq_true.mp hf l hl) hc
        · cases hc
      | stop =>
        refine ⟨fun reply hr hh hph => ?_, fun hd _ => ?_⟩
        · obtain ⟨hrec, hrep⟩ := perform_stop hh
          have hsw := stop_sweep h.sound.received hph s.hub.transport
          simp only [Change.stopClosings, if_pos hh]
          refine ⟨_, ?_, ?_, hsw.ok_iff, ?_⟩
          · cases hr
            exact hrep
          · rw [hrec]
            exact hsw
          · rw [hrec]
            exact (stop_fields hph s.hub.transport).1
        · simp only [Change.openClosings, Change.stopClosings, List.nil_append]
          split
          · exact h.stop_once hd s.hub.transport
          · exact ⟨List.nodup_nil, fun c hc => by cases hc⟩
      | _ => cases hc
    | _ => cases hc
  · have hne : ∀ d : Command, d.changesReceiver = true → c ≠ d := fun d hd e => hc (e ▸ hd)
    apply orderly_of_no_closings
    · unfold Change.openClosings
      split
      · next he => cases he; exact absurd rfl (hne _ rfl)
      · next he => cases he; exact absurd rfl (hne _ rfl)
      · rfl
    · unfold Change.stopClosings
      split
      · next he => cases he; exact absurd rfl (hne _ rfl)
      · rfl
    · intro reply he
      cases he
      exact absurd rfl (hne _ rfl)

theorem controlFirst_append {log new : List (Closing Ssrc)} (h : ControlFirst log)
    (hn : ∀ done c rest, new = done ++ c :: rest → c.channel = .media → ⟨.control, c.stream, .ok ()⟩ ∈ log ++ done) :
    ControlFirst (log ++ new) := by
  intro done c rest he hc
  rcases List.append_eq_append_iff.mp he with ⟨mid, rfl, hm⟩ | ⟨mid, rfl, hm⟩
  · exact hn mid c rest hm hc
  · cases mid with
    | nil => simpa using hn [] c rest hm.symm hc
    | cons d mid =>
      obtain ⟨rfl, -⟩ := List.cons_eq_cons.mp hm
      exact h done _ mid rfl hc

theorem controlFirst_stop {s : Session} {past : List Change} {c : Command} (h : s.hub.receiver.Accounted past)
    (hf : ControlFirst (stopClosings past)) (reply : Reply) (g : Hub) :
    ControlFirst (stopClosings (past ++ [⟨.command c reply, s.hub, g⟩])) := by
  rw [stopClosings_append, stopClosings_singleton]
  apply controlFirst_append hf
  intro done d rest hd hch
  unfold Change.stopClosings at hd
  dsimp only at hd
  split at hd
  · split at hd
    · exact h.control_first s.hub.transport hd hch
    · simp at hd
  · simp at hd

theorem controlFirst_move {past : List Change} (hf : ControlFirst (stopClosings past)) (t : Task) (h g : Hub) :
    ControlFirst (stopClosings (past ++ [⟨.move t, h, g⟩])) := by
  rw [stopClosings_append, stopClosings_singleton]
  exact controlFirst_append hf fun done d rest hd => by simp [Change.stopClosings] at hd

theorem controlFirst_invariant :
    Invariant fun s past => s.hub.receiver.Accounted past ∧ ControlFirst (stopClosings past) where
  move _ _ t g h hm := ⟨accounted_move h.1 hm, controlFirst_move h.2 t _ g⟩
  clock _ _ _ h := h
  command _ _ _ h hc := ⟨accounted_perform h.1 hc _, controlFirst_stop h.1 h.2 _ _⟩
  shown _ _ h := h

/-- What every part of a run does to the streams that stops close. -/
theorem orderly_history {s : Session} {earlier : List Change} (h : s.hub.receiver.Accounted earlier)
    (cs : List Command) : Along Orderly earlier (s.history cs) :=
  accounted_invariant.along (fun _ _ _ _ _ _ => orderly_move) (fun _ _ c h _ => orderly_perform h c) cs h

/-- Whatever a session has done, and however streams refuse to be closed, further stops of its receiver close the
streams of the layers in order, each at most once, and can be tried again until all streams are closed; provided that
the layers that are bound get different SSRCs. -/
theorem teardown_orderly (settings : Settings) (kind : Kind) (cs ds : List Command)
    (hd : (((new settings kind).after cs).after ds).hub.receiver.Distinct)
    (hf : ∀ x ∈ ((new settings kind).after cs).history ds, x.bindsFresh) :
    OrderlyTeardown ((new settings kind).history cs) (((new settings kind).after cs).history ds)
      (((new settings kind).after cs).after ds).hub.receiver := by
  have h₀ := accounted_after settings kind cs
  have hc₀ := (@Invariant.after _ controlFirst_invariant cs (new settings kind) []
    ⟨accounted_new kind _, fun done c rest h => by simp [stopClosings] at h⟩).2
  obtain ⟨h, hcf⟩ := controlFirst_invariant.after ds ⟨h₀, hc₀⟩
  have hal := orderly_history h₀ ds
  generalize (new settings kind).after cs = s at *
  generalize (new settings kind).history cs = earlier at *
  exact {
    sweep := fun x hx => by
      obtain ⟨done, rest, he⟩ := List.append_of_mem hx
      exact (hal done x rest he).1
    controlFirst := hcf
    once := fun done x rest he => by
      have hx : x ∈ s.history ds := he ▸ List.mem_append_right done List.mem_cons_self
      obtain ⟨hs, ho⟩ := (grown_after h₀.sound ds).before x hx
      exact (hal done x rest he).2 (ho.receiver.distinct hs hd) (hf x hx)
    closed := fun hs l hl hr ch => by
      rcases h.covered l hl hr ch with hx | hx
      · have := List.mem_flatMap_of_mem hl hx
        rw [← toClose, (h.sound.stopped hs).2] at this
        cases this
      · exact hx
    again := fun hs t => ⟨stop_of_stopped hs t, closingsOfStop_of_stopped hs t⟩ }

/-- The second stream of the second layer refuses to be closed at first; a third layer is bound in between. -/
theorem teardown_orderly_retried :
    let s := (new {} .video).after [.receiver (.receive [⟨"q", 1⟩, ⟨"h", 2⟩, ⟨"f", 0⟩])]
    let ds : List Command := [.transport (.refuseClose .media 2 true), .receiver .stop, .receiver (.bind "f" 3),
      .transport (.refuseClose .media 2 false), .receiver .stop]
    (s.after ds).hub.receiver.phase = .stopped
      ∧ (stopClosings (s.history ds)).map Closing.target
        = [(.control, 1), (.media, 1), (.control, 2), (.media, 2), (.media, 2), (.control, 3), (.media, 3)]
      ∧ OrderlyTeardown ((new {} .video).history [.receiver (.receive [⟨"q", 1⟩, ⟨"h", 2⟩, ⟨"f", 0⟩])])
        (s.history ds) (s.after ds).hub.receiver :=
  ⟨by decide +kernel, by decide +kernel, teardown_orderly {} .video _ _ (by decide +kernel) (by decide +kernel)⟩

end Session

end MediaRelay
