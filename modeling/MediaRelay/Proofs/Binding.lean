import MediaRelay.Proofs.Failing
import MediaRelay.Proofs.Queueing
import MediaRelay.Proofs.Unshared

/-!
# Late binding

A layer whose SSRC is learned late is bound as a whole or not at all.

- `BindFault` lists the reasons for which a layer is not bound, in the order in which they count, and
  `Receiver.bind_eq` says what comes of a call for each of them;
- a task that waits for the layer goes on at the stream of its new SSRC (`proceeds_settle`);
- a call that fails leaves all tasks waiting where they wait (`step_bind_of_fault`);
- `bind_all_or_nothing`: what comes of a call in every state that a session comes to.
-/

namespace MediaRelay

open Receiver

/-! ## Both streams of an SSRC -/

/-- What comes of opening both streams of an SSRC, and what that leaves of the transport. -/
theorem QueueTransport.openPair_eq (t : QueueTransport) (ssrc : Ssrc) :
    openPair t ssrc =
      if ssrc ∈ (t.channel .media).refusesOpen then (t, .error (openRefusal .media ssrc))
      else if ssrc ∈ (t.channel .control).refusesOpen then
        (((t.openStream .media ssrc).1.closeStream .media ssrc).1, .error (openRefusal .control ssrc))
      else (((t.openStream .media ssrc).1.openStream .control ssrc).1, .ok (ssrc, ssrc)) := by
  by_cases hm : ssrc ∈ (t.channel .media).refusesOpen
  · have ho : t.openStream .media ssrc = (t, .error (openRefusal .media ssrc)) := by simp [openStream, hm]
    simp only [openPair, Transport.openStream, ho, if_pos hm]
  · have ho : t.openStream .media ssrc = ((t.openStream .media ssrc).1, .ok ssrc) :=
      Prod.ext rfl ((t.openStream_snd .media ssrc).trans (if_neg hm))
    have hu := t.refusesOpen_openStream .media ssrc .control
    rw [if_neg hm]
    generalize (t.openStream .media ssrc).1 = u at ho hu ⊢
    by_cases hc : ssrc ∈ (t.channel .control).refusesOpen
    · have ho' : u.openStream .control ssrc = (u, .error (openRefusal .control ssrc)) := by simp [openStream, hu, hc]
      simp only [openPair, Transport.openStream, Transport.closeStream, ho, if_pos hc]
      rw [ho']
    · have ho' : u.openStream .control ssrc = ((u.openStream .control ssrc).1, .ok ssrc) :=
        Prod.ext rfl ((u.openStream_snd .control ssrc).trans (if_neg (by rwa [hu])))
      simp only [openPair, Transport.openStream, ho, if_neg hc]
      rw [ho']

/-! ## Reasons not to bind a layer -/

/-- The reasons for which a layer is not bound. -/
inductive BindFault where
  | noSsrc
  | stopped
  | noLayer
  | ready
  | mediaRefused
  | controlRefused
deriving DecidableEq, Repr

namespace BindFault

/-- Those that count before any stream is opened, in the order in which they do. -/
def early : List BindFault := [noSsrc, stopped, noLayer, ready]

/-- All of them, in the order in which they count. -/
def all : List BindFault := early ++ [mediaRefused, controlRefused]

/-- The error of a call that fails for a reason. -/
def error (ssrc : Ssrc) : BindFault → Error
  | noSsrc => .zeroSsrc
  | stopped => .receiverStopped
  | noLayer => .unknownRid
  | ready => .layerAlreadyBound
  | mediaRefused => QueueTransport.openRefusal .media ssrc
  | controlRefused => QueueTransport.openRefusal .control ssrc

/-- Whether a reason applies. -/
def applies (r : Receiver Ssrc) (t : QueueTransport) (rid : String) (ssrc : Ssrc) : BindFault → Bool
  | noSsrc => ssrc = 0
  | stopped => r.phase = .stopped
  | noLayer => (r.layer? rid).isNone
  | ready => (r.layer? rid).any Layer.isReady
  | mediaRefused => ssrc ∈ (t.channel .media).refusesOpen
  | controlRefused => ssrc ∈ (t.channel .control).refusesOpen

end BindFault

/-- The first reason that applies not to bind the layer of a RID, if any. -/
def Receiver.bindFault? (r : Receiver Ssrc) (t : QueueTransport) (rid : String) (ssrc : Ssrc) : Option BindFault :=
  BindFault.all.find? (·.applies r t rid ssrc)

theorem Receiver.bind_eq (r : Receiver Ssrc) (t : QueueTransport) (rid : String) (ssrc : Ssrc) :
    r.bind t rid ssrc = match r.bindFault? t rid ssrc with
      | none => (r.setLayers (r.layers.map (bindLayer rid ssrc ssrc ssrc)),
          ((t.openStream .media ssrc).1.openStream .control ssrc).1, .ok ())
      | some f => (r, if f = .controlRefused then ((t.openStream .media ssrc).1.closeStream .media ssrc).1 else t,
          .error (f.error ssrc)) := by
  unfold bind refuseBind
  rw [t.openPair_eq]
  simp only [bindFault?, BindFault.all, BindFault.early, List.cons_append, List.find?_cons, BindFault.applies]
  by_cases hz : ssrc = 0
  · simp [hz, BindFault.error]
  · by_cases hs : r.phase = .stopped
    · simp [hz, hs, BindFault.error]
    · cases hl : r.layer? rid with
      | none => simp [hz, hs, BindFault.error]
      | some l =>
        cases hr : l.isReady with
        | true => simp [hz, hs, hr, BindFault.error]
        | false =>
          by_cases hm : ssrc ∈ (t.channel .media).refusesOpen
          · simp [hz, hs, hr, hm, BindFault.error]
          · by_cases hc : ssrc ∈ (t.channel .control).refusesOpen
            · simp [hz, hs, hr, hm, hc, BindFault.error]
            · simp [hz, hs, hr, hm, hc]
              rfl

section Faults

variable {r : Receiver Ssrc} {t : QueueTransport} {rid : String} {ssrc : Ssrc}

/-- No reason applies that counts before the first that does. -/
theorem Receiver.not_applies_of_bindFault? (before after : List BindFault) (ha : BindFault.all = before ++ after)
    (h : ∀ f ∈ r.bindFault? t rid ssrc, f ∉ before) {f : BindFault} (hf : f ∈ before) :
    f.applies r t rid ssrc = false := by
  have hn : before.find? (·.applies r t rid ssrc) = none := by
    cases he : before.find? (·.applies r t rid ssrc) with
    | none => rfl
    | some g =>
      refine absurd (List.mem_of_find?_eq_some he) (h g ?_)
      rw [bindFault?, ha, List.find?_append, he]
      rfl
  simpa using List.find?_eq_none.mp hn f hf

/-- Unless there is a reason that counts before any stream is opened, the layer is there and not bound. -/
theorem Receiver.unbound_of_bindFault? (h : ∀ f ∈ r.bindFault? t rid ssrc, f ∉ BindFault.early) :
    r.phase ≠ .stopped ∧ ∃ l, r.layer? rid = some l ∧ l.isReady = false := by
  have hs := not_applies_of_bindFault? BindFault.early _ rfl h (f := .stopped) (by decide)
  have hl := not_applies_of_bindFault? BindFault.early _ rfl h (f := .noLayer) (by decide)
  have hr := not_applies_of_bindFault? BindFault.early _ rfl h (f := .ready) (by decide)
  refine ⟨by simpa [BindFault.applies] using hs, ?_⟩
  cases hx : r.layer? rid with
  | none => simp [BindFault.applies, hx] at hl
  | some l => exact ⟨l, rfl, by simpa [BindFault.applies, hx] using hr⟩

/-- Nothing speaks against binding a layer that is there and not bound, unless one of its streams cannot be opened. -/
theorem Receiver.bindFault?_eq_none {l : Layer Ssrc} (hl : r.layer? rid = some l) (hr : l.isReady = false)
    (hp : r.phase ≠ .stopped) (hz : ssrc ≠ 0) (hc : ∀ ch, ssrc ∉ (t.channel ch).refusesOpen) :
    r.bindFault? t rid ssrc = none := by
  simp [bindFault?, BindFault.all, BindFault.early, BindFault.applies, hl, hr, hp, hz, hc]

end Faults

/-! ## Reads that wait for the layer -/

namespace Receiver

variable {r : Receiver Ssrc} {rid : String} {src : Source} {l : Layer Ssrc}

/-- The layer of a source is still its layer when it has been bound. -/
theorem layerOf?_bind (rid : String) (ssrc : Ssrc) (hl : r.layerOf? src = some l) :
    (r.setLayers (r.layers.map (bindLayer rid ssrc ssrc ssrc))).layerOf? src = some (bindLayer rid ssrc ssrc ssrc l) := by
  have hls := r.layers_map (bindLayer rid ssrc ssrc ssrc)
  have found : ∀ x, r.layer? x = some l →
      (r.setLayers (r.layers.map (bindLayer rid ssrc ssrc ssrc))).layer? x = some (bindLayer rid ssrc ssrc ssrc l) := by
    intro x hx
    rw [layer?, hls, List.find?_map]
    have hp : ((fun l : Layer Ssrc => decide (l.rid = x)) ∘ bindLayer rid ssrc ssrc ssrc) = fun l => decide (l.rid = x) :=
      funext fun l => by simp only [Function.comp_apply, rid_bindLayer]
    rw [hp]
    exact congrArg (Option.map _) hx
  cases src with
  | media x => exact found x hl
  | control x => exact found x hl
  | firstControl =>
    rw [layerOf?, hls, List.head?_map]
    exact congrArg (Option.map _) hl

/-- A read that waits for a layer stands at the layer's stream when it has been bound. -/
theorem standing_bind (ssrc : Ssrc) (hs : r.standing src = .awaitsLayer) (hl : r.layerOf? src = some l) (hr : l.rid = rid) :
    (r.setLayers (r.layers.map (bindLayer rid ssrc ssrc ssrc))).standing src = .atStream src.channel ssrc := by
  have hl' := layerOf?_bind rid ssrc hl
  have hb : bindLayer rid ssrc ssrc ssrc l = { l with ssrc, binding := .bound ssrc ssrc false } := if_pos hr
  obtain ⟨hc, hrec, ht⟩ : r.closing = false ∧ r.received = true ∧ r.track.isNone = false := by
    unfold standing at hs
    split at hs
    · cases hs
    · next hc =>
      split at hs
      · cases hs
      · next hrec =>
        split at hs
        · cases hs
        · next ht => exact ⟨Bool.eq_false_iff.mpr hc, not_not.mp hrec, Bool.eq_false_iff.mpr ht⟩
  have ht' : (r.setLayers (r.layers.map (bindLayer rid ssrc ssrc ssrc))).track.isNone = false := by
    rw [track_setLayers, Option.isNone_map, ht]
  simp only [standing, setLayers, hc, hrec] at ht' hl' ⊢
  rw [ht', hl', hb]
  cases src <;> rfl

/-- A read that stands at a stream stands at the stream of a layer that is bound. -/
theorem Accounted.layer_of_atStream {past : List Change} (h : r.Accounted past) {ch : Channel} {x : Ssrc}
    (hs : r.standing src = .atStream ch x) : ∃ k ∈ r.layers, k.isReady = true ∧ k.ssrc = x := by
  obtain ⟨-, ⟨⟨⟩⟩ | ⟨k, hk, hks⟩⟩ := of_standing hs (by simp) (by simp)
  have hmem : k ∈ r.layers := by
    cases src with
    | media rid | control rid => exact List.mem_of_find?_eq_some hk
    | firstControl => exact List.mem_of_mem_head? hk
  refine ⟨k, hmem, ?_⟩
  cases hb : k.binding with
  | unbound | released => cases hc : src.channel <;> simp [Layer.standing, hb, hc] at hks
  | bound m c cc =>
    obtain ⟨rfl, rfl⟩ := h.named k hmem m c cc hb
    refine ⟨by simp [Layer.isReady, hb, Binding.isReady], ?_⟩
    cases hc : src.channel <;> simp [Layer.standing, hb, hc] at hks <;> exact hks.2.symm

end Receiver

/-- A task goes on with its read at the stream of an SSRC: it is done, or waits for a datagram there. -/
structure Change.Proceeds (x : Change) (t : Task) (q : Read) (ssrc : Ssrc) : Prop where
  cause : x.cause = .move t
  read : x.before.read q = x.before.readStream q ssrc
  outcome : (∃ r, (x.before.readStream q ssrc).2 = .done r ∧ x.after = Hub.finish t (x.before.readStream q ssrc).1 r)
    ∨ ((x.before.readStream q ssrc).2 = .awaitsDatagram ∧ x.after = x.before.park t .datagram)

namespace Hub

variable {h g : Hub} {t u : Task} {q : Read} {ssrc : Ssrc} {names : Table String Token} {a : Leases}

/-- The move of a task makes no other task quit. -/
theorem Move.quits_other (m : Move h t g) (o : Owned h names a) (ht : t ∈ h.tasks) (hu : u ∈ h.tasks)
    (hne : u.id ≠ t.id) : g.quits u = h.quits u := by
  unfold quits
  split
  · next p hj =>
    suffices hc : g.isCancelled p.token = h.isCancelled p.token by rw [hc]
    refine m.isCancelled_eq o ht fun p' j n hj' hp' hn hmem => hne ?_
    obtain ⟨hp, hrid⟩ := o.of_mem_pump hu hj hn hmem
    exact congrArg Task.id (o.single u hu t ht p p' hj hj' (by rw [hp]; rfl) (hp.trans hp'.symm) hrid)
  · rfl

/-- A read that stands at a stream is a read of it. -/
theorem read_of_standing (ha : h.isAlive = true)
    (hs : h.receiver.standing q.source = .atStream q.source.channel ssrc) : h.read q = h.readStream q ssrc := by
  rw [read_of_alive ha, Receiver.read_eq_of_atStream hs]
  rfl

theorem proceeds_of_move (hq : t.job.query? = some q) (hn : h.quits t = false) (hr : h.read q = h.readStream q ssrc)
    (hm : h.move? t = some g) : (Change.mk (.move t) h g).Proceeds t q ssrc := by
  refine ⟨rfl, hr, ?_⟩
  rcases reader_move hq hm with hn' | ⟨-, ⟨r, hd, hg⟩ | ⟨gate, hgate, -, hg⟩⟩
  · rw [hn] at hn'
    cases hn'
  · rw [hr] at hd hg
    exact .inl ⟨r, hd, hg⟩
  · rw [hr] at hgate
    have hw : (h.transport.readStream q.source.channel ssrc (q.buffer h.receiver.mtu)).2 = .waiting :=
      Read.progress_gate? hgate
    have hp : (h.readStream q ssrc).2 = .awaitsDatagram := congrArg q.progress hw
    rw [hp] at hgate
    cases hgate
    exact .inr ⟨hp, hg⟩

/-- A read that waits at a gate that ranks higher than a datagram's can go on once it stands at a stream. -/
theorem move?_of_atStream (ha : h.isAlive = true) (hst : t.stage = .waiting .layer) (hq : t.job.query? = some q)
    (hs : h.receiver.standing q.source = .atStream q.source.channel ssrc) : h.move? t ≠ none := by
  intro hm
  obtain ⟨-, gate, hgate, hrank⟩ := gate_of_waiting hq hm
  rw [read_of_standing ha hs] at hgate
  have hw : (h.transport.readStream q.source.channel ssrc (q.buffer h.receiver.mtu)).2 = .waiting :=
    Read.progress_gate? hgate
  rw [show (h.readStream q ssrc).2 = .awaitsDatagram from congrArg q.progress hw] at hgate
  cases hgate
  rw [hst] at hrank
  exact absurd hrank (by decide)

end Hub

namespace Session

variable {s : Session} {ssrc : Ssrc} {t : Task} {q : Read}

/-- A task that waits for a layer goes on when the hub settles if it stands at a stream by now. -/
theorem proceeds_settle (hp : s.Proper) (ht : t ∈ s.hub.tasks) (hst : t.stage = .waiting .layer)
    (hq : t.job.query? = some q) (hn : s.hub.quits t = false)
    (hs : s.hub.receiver.standing q.source = .atStream q.source.channel ssrc) :
    ∃ x ∈ s.hub.settleChanges, x.Proceeds t q ssrc := by
  have hj : t.job.isReading = true := (Job.isReading_iff _).mpr ⟨q, hq⟩
  have hh : t.holdsReceiver = true := by simp [Task.holdsReceiver, hj, hst]
  have hkeep := Hub.settle_keeps (h := s.hub)
    (P := fun g past => ((s.setHub g).Proper ∧ g.receiver = s.hub.receiver)
      ∧ ((t ∈ g.tasks ∧ g.quits t = false) ∨ ∃ x ∈ past, x.Proceeds t q ssrc))
    (fun h past u g hP hm => ?_) ⟨⟨hp, rfl⟩, .inl ⟨ht, hn⟩⟩
  · obtain ⟨⟨-, hr⟩, ⟨ht', -⟩ | hx⟩ := hkeep
    · have hm : s.hub.settle.move? t = none := List.findSome?_eq_none_iff.mp (Hub.step?_settle _) t ht'
      exact absurd hm (Hub.move?_of_atStream (Hub.isAlive_of_holdsReceiver ht' hh) hst hq (by rw [hr]; exact hs))
    · exact hx
  · obtain ⟨⟨hp, hr⟩, hw⟩ := hP
    obtain ⟨hu, hmove⟩ := Hub.of_mover? hm
    have m := Hub.move_of_move? hmove
    obtain ⟨a, o⟩ := hp.owned
    refine ⟨⟨hp.move hm, m.framed.receiver.trans hr⟩, ?_⟩
    rcases hw with ⟨ht', hn'⟩ | ⟨x, hx, hpr⟩
    · by_cases hut : t.id = u.id
      · obtain rfl := List.inj_on_of_nodup_map o.ids ht' hu hut
        have hread := Hub.read_of_standing (h := h) (q := q) (Hub.isAlive_of_holdsReceiver ht' hh) (by rw [hr]; exact hs)
        exact .inr ⟨_, List.mem_append_right _ (List.mem_singleton_self _), Hub.proceeds_of_move hq hn' hread hmove⟩
      · exact .inl ⟨(Hub.retasked hmove).others (Owned.mem_others.mpr ⟨ht', hut⟩),
          (m.quits_other o hu ht' hut).trans hn'⟩
    · exact .inr ⟨x, List.mem_append_left _ hx, hpr⟩

end Session

/-! ## As a whole or not at all -/

/-- A task waits for the layer of a RID to be bound, in order to read. -/
structure Hub.AwaitsLayer (h : Hub) (rid : String) (t : Task) (q : Read) : Prop where
  task : t ∈ h.tasks
  stage : t.stage = .waiting .layer
  query : t.job.query? = some q
  layer : ∃ l, h.receiver.layerOf? q.source = some l ∧ l.rid = rid

namespace Session

/-- What a call does that binds the layer of a RID to an SSRC. -/
structure BindsLayer (s : Session) (rid : String) (ssrc : Ssrc) : Prop where
  reply : (s.step (.receiver (.bind rid ssrc))).2.reply = .done
  /-- That layer gets the SSRC and its streams, and the receiver is otherwise as it was. -/
  layer : ∃ pre l post, s.hub.receiver.track = some (pre ++ l :: post) ∧ l.rid = rid ∧ l.isReady = false
    ∧ (s.step (.receiver (.bind rid ssrc))).1.hub.receiver
      = { s.hub.receiver with track := some (pre ++ { l with ssrc, binding := .bound ssrc ssrc false } :: post) }
  /-- Every read that waits for the layer goes on at the new streams. -/
  reads : ∀ t q, s.hub.AwaitsLayer rid t q → ∃ x ∈ s.changes (.receiver (.bind rid ssrc)), x.Proceeds t q ssrc

/-- What a call leaves alone that fails to bind the layer of a RID to an SSRC that no other layer has. -/
structure SparesLayers (s : Session) (rid : String) (ssrc : Ssrc) (f : BindFault) : Prop where
  /-- Only the transport may change, so that whoever waits goes on waiting. -/
  rest : (s.step (.receiver (.bind rid ssrc))).1
    = s.setHub { s.hub with transport := (s.step (.receiver (.bind rid ssrc))).1.hub.transport }
  /-- The streams of the layers are as they were. -/
  layers : ∀ l ∈ s.hub.receiver.layers, l.isReady = true → ∀ ch,
    (s.step (.receiver (.bind rid ssrc))).1.hub.transport.stream ch l.ssrc = s.hub.transport.stream ch l.ssrc
  /-- If only the control stream could not be opened, there is one attempt to close the media stream. -/
  half : f = .controlRefused → (s.step (.receiver (.bind rid ssrc))).1.hub.transport.stream .media ssrc
      = ((s.hub.transport.stream .media ssrc).close (QueueTransport.closeRefusal ssrc)).1
    ∧ ((s.step (.receiver (.bind rid ssrc))).1.hub.transport.stream .media ssrc).closeAttempts
      = (s.hub.transport.stream .media ssrc).closeAttempts + 1
  /-- That is all that happens to any stream. -/
  others : ∀ ch x, ¬ (f = .controlRefused ∧ ch = .media ∧ x = ssrc) →
    (s.step (.receiver (.bind rid ssrc))).1.hub.transport.stream ch x = s.hub.transport.stream ch x

/-- What is left of a call that fails to bind the layer of a RID to an SSRC. -/
structure BindsNothing (s : Session) (rid : String) (ssrc : Ssrc) (f : BindFault) : Prop where
  reply : (s.step (.receiver (.bind rid ssrc))).2.reply = .failed (f.error ssrc)
  receiver : (s.step (.receiver (.bind rid ssrc))).1.hub.receiver = s.hub.receiver
  spares : (∀ l ∈ s.hub.receiver.layers, l.rid ≠ rid → l.isReady = true → l.ssrc ≠ ssrc) → s.SparesLayers rid ssrc f
  /-- Whatever is done next, a layer that was not bound can be bound, as long as the receiver is not stopped, to an
  SSRC whose streams can be opened, unless that has been done in the meantime. -/
  later : ∀ l ∈ s.hub.receiver.layers, l.isReady = false → ∀ ds,
    let u := (s.step (.receiver (.bind rid ssrc))).1.after ds
    (∃ l', u.hub.receiver.layer? l.rid = some l' ∧ l'.isReady = true)
      ∨ ∀ ssrc', u.hub.held = true → u.hub.receiver.phase ≠ .stopped → ssrc' ≠ 0 →
        (∀ ch, ssrc' ∉ (u.hub.transport.channel ch).refusesOpen) →
        (u.step (.receiver (.bind l.rid ssrc'))).2.reply = .done

variable {s : Session} {rid : String} {ssrc : Ssrc} {f : BindFault}

/-- What comes of a call is the first reason against it. -/
theorem reply_bind (hh : s.hub.held = true) (rid : String) (ssrc : Ssrc) :
    (s.step (.receiver (.bind rid ssrc))).2.reply
      = match s.hub.receiver.bindFault? s.hub.transport rid ssrc with
        | none => .done
        | some f => .failed (f.error ssrc) := by
  have hp : (s.step (.receiver (.bind rid ssrc))).2.reply = (s.perform (.receiver (.bind rid ssrc))).2 := rfl
  rw [hp, perform_bind hh, bind_eq]
  cases s.hub.receiver.bindFault? s.hub.transport rid ssrc <;> rfl

theorem receiver_bind (hh : s.hub.held = true) (rid : String) (ssrc : Ssrc) :
    (s.step (.receiver (.bind rid ssrc))).1.hub.receiver
      = (s.hub.receiver.bind s.hub.transport rid ssrc).1 := by
  have hr := (Hub.framed_settle (s.perform (.receiver (.bind rid ssrc))).1.hub).receiver
  rw [perform_bind hh] at hr
  rw [step_fst, perform_bind hh]
  exact hr

/-- A call that nothing speaks against binds the layer. -/
theorem bindsLayer_of_no_fault (hh : s.hub.held = true) (hp : s.Proper) (hg : s.hub.AtGates)
    (hq : s.hub.step? = none) (hn : s.hub.receiver.bindFault? s.hub.transport rid ssrc = none) :
    s.BindsLayer rid ssrc where
  reply := by rw [reply_bind hh, hn]
  layer := by
    obtain ⟨-, l, hl, hr⟩ := unbound_of_bindFault? fun f hf => by rw [hn] at hf; cases hf
    have hrid : l.rid = rid := by simpa using List.find?_some hl
    obtain ⟨pre, post, hls, hmap⟩ := hp.sound.map_bindLayer hl ssrc ssrc ssrc
    have ht : s.hub.receiver.track = some s.hub.receiver.layers :=
      track_of_layers_ne_nil (List.ne_nil_of_mem (List.mem_of_find?_eq_some hl))
    refine ⟨pre, l, post, by rw [ht, hls], hrid, hr, ?_⟩
    rw [receiver_bind hh, bind_eq, hn]
    simp only [setLayers, ht, hmap, Option.map_some]
  reads := by
    rintro t q ⟨ht, hst, hquery, l, hl, hrid⟩
    have hm : s.hub.move? t = none := List.findSome?_eq_none_iff.mp hq t ht
    obtain ⟨hquits, -⟩ := Hub.gate_of_waiting hquery hm
    obtain ⟨-, gate, hgate, hst'⟩ := hg.waits ht hquery hm
    rw [hst] at hst'
    cases hst'
    have hstand := standing_bind ssrc (Hub.standing_of_gate_layer hgate) hl hrid
    have hp' := hp.perform (c := .receiver (.bind rid ssrc)) (by intro _ h; cases h)
    rw [changes]
    rw [perform_bind hh, bind_eq, hn] at hp' ⊢
    obtain ⟨x, hx, hpr⟩ := proceeds_settle hp' ht hst hquery hquits hstand
    exact ⟨x, List.mem_append_right _ hx, hpr⟩

/-- The streams after a call that fails: at most the media stream of the SSRC has had an attempt to close it. -/
theorem stream_bind (hf : s.hub.receiver.bindFault? s.hub.transport rid ssrc = some f) (ch : Channel) (x : Ssrc) :
    (s.hub.receiver.bind s.hub.transport rid ssrc).2.1.stream ch x
      = if f = .controlRefused ∧ ch = .media ∧ x = ssrc
        then ((s.hub.transport.stream .media ssrc).close (QueueTransport.closeRefusal ssrc)).1
        else s.hub.transport.stream ch x := by
  rw [bind_eq, hf]
  dsimp only
  by_cases hc : f = .controlRefused
  · rw [if_pos hc]
    by_cases hx : ch = .media ∧ x = ssrc
    · obtain ⟨rfl, rfl⟩ := hx
      rw [if_pos ⟨hc, rfl, rfl⟩, QueueTransport.closeStream, QueueTransport.stream_onStream_self,
        QueueTransport.stream_openStream]
    · rw [if_neg (fun h => hx h.2), QueueTransport.closeStream, QueueTransport.stream_onStream_of_ne _ _ _ _ hx,
        QueueTransport.stream_openStream]
  · rw [if_neg hc, if_neg fun h => hc h.1]

/-- After a call that fails all tasks wait, unless one of them stands at the stream that was opened in vain. -/
theorem step_bind_of_fault (hh : s.hub.held = true) (hd : s.hub.Tidy) (hq : s.hub.step? = none)
    (hm : s.markShown = s) (hf : s.hub.receiver.bindFault? s.hub.transport rid ssrc = some f)
    (hs : ∀ src ch x, s.hub.receiver.standing src = .atStream ch x → ¬ (f = .controlRefused ∧ x = ssrc)) :
    (s.step (.receiver (.bind rid ssrc))).1
      = s.setHub { s.hub with transport := (s.hub.receiver.bind s.hub.transport rid ssrc).2.1 } := by
  have hstep : Hub.step? { s.hub with transport := (s.hub.receiver.bind s.hub.transport rid ssrc).2.1 } = none := by
    refine List.findSome?_eq_none_iff.mpr fun t ht => Hub.still_of_stream hq hd ht fun q ch x _ hst => ?_
    rw [stream_bind hf, if_neg fun h => hs _ _ _ hst ⟨h.1, h.2.2⟩]
  have hp : s.perform (.receiver (.bind rid ssrc))
      = (s.setHub { s.hub with transport := (s.hub.receiver.bind s.hub.transport rid ssrc).2.1 },
        .failed (f.error ssrc)) := by
    rw [perform_bind hh, bind_eq, hf]
    rfl
  have hsettle := (Hub.settle_of_quiet hstep).1
  have hshown := congrArg (·.setHub { s.hub with transport := (s.hub.receiver.bind s.hub.transport rid ssrc).2.1 }) hm
  generalize (s.hub.receiver.bind s.hub.transport rid ssrc).2.1 = v at hsettle hshown hp ⊢
  rw [step_fst, hp]
  exact (congrArg (fun g => (s.setHub g).markShown) hsettle).trans hshown

/-- A call that fails leaves the layers alone, unless it is for an SSRC that another layer has. -/
theorem sparesLayers_of_fault {past : List Change} (hh : s.hub.held = true) (ha : s.hub.receiver.Accounted past)
    (hd : s.hub.Tidy) (hq : s.hub.step? = none) (hm : s.markShown = s)
    (hf : s.hub.receiver.bindFault? s.hub.transport rid ssrc = some f)
    (hu : ∀ l ∈ s.hub.receiver.layers, l.rid ≠ rid → l.isReady = true → l.ssrc ≠ ssrc) :
    s.SparesLayers rid ssrc f := by
  -- the layer that is to be bound has no streams yet when its control stream is opened
  have hnone : f = .controlRefused → ∀ l ∈ s.hub.receiver.layers, l.isReady = true → l.ssrc ≠ ssrc := by
    rintro rfl l hl hr
    refine hu l hl (fun hrid => ?_) hr
    obtain ⟨-, k, hk, hkr⟩ := unbound_of_bindFault? fun f' hf' => by
      rw [hf] at hf'
      cases hf'
      decide
    rw [ha.sound.layer_unique hl hrid hk, hkr] at hr
    cases hr
  have hstep := step_bind_of_fault hh hd hq hm hf fun src ch x hst h => by
    obtain ⟨l, hl, hr, hx⟩ := ha.layer_of_atStream hst
    exact hnone h.1 l hl hr (hx.trans h.2)
  have hstream := stream_bind hf
  rw [show (s.hub.receiver.bind s.hub.transport rid ssrc).2.1
    = (s.step (.receiver (.bind rid ssrc))).1.hub.transport by rw [hstep]; rfl] at hstream hstep
  exact {
    rest := hstep
    layers := fun l hl hr ch => by rw [hstream, if_neg fun h => hnone h.1 l hl hr h.2.2]
    half := fun h => by
      rw [hstream, if_pos ⟨h, rfl, rfl⟩]
      refine ⟨rfl, ?_⟩
      unfold QueueStream.close
      dsimp only
      split <;> rfl
    others := fun ch x h => by rw [hstream, if_neg h] }

/-- A call that something speaks against fails and leaves everything as it was. -/
theorem bindsNothing_of_fault {past : List Change} (hh : s.hub.held = true) (ha : s.hub.receiver.Accounted past)
    (hd : s.hub.Tidy) (hq : s.hub.step? = none) (hm : s.markShown = s)
    (hf : s.hub.receiver.bindFault? s.hub.transport rid ssrc = some f) : s.BindsNothing rid ssrc f where
  reply := by rw [reply_bind hh, hf]
  receiver := by rw [receiver_bind hh, bind_eq, hf]
  spares := sparesLayers_of_fault hh ha hd hq hm hf
  later l hl hr ds := by
    intro u
    have ho := (grown_after ha.sound (.receiver (.bind rid ssrc) :: ds)).first.receiver
    obtain ⟨l', hl', -⟩ := ho.layer? (ha.sound.layer?_eq hl)
    have hl' : u.hub.receiver.layer? l.rid = some l' := hl'
    cases hr' : l'.isReady with
    | true => exact .inl ⟨l', hl', hr'⟩
    | false =>
      refine .inr fun ssrc' hh' hp hz hc => ?_
      rw [reply_bind hh', bindFault?_eq_none hl' hr' hp hz hc]

/-- In every state that a session comes to, a call to bind a layer fails for the first reason that applies, and then
nothing is bound and every layer that could be bound still can be; or else the layer gets its SSRC and its streams,
and nobody waits for it any more. -/
theorem bind_all_or_nothing (settings : Settings) (kind : Kind) (cs : List Command) (rid : String) (ssrc : Ssrc)
    (hheld : ((new settings kind).after cs).hub.held = true) :
    let s := (new settings kind).after cs
    (s.hub.receiver.bindFault? s.hub.transport rid ssrc = none → s.BindsLayer rid ssrc)
      ∧ ∀ f, s.hub.receiver.bindFault? s.hub.transport rid ssrc = some f → s.BindsNothing rid ssrc f := by
  have hq : ((new settings kind).after cs).hub.step? = none := step?_after rfl cs
  have hm : ((new settings kind).after cs).markShown = (new settings kind).after cs := markShown_after rfl cs
  exact ⟨bindsLayer_of_no_fault hheld (proper_after settings kind cs) (atGates_after settings kind cs) hq,
    fun f => bindsNothing_of_fault hheld (accounted_after settings kind cs) (tidy_after settings kind cs) hq hm⟩

/-- A control stream cannot be opened while a read waits for the layer; then the layer is bound to another SSRC. -/
theorem bind_all_or_nothing_retried :
    let cs : List Command := [.receiver (.receive [⟨"q", 0⟩, ⟨"h", 2⟩]), .transport (.refuseOpen .control 1),
      .reading (.spawn "t" (some ⟨.media "q", .bytes 10⟩)), .receiver (.bind "q" 1)]
    let s := (new {} .video).after (cs.take 3)
    let u := (new {} .video).after cs
    s.BindsNothing "q" 1 .controlRefused ∧ u.hub.tasks ≠ [] ∧ u.BindsLayer "q" 5 :=
  ⟨(bind_all_or_nothing {} .video _ "q" 1 (by decide +kernel)).2 .controlRefused (by decide +kernel),
    by decide +kernel, (bind_all_or_nothing {} .video _ "q" 5 (by decide +kernel)).1 (by decide +kernel)⟩

end Session

end MediaRelay
