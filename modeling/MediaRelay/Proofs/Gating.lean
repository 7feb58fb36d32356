import MediaRelay.Proofs.Names
import MediaRelay.Proofs.Readers
import MediaRelay.Proofs.Time

/-!
# What a read comes to

Whether a read fails, waits or is a read of a stream depends on what was asked of the receiver before: to stop
(`wasStopped`), to receive (`hasReceived`), and to bind the layer.

- `Gated` states the rules in the order in which they apply, and every read at any moment of a run obeys them
  (`gated_after`, `gated_along`);
- a task that reads waits at a gate only as long as the same read, called at that moment, would wait there
  (`waits_after`);
- `GatedReads` and `reads_gated`: all of this for all reads of a run, called or left running.
-/

namespace MediaRelay

/-! ## What was asked of the receiver -/

/-- Whether a change is a call to stop the receiver, whatever came of it. -/
def Change.isStop (x : Change) : Bool :=
  match x.cause with
  | .command (.receiver .stop) _ => x.before.held
  | _ => false

/-- Whether a change is a call to receive that gave a track. -/
def Change.isReceipt (x : Change) : Bool :=
  match x.cause with
  | .command (.receiver (.receive _)) (.track _) => true
  | _ => false

/-- Whether the receiver was told to stop. -/
def wasStopped (past : List Change) : Bool :=
  past.any Change.isStop

/-- Whether encodings were received. -/
def hasReceived (past : List Change) : Bool :=
  past.any Change.isReceipt

/-! ## The rules -/

/-- A read of one stream of the transport, and of the hub nothing else. -/
def Hub.readStream (h : Hub) (q : Read) (ssrc : Ssrc) : Hub × Progress Data :=
  let (transport, attempt) := h.transport.readStream q.source.channel ssrc (q.buffer h.receiver.mtu)
  ({ h with transport }, q.progress attempt)

/-- What a read of a hub comes to after all that happened before: the rules in the order in which they apply. -/
structure Gated (past : List Change) (h : Hub) (q : Read) : Prop where
  /-- Once the receiver was told to stop, even in vain, the read fails and takes nothing. -/
  stopped : wasStopped past → h.read q = (h, .done (.error .closedPipe))
  /-- Otherwise it waits until there is a track. -/
  unreceived : wasStopped past = false → hasReceived past = false → h.read q = (h, .awaitsTrack)
  /-- Otherwise control data of an unknown RID cannot be read. -/
  unknown : wasStopped past = false → hasReceived past → q.source.channel = .control →
    h.receiver.layerOf? q.source = none → h.read q = (h, .done (.error .unknownRid))
  /-- Otherwise it waits until its layer is bound. -/
  unbound : wasStopped past = false → hasReceived past → ∀ l, h.receiver.layerOf? q.source = some l →
    l.isReady = false → h.read q = (h, .awaitsLayer)
  /-- Otherwise it is a read of the layer's own stream. -/
  bound : wasStopped past = false → hasReceived past → ∀ l, h.receiver.layerOf? q.source = some l →
    l.isReady → h.read q = h.readStream q l.ssrc

/-! ## The receiver knows what was asked of it -/

namespace Receiver

variable {r : Receiver Ssrc} {past : List Change}

/-- The receiver knows whether it was told to stop and whether it has received. -/
structure Told (r : Receiver Ssrc) (past : List Change) : Prop where
  accounted : r.Accounted past
  closing : r.closing = wasStopped past
  received : r.received = hasReceived past

theorem told_new (kind : Kind) (mtu : Nat) : Told { kind, mtu } [] :=
  ⟨accounted_new kind mtu, rfl, rfl⟩

/-- Where a read stands by what was asked of the receiver. -/
theorem Told.standing (h : r.Told past) (s : Source) :
    r.standing s = if wasStopped past then .failed .closedPipe
      else if hasReceived past = false then .awaitsTrack
      else match r.layerOf? s with
        | none => .failed .unknownRid
        | some l => if l.isReady then .atStream s.channel l.ssrc else .awaitsLayer := by
  unfold Receiver.standing
  rw [h.closing]
  cases hw : wasStopped past with
  | true => rfl
  | false =>
    simp only [Bool.false_eq_true, if_false, h.received]
    cases hh : hasReceived past with
    | false => rfl
    | true =>
      have ht : r.track.isNone = false := by
        rw [Option.isNone_eq_false_iff, ← h.accounted.sound.received, h.received, hh]
      simp only [not_true_eq_false, if_false, ht, Bool.false_eq_true, Bool.true_eq_false]
      cases hl : r.layerOf? s with
      | none => rfl
      | some l =>
        have hmem : l ∈ r.layers := by
          cases s with
          | media rid => exact List.mem_of_find?_eq_some hl
          | control rid => exact List.mem_of_find?_eq_some hl
          | firstControl => exact List.mem_of_mem_head? hl
        dsimp only
        cases hr : l.isReady with
        | false =>
          have hb : l.binding = .unbound := by
            cases hb : l.binding <;> simp [Layer.isReady, Binding.isReady, hb] at hr ⊢
          simp [Layer.standing, hb]
        | true =>
          obtain ⟨m, c, hb⟩ := h.accounted.sound.bound (h.closing.trans hw) l hmem hr
          obtain ⟨rfl, rfl⟩ := h.accounted.named l hmem m c false hb
          cases hc : s.channel <;> simp [Layer.standing, hb]

end Receiver

/-- Every read of a receiver that is there obeys the rules. -/
theorem gated_of_told {h : Hub} {past : List Change} (ht : h.receiver.Told past) (ha : h.isAlive = true) (q : Read) :
    Gated past h q := by
  have hs := ht.standing q.source
  have hread := Hub.read_of_alive ha q
  constructor
  case stopped =>
    intro hw
    rw [if_pos hw] at hs
    rw [hread]
    simp only [Receiver.read, hs]
  all_goals
    intro hw
    rw [if_neg (by simp [hw])] at hs
  case unreceived =>
    intro hr
    rw [if_pos hr] at hs
    rw [hread]
    simp only [Receiver.read, hs]
  all_goals
    intro hr
    rw [if_neg (by simp [hr])] at hs
  case unknown =>
    intro _ hl
    rw [hl] at hs
    rw [hread]
    simp only [Receiver.read, hs]
  case unbound =>
    intro l hl hb
    simp only [hl, hb, Bool.false_eq_true, if_false] at hs
    rw [hread]
    simp only [Receiver.read, hs]
  case bound =>
    intro l hl hb
    simp only [hl, hb, if_true] at hs
    rw [hread, Receiver.read_eq_of_atStream hs]
    rfl

/-! ## Runs -/

namespace Session

open Receiver

variable {s : Session} {past : List Change}

theorem wasStopped_snoc (past : List Change) (x : Change) :
    wasStopped (past ++ [x]) = (wasStopped past || x.isStop) := by
  simp [wasStopped]

theorem hasReceived_snoc (past : List Change) (x : Change) :
    hasReceived (past ++ [x]) = (hasReceived past || x.isReceipt) := by
  simp [hasReceived]

/-- Only a call to stop, or one to receive, is one. -/
theorem isStop_of_not {c : Command} (hc : c.changesReceiver = false) (reply : Reply) (h g : Hub) :
    (Change.mk (.command c reply) h g).isStop = false ∧ (Change.mk (.command c reply) h g).isReceipt = false := by
  constructor
  · unfold Change.isStop
    split
    · next he =>
      cases he
      cases hc
    · rfl
  · unfold Change.isReceipt
    split
    · next he =>
      cases he
      cases hc
    · rfl

/-- What a command changes of whether the receiver is to stop and has received. -/
theorem flags_perform (hs : s.hub.receiver.Sound) {c : Command} (hc : ∀ n, c ≠ .advance n) :
    let x := Change.mk (.command c (s.perform c).2) s.hub (s.perform c).1.hub
    x.after.receiver.closing = (x.before.receiver.closing || x.isStop)
      ∧ x.after.receiver.received = (x.before.receiver.received || x.isReceipt) := by
  intro x
  by_cases hch : c.changesReceiver = true
  · cases hh : s.hub.held with
    | false =>
      -- a receiver that was let go of cannot be told anything
      cases c with
      | receiver c =>
        have hp := perform_of_not_held hh hch
        cases c with
        | receive | bind | stop => simp [x, hp, hh, Change.isStop, Change.isReceipt]
        | _ => cases hch
      | _ => cases hch
    | true =>
      cases c with
      | receiver c =>
        have hp := perform_of_held hh c
        cases c with
        | receive es =>
          simp only [x, hp, performHeld, Session.receive, setHub]
          rcases s.hub.receiver.receive_cases s.hub.transport es with
            ⟨e, -, he⟩ | ⟨u, e, -, he⟩ | ⟨u, ls, -, -, he⟩ <;> rw [he] <;>
              simp [Change.isStop, Change.isReceipt, Hub.spawn]
        | bind rid ssrc =>
          simp only [x, hp, performHeld, setHub]
          rcases s.hub.receiver.bind_cases s.hub.transport rid ssrc with
            ⟨e, -, he⟩ | ⟨u, e, -, -, he⟩ | ⟨u, m, k, -, -, he⟩ <;> rw [he] <;>
              simp [Change.isStop, Change.isReceipt, Receiver.setLayers]
        | stop =>
          simp only [x, hp, performHeld, setHub, Change.isStop, Change.isReceipt, hh, Bool.or_true, Bool.or_false]
          by_cases hph : s.hub.receiver.phase = .stopped
          · rw [stop_of_stopped hph]
            exact ⟨(hs.stopped hph).1, rfl⟩
          · obtain ⟨-, hcl, hr, -⟩ := stop_fields hph s.hub.transport
            exact ⟨hcl, hr⟩
        | _ => cases hch
      | _ => cases hch
  · obtain ⟨h₁, h₂⟩ := isStop_of_not (by simpa using hch) (s.perform c).2 s.hub (s.perform c).1.hub
    rw [show x.isStop = false from h₁, show x.isReceipt = false from h₂, Bool.or_false, Bool.or_false]
    rcases (deed_of_perform hc).receiver_cases with ⟨hr, -⟩ | ⟨es, rfl, -⟩ | ⟨rid, ssrc, rfl, -⟩ | ⟨rfl, -⟩
    · exact ⟨congrArg _ hr, congrArg _ hr⟩
    all_goals exact absurd rfl hch

theorem told_perform (h : s.hub.receiver.Told past) {c : Command} (hc : ∀ n, c ≠ .advance n) :
    (s.perform c).1.hub.receiver.Told (past ++ [⟨.command c (s.perform c).2, s.hub, (s.perform c).1.hub⟩]) := by
  obtain ⟨hcl, hr⟩ := flags_perform h.accounted.sound hc
  refine ⟨accounted_perform h.accounted hc _, ?_, ?_⟩
  · rw [wasStopped_snoc, ← h.closing]
    exact hcl
  · rw [hasReceived_snoc, ← h.received]
    exact hr

theorem told_move {t : Task} {g : Hub} (h : s.hub.receiver.Told past) (hm : s.hub.mover? = some (t, g)) :
    g.receiver.Told (past ++ [⟨.move t, s.hub, g⟩]) := by
  refine ⟨accounted_move h.accounted hm, ?_, ?_⟩ <;>
    rw [(Hub.move_of_move? (Hub.of_mover? hm).2).framed.receiver]
  · rw [wasStopped_snoc, h.closing]
    exact (Bool.or_false _).symm
  · rw [hasReceived_snoc, h.received]
    exact (Bool.or_false _).symm

theorem told_invariant : Invariant fun s past => s.hub.receiver.Told past where
  move _ _ _ _ h hm := told_move h hm
  clock _ _ _ h := h
  command _ _ _ h hc := told_perform h hc
  shown _ _ h := h

/-- In every state that a session comes to the receiver knows what was asked of it. -/
theorem told_after (settings : Settings) (kind : Kind) (cs : List Command) :
    ((new settings kind).after cs).hub.receiver.Told ((new settings kind).history cs) :=
  @Invariant.after _ told_invariant cs _ [] (told_new kind settings.receiverMtu)

/-- At every moment of a run all reads obey the rules. -/
theorem gated_along (settings : Settings) (kind : Kind) (cs : List Command) :
    Along (fun past x => x.before.isAlive = true → ∀ q, Gated past x.before q) [] ((new settings kind).history cs) :=
  told_invariant.along (fun _ _ _ _ h _ ha q => gated_of_told h ha q) (fun _ _ _ h _ ha q => gated_of_told h ha q) cs
    (told_new kind settings.receiverMtu)

end Session

/-! ## Gates that tasks have come to -/

namespace Receiver

variable {r r' : Receiver Ssrc}

/-- Whether a read has got as far as a gate: what it waited for before is there. -/
def Reached (r : Receiver Ssrc) (s : Source) : Gate → Prop
  | .track => True
  | .layer => r.received = true
  | .datagram => r.received = true ∧ ∃ l, r.layerOf? s = some l ∧ l.isReady = true
  | .deadline _ => False

/-- A layer that is found is found later. -/
theorem Onward.layerOf? (h : r.Onward r') {s : Source} {l : Layer Ssrc} (hl : r.layerOf? s = some l) :
    ∃ l', r'.layerOf? s = some l' ∧ l.Onward l' := by
  cases s with
  | media rid => exact h.layer? hl
  | control rid => exact h.layer? hl
  | firstControl =>
    obtain ⟨ls', hls', hf⟩ := h.track _ (track_of_layers_ne_nil (List.ne_nil_of_mem (List.mem_of_mem_head? hl)))
    rw [Receiver.layerOf?] at hl ⊢
    rw [layers_of_track hls']
    generalize r.layers = ls at hl hf
    cases hf with
    | nil => cases hl
    | cons hk _ =>
      cases hl
      exact ⟨_, rfl, hk⟩

/-- A gate that was reached stays reached. -/
theorem Onward.reached (h : r.Onward r') {s : Source} {g : Gate} (hg : r.Reached s g) : r'.Reached s g := by
  cases g with
  | track => trivial
  | layer => exact h.received hg
  | datagram =>
    obtain ⟨hr, l, hl, hb⟩ := hg
    obtain ⟨l', hl', ho⟩ := h.layerOf? hl
    exact ⟨h.received hr, l', hl', ho.ready hb⟩
  | deadline => exact hg.elim

/-- Where a read stands that is neither to fail nor without a track. -/
theorem of_standing {s : Source} {x : Standing Ssrc} (hx : r.standing s = x) (hc : x ≠ .failed .closedPipe)
    (ht : x ≠ .awaitsTrack) : r.received = true ∧ (x = .failed .unknownRid
      ∨ ∃ l, r.layerOf? s = some l ∧ x = l.standing s.channel) := by
  subst hx
  unfold standing at hc ht ⊢
  split at hc
  · exact absurd rfl hc
  · next hcl =>
    rw [if_neg hcl] at ht ⊢
    split at ht
    · exact absurd rfl ht
    · next hre =>
      rw [if_neg hre] at hc ⊢
      split at hc
      · exact absurd rfl hc
      · next hn =>
        rw [if_neg hn]
        refine ⟨not_not.mp hre, ?_⟩
        cases hl : r.layerOf? s with
        | none => exact .inl rfl
        | some l => exact .inr ⟨l, rfl, rfl⟩

/-- A read waits for a track only until encodings were received. -/
theorem received_of_awaitsTrack {s : Source} (hs : r.standing s = .awaitsTrack) : r.received = false := by
  unfold standing at hs
  split at hs
  · cases hs
  · split at hs
    · next hn => simpa using hn
    · split at hs
      · cases hs
      · split at hs
        · cases hs
        · next l _ => cases hb : l.binding <;> cases hc : s.channel <;> simp [Layer.standing, hb, hc] at hs

/-- A read that waits has got to its gate, and not beyond. -/
theorem reached_of_read {t : QueueTransport} {q : Read} {gate : Gate} (hr : (r.read t q).2.gate? = some gate) :
    r.Reached q.source gate ∧ ∀ gate', r.Reached q.source gate' →
      (Stage.waiting gate').rank ≤ (Stage.waiting gate).rank → gate' = gate := by
  cases hs : r.standing q.source with
  | failed e =>
    simp only [read, hs] at hr
    cases hr
  | awaitsTrack =>
    simp only [read, hs] at hr
    cases hr
    have hn := received_of_awaitsTrack hs
    refine ⟨trivial, fun gate' hg _ => ?_⟩
    cases gate' with
    | track => rfl
    | layer => exact absurd (hn.symm.trans hg) Bool.false_ne_true
    | datagram => exact absurd (hn.symm.trans hg.1) Bool.false_ne_true
    | deadline => exact hg.elim
  | awaitsLayer =>
    obtain ⟨hre, ⟨⟨⟩⟩ | ⟨l, hl, hls⟩⟩ := of_standing hs (by simp) (by simp)
    simp only [read, hs] at hr
    cases hr
    refine ⟨hre, fun gate' hg hle => ?_⟩
    cases gate' with
    | track => simp [Stage.rank] at hle
    | layer => rfl
    | datagram =>
      obtain ⟨-, k, hk, hkr⟩ := hg
      cases hk.symm.trans hl
      cases hb : l.binding <;> cases hc : q.source.channel <;>
        simp [Layer.standing, Layer.isReady, Binding.isReady, hb, hc] at hls hkr
    | deadline => exact hg.elim
  | atStream ch ssrc =>
    obtain ⟨hre, ⟨⟨⟩⟩ | ⟨l, hl, hls⟩⟩ := of_standing hs (by simp) (by simp)
    have hgate : gate = .datagram := by
      rcases (read_of_atStream (t := t) hs).2 with ⟨-, he⟩ | ⟨-, -, he⟩ | ⟨d, -, -, he⟩ <;> rw [he] at hr <;> cases hr
      rfl
    subst hgate
    refine ⟨⟨hre, l, hl, ?_⟩, fun gate' hg hle => ?_⟩
    · cases hb : l.binding <;> simp [Layer.standing, Layer.isReady, Binding.isReady, hb] at hls ⊢
    · cases gate' with
      | track | layer => simp [Stage.rank] at hle
      | datagram => rfl
      | deadline => exact hg.elim

end Receiver

namespace Hub

variable {h g : Hub} {t : Task} {q : Read}

theorem reached_of_read {gate : Gate} (hr : (h.read q).2.gate? = some gate) :
    h.receiver.Reached q.source gate ∧ ∀ gate', h.receiver.Reached q.source gate' →
      (Stage.waiting gate').rank ≤ (Stage.waiting gate).rank → gate' = gate := by
  unfold Hub.read at hr
  split at hr
  · cases hr
  · exact Receiver.reached_of_read hr

/-- Every task that reads and waits has got as far as its gate. -/
def AtGates (h : Hub) : Prop :=
  ∀ t ∈ h.tasks, ∀ q, t.job.query? = some q → ∀ gate, t.stage = .waiting gate → h.receiver.Reached q.source gate

/-- Tasks that are as they were, or ready to run, are still at gates that they have come to. -/
theorem AtGates.of_mem (ha : h.AtGates) (ho : h.receiver.Onward g.receiver)
    (ht : ∀ u ∈ g.tasks, u ∈ h.tasks ∨ u.stage = .ready) : g.AtGates := by
  intro u hu q hq gate hs
  rcases ht u hu with hu | hr
  · exact ho.reached (ha u hu q hq gate hs)
  · rw [hr] at hs
    cases hs

theorem AtGates.move (ha : h.AtGates) (hm : h.move? t = some g) : g.AtGates := by
  intro u hu q hq gate hs
  rw [(move_of_move? hm).framed.receiver]
  rcases (retasked hm).mem hu with hu | hu | ⟨gate', rfl, hg⟩
  · exact ha u (Owned.mem_others.mp hu).1 q hq gate hs
  · rw [hu] at hs
    cases hs
  · cases hs
    exact (reached_of_read (hg q hq)).1

/-- A task that reads and cannot go on waits where its read, called now, would wait. -/
theorem AtGates.waits (ha : h.AtGates) (ht : t ∈ h.tasks) (hq : t.job.query? = some q) (hm : h.move? t = none) :
    h.isAlive = true ∧ ∃ gate, (h.read q).2.gate? = some gate ∧ t.stage = .waiting gate := by
  refine ⟨isAlive_of_holdsReceiver ht (holdsReceiver_of_waiting hq hm), ?_⟩
  obtain ⟨-, gate, hr, hle⟩ := gate_of_waiting hq hm
  refine ⟨gate, hr, ?_⟩
  cases hs : t.stage with
  | ready =>
    rw [hs] at hle
    cases gate <;> simp [Stage.rank] at hle
  | waiting gate' =>
    rw [hs] at hle
    rw [(reached_of_read hr).2 gate' (ha t ht q hq gate' hs) hle]

end Hub

namespace Session

theorem atGates_invariant : Invariant fun s _ => s.hub.receiver.Sound ∧ s.hub.AtGates where
  move _ _ _ _ h hm := by
    have hm := (Hub.of_mover? hm).2
    exact ⟨(Hub.move_of_move? hm).framed.receiver ▸ h.1, h.2.move hm⟩
  clock _ _ _ h := h
  command s _ _ h hc := by
    have d := deed_of_perform (s := s) hc
    exact ⟨sound_perform h.1 hc, h.2.of_mem (d.onward h.1).receiver fun u hu => d.mem_tasks hu⟩
  shown _ _ h := h

/-- In every state that a session comes to tasks wait at gates that they have come to. -/
theorem atGates_after (settings : Settings) (kind : Kind) (cs : List Command) :
    ((new settings kind).after cs).hub.AtGates :=
  (@Invariant.after _ atGates_invariant cs (new settings kind) []
    ⟨Receiver.sound_new kind _, fun t ht => (by cases ht)⟩).2

end Session

/-! ## All reads of a run -/

/-- What reads come to in a change. -/
structure Change.AsRead (x : Change) : Prop where
  /-- A read that is called replies what it comes to. -/
  called : ∀ q reply, x.cause = .command (.reading (.read q)) reply → x.before.offers q →
    reply = .ofProgress (x.before.read q).2 ∧ x.after = (x.before.read q).1
  /-- A read that is left running becomes a task. -/
  begun : ∀ name q reply, x.cause = .command (.reading (.spawn name (some q))) reply → x.before.offers q →
    x.after = x.before.spawn (.read q)
  /-- A task that reads goes on with what its read, called at that moment, would come to, or waits where that would
  wait; only pumps may end without reading. -/
  released : ∀ t q, x.cause = .move t → t.job.query? = some q →
    x.before.quits t ∨ (∃ r, (x.before.read q).2 = .done r ∧ x.after = Hub.finish t (x.before.read q).1 r)
      ∨ ∃ gate, (x.before.read q).2.gate? = some gate ∧ x.after = x.before.park t gate
  /-- Nothing but that, and being dropped by name, makes a read go. -/
  kept : ∀ t ∈ x.before.tasks, ∀ q, t.job = .read q →
    t ∈ x.after.tasks ∨ x.cause = .move t ∨ ∃ name reply, x.cause = .command (.reading (.abort name)) reply

/-- Reads in a state, and in the run that led to it. -/
structure GatedReads (s : Session) (past : List Change) : Prop where
  /-- At every moment of the run reads of a receiver that was there obeyed the rules. -/
  moments : Session.Along (fun earlier x => x.before.isAlive → ∀ q, Gated earlier x.before q) [] past
  /-- So they do now. -/
  now : s.hub.isAlive → ∀ q, Gated past s.hub q
  /-- What reads came to at every moment is what was replied, and what tasks went on with. -/
  changes : ∀ x ∈ past, x.AsRead
  /-- What waits now would wait there if it was called now, and nothing waits once the receiver was told to stop. -/
  parked : ∀ t ∈ s.hub.tasks, ∀ q, t.job.query? = some q → s.hub.isAlive ∧ wasStopped past = false
    ∧ ∃ gate, (s.hub.read q).2.gate? = some gate ∧ t.stage = .waiting gate

namespace Session

variable {s : Session}

/-- No command but one to drop it makes a task go. -/
theorem kept_perform (hd : s.hub.Tidy) {c : Command} (hc : ∀ n, c ≠ .advance n)
    (ha : ∀ name, c ≠ .reading (.abort name)) {t : Task} (ht : t ∈ s.hub.tasks) : t ∈ (s.perform c).1.hub.tasks := by
  rcases (deed_of_perform (s := s) hc).retasked with ⟨c, -, id, rfl, -, -⟩ | ⟨new, hg, -⟩
  · show t ∈ (s.performRead c).1.hub.tasks
    cases c with
    | read q =>
      simp only [performRead]
      split
      · exact ht
      · obtain ⟨u, hu, -⟩ := s.hub.read_transport q
        rw [hu]
        exact ht
    | spawn name q =>
      cases q with
      | none => exact ht
      | some q =>
        simp only [performRead]
        split
        · exact List.mem_append_left _ ht
        · exact ht
    | poll name =>
      simp only [performRead]
      split
      · exact ht
      · exact ht
      · split
        · exact ht
        · next e he => exact Owned.mem_others.mpr ⟨ht, (hd.ended _ e he).2 t ht⟩
    | abort name => exact absurd rfl (ha name)
  · rw [hg]
    exact List.mem_append_left _ ht

theorem asRead_move {t : Task} {g : Hub} (hm : s.hub.mover? = some (t, g))
    (hids : (s.hub.tasks.map Task.id).Nodup) : (Change.mk (.move t) s.hub g).AsRead := by
  obtain ⟨ht, hm⟩ := Hub.of_mover? hm
  constructor
  case called | begun => intros; contradiction
  case released =>
    intro u q hu hq
    cases hu
    rcases Hub.reader_move hq hm with hn | ⟨-, hr | ⟨gate, hr, -, hg⟩⟩
    · exact .inl hn
    · exact .inr (.inl hr)
    · exact .inr (.inr ⟨gate, hr, hg⟩)
  case kept =>
    intro u hu q hq
    by_cases hut : u.id = t.id
    · rw [List.inj_on_of_nodup_map hids hu ht hut]
      exact .inr (.inl rfl)
    · exact .inl ((Hub.retasked hm).others (Owned.mem_others.mpr ⟨hu, hut⟩))

theorem asRead_perform (hd : s.hub.Tidy) {c : Command} (hc : ∀ n, c ≠ .advance n) :
    (Change.mk (.command c (s.perform c).2) s.hub (s.perform c).1.hub).AsRead := by
  constructor
  case called =>
    intro q reply hcause ho
    cases hcause
    rw [← refuseRead_eq_none_iff] at ho
    simp [perform, performRead, ho, setHub]
  case begun =>
    intro name q reply hcause ho
    cases hcause
    rw [← refuseRead_eq_none_iff] at ho
    simp [perform, performRead, ho, Session.spawn]
  case released => intros; contradiction
  case kept =>
    intro t ht q hq
    by_cases ha : ∃ name, c = .reading (.abort name)
    · obtain ⟨name, rfl⟩ := ha
      exact .inr (.inr ⟨name, _, rfl⟩)
    · exact .inl (kept_perform hd hc (fun name e => ha ⟨name, e⟩) ht)

theorem ordered_invariant : Invariant fun s _ => s.Proper ∧ s.hub.Tidy where
  move _ _ _ _ h hm := ⟨h.1.move hm, h.2.move (Hub.of_mover? hm).1 (Hub.move_of_move? (Hub.of_mover? hm).2)⟩
  clock _ _ time h := ⟨h.1.clock time, h.2.of_eq rfl rfl rfl⟩
  command _ _ _ h hc := ⟨h.1.perform hc, (deed_of_perform hc).tidy h.2⟩
  shown _ _ h := ⟨h.1.shown, h.2⟩

/-- What reads come to in the changes of a run. -/
theorem asRead_history (settings : Settings) (kind : Kind) (cs : List Command) :
    ∀ x ∈ (new settings kind).history cs, x.AsRead := by
  have along : Along (fun _ x => x.AsRead) [] ((new settings kind).history cs) := by
    refine ordered_invariant.along (fun s _ t g h hm => ?_) (fun _ _ _ h hc => asRead_perform h.2 hc) cs
      ⟨proper_new settings kind, tidy_new settings kind⟩
    obtain ⟨a, o⟩ := h.1.owned
    exact asRead_move hm o.ids
  exact fun x hx => (along.of_mem hx).elim fun _ h => h

/-- Whatever was asked of a session, reads fail, wait or read the stream of their layer as the rules say, and a read
that was left running comes to what it would come to if it was called when it goes on. -/
theorem reads_gated (settings : Settings) (kind : Kind) (cs : List Command) :
    GatedReads ((new settings kind).after cs) ((new settings kind).history cs) where
  moments := gated_along settings kind cs
  now ha q := gated_of_told (told_after settings kind cs) ha q
  changes := asRead_history settings kind cs
  parked t ht q hq := by
    have hm : ((new settings kind).after cs).hub.move? t = none :=
      List.findSome?_eq_none_iff.mp (step?_after rfl cs) t ht
    obtain ⟨ha, gate, hr, hs⟩ := (atGates_after settings kind cs).waits ht hq hm
    refine ⟨ha, ?_, gate, hr, hs⟩
    cases hw : wasStopped ((new settings kind).history cs) with
    | false => rfl
    | true =>
      rw [(gated_of_told (told_after settings kind cs) ha q).stopped hw] at hr
      cases hr

end Session

end MediaRelay
