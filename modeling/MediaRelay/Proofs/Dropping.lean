import MediaRelay.Proofs.Holding
import MediaRelay.Proofs.Reception
import MediaRelay.Proofs.Reporting

/-!
# Letting go of the receiver

An application that lets go of its receiver leaves it to the reads that wait.

- `Hub.letGo` is the hub without the application's hold on the receiver. While somebody else holds on it reads like the
  hub itself (`letGo_read`), makes the same moves (`letGo_mover?`), settles alike (`letGo_settle`) and lets time pass
  alike (`letGo_advance`);
- `Session.letGo_steps`: a session that goes on without the receiver shows the same in all its steps, if each read of
  media finds the receiver there;
- `Session.drop_unnoticed`: so it is from the moment when the receiver is dropped, as long as two reads wait whenever a
  step begins.
-/

namespace MediaRelay

/-- The hub when the application has let go of the receiver. -/
def Hub.letGo (h : Hub) : Hub :=
  { h with held := false }

/-- Whether a command uses the receiver that the application holds. -/
def Command.usesReceiver : Command → Bool
  | .reading (.read q) | .reading (.spawn _ (some q)) => q.source.channel = .control
  | .receiver (.describeLayer _) => false
  | .receiver _ | .token (.take _) | .relay (.add _ _) | .relay (.start _) | .relay (.install _) => true
  | _ => false

/-- The report without what is seen of the receiver. -/
def Report.withoutStatus (r : Report) : Report :=
  { r with status := none }

namespace Hub

variable {h : Hub} {t : Task} {q : Read}

/-! ## Moves without the receiver -/

@[simp] theorem letGo_settings (h : Hub) : h.letGo.settings = h.settings := rfl
@[simp] theorem letGo_receiver (h : Hub) : h.letGo.receiver = h.receiver := rfl
@[simp] theorem letGo_handler (h : Hub) : h.letGo.handler = h.handler := rfl
@[simp] theorem letGo_egress (h : Hub) : h.letGo.egress = h.egress := rfl
@[simp] theorem letGo_relays (h : Hub) : h.letGo.relays = h.relays := rfl
@[simp] theorem letGo_endings (h : Hub) : h.letGo.endings = h.endings := rfl
@[simp] theorem letGo_clock (h : Hub) : h.letGo.clock = h.clock := rfl
@[simp] theorem letGo_isCancelled (h : Hub) (k : Token) : h.letGo.isCancelled k = h.isCancelled k := rfl

theorem isAlive_of_letGo (ha : h.letGo.isAlive = true) : h.isAlive = true := by
  unfold isAlive
  rw [Bool.or_eq_true]
  exact .inr ha

/-- While somebody holds on to the receiver reads are the same. -/
theorem letGo_read (ha : q.source.channel = .media → h.letGo.isAlive = true) :
    h.letGo.read q = ((h.read q).1.letGo, (h.read q).2) := by
  rw [read_eq_receiver_read ha, read_eq_receiver_read fun hm => isAlive_of_letGo (ha hm)]
  rfl

theorem letGo_failPump (h : Hub) (t : Task) (p : Pump) (cause : Error) :
    h.letGo.failPump t p cause = (h.failPump t p cause).letGo := by
  unfold failPump
  cases p.relay <;> rfl

theorem letGo_pumped (t : Task) (p : Pump) (h : Hub) (r : Except Error Data) :
    pumped t p h.letGo r = (pumped t p h r).letGo := by
  unfold pumped
  split
  · next packet =>
    rw [letGo_egress]
    obtain ⟨e, _ | cause⟩ := p.forwarder.forward h.egress p.rid packet
    · exact letGo_failPump { h with egress := e } t p _
    · rfl
  · exact letGo_failPump h t p _
  · exact letGo_failPump h t p _

theorem letGo_finish (t : Task) (h : Hub) (r : Except Error Data) : finish t h.letGo r = (finish t h r).letGo := by
  obtain ⟨id, job, stage⟩ := t
  cases job with
  | pump p => exact letGo_pumped _ p h r
  | greet name rid =>
    simp only [finish, greeted]
    split <;> rfl
  | _ => rfl

/-- A task that reads moves alike while somebody holds on to the receiver. -/
theorem letGo_goOn? (ha : q.source.channel = .media → h.letGo.isAlive = true) :
    h.letGo.goOn? t q (finish t) = (h.goOn? t q (finish t)).map letGo := by
  have hr := letGo_read ha
  rcases (h.read q).2.cases_gate? with ⟨r, hd⟩ | ⟨gate, hg⟩
  · have hd' : (h.letGo.read q).2 = .done r := by rw [hr]; exact hd
    rw [goOn?_of_done hd, goOn?_of_done hd', hr]
    exact congrArg some (letGo_finish t _ r)
  · have hg' : (h.letGo.read q).2.gate? = some gate := by rw [hr]; exact hg
    rw [goOn?_of_gate hg, goOn?_of_gate hg']
    unfold park?
    split <;> rfl

theorem letGo_movePump? {p : Pump} (hj : t.job = .pump p) (hq : h.quits t = true) :
    h.letGo.movePump? t p = (h.movePump? t p).map letGo := by
  by_cases hf : p.forwarder.has p.rid = true
  · have hc : h.isCancelled p.token = true := by simpa [quits, hj, hf] using hq
    simp only [movePump?, hf, letGo_isCancelled, hc, not_true_eq_false, if_false, if_true]
    rfl
  · simp only [movePump?, if_pos hf]
    exact congrArg some (letGo_failPump h t p _)

theorem letGo_moveScheduler? (h : Hub) (t : Task) (s : Scheduler) :
    h.letGo.moveScheduler? t s = (h.moveScheduler? t s).map letGo := by
  unfold moveScheduler?
  by_cases hc : h.isCancelled s.token = true ∨ s.period = 0
  · rw [if_pos hc, letGo_isCancelled, if_pos hc]
    rfl
  · rw [if_neg hc, letGo_isCancelled, if_neg hc]
    split
    · next time _ =>
      by_cases hd : time ≤ h.clock
      · rw [if_pos hd, letGo_clock, if_pos hd]
        rfl
      · rw [if_neg hd, letGo_clock, if_neg hd]
        rfl
    · rfl
    · rfl

theorem letGo_startLayer (h : Hub) (index : Nat) (r : Relay) (rid : String) :
    h.letGo.startLayer index r rid = (h.startLayer index r rid).letGo := by
  cases hf : h.settings.feedback <;>
    simp only [startLayer, letGo_settings, hf, if_true, Bool.false_eq_true, if_false] <;> rfl

theorem letGo_startRelay (h : Hub) (index : Nat) (rids : List String) :
    (h.letGo.startRelay index rids).1 = (h.startRelay index rids).1.letGo := by
  have layers : ∀ (r : Relay) (rids : List String) (g : Hub),
      rids.foldl (fun h rid => h.startLayer index r rid) g.letGo
        = (rids.foldl (fun h rid => h.startLayer index r rid) g).letGo := by
    intro r rids
    induction rids with
    | nil => exact fun g => rfl
    | cons rid rids ih =>
      intro g
      rw [List.foldl_cons, List.foldl_cons, letGo_startLayer, ih]
  unfold startRelay
  rw [letGo_relays]
  cases h.relays[index]? with
  | none => rfl
  | some r =>
    dsimp only
    cases r.started with
    | true => rfl
    | false =>
      let marked : Hub := { h with relays := h.relays.modify index fun r => { r with started := true } }
      change (if marked.letGo.isCancelled r.token then (marked.letGo, _) else (_, _) : Hub × Except Error Unit).1
        = (if marked.isCancelled r.token then (marked, _) else (_, _) : Hub × Except Error Unit).1.letGo
      rw [letGo_isCancelled]
      split
      · rfl
      · exact layers r rids marked

theorem letGo_announce (h : Hub) (t : Task) (rids : List String) :
    h.letGo.announce t rids = (h.announce t rids).letGo := by
  unfold announce
  rw [letGo_handler]
  cases h.handler with
  | none => rfl
  | some handler =>
    cases handler with
    | relay index => exact letGo_startRelay (h.dismiss t) index rids
    | recorder name reads => cases reads <;> cases rids <;> rfl

/-- A task moves alike without the receiver, unless it would read media and nobody holds on to the receiver. -/
theorem letGo_move? (ha : h.readsMedia t = true → h.letGo.isAlive = true) :
    h.letGo.move? t = (h.move? t).map letGo := by
  cases hq : t.job.query? with
  | some q =>
    cases hn : h.quits t with
    | true =>
      obtain ⟨id, job, stage⟩ := t
      cases job with
      | pump p => exact letGo_movePump? rfl hn
      | _ => cases hn
    | false =>
      rw [move?_of_query hq hn, move?_of_query (h := h.letGo) hq hn]
      exact letGo_goOn? fun hm => ha (readsMedia_iff.mpr ⟨hn, q, hq, hm⟩)
  | none =>
    obtain ⟨id, job, stage⟩ := t
    cases job with
    | feedback s => exact letGo_moveScheduler? h _ s
    | announce rids => exact congrArg some (letGo_announce h _ rids)
    | _ => cases hq

/-- A task that would read media when the receiver is gone can go on. -/
theorem move?_of_gone (hr : h.readsMedia t = true) (hd : h.isAlive = false) : ∃ g, h.move? t = some g := by
  obtain ⟨hn, ⟨source, form⟩, hq, hm⟩ := readsMedia_iff.mp hr
  rw [move?_of_query hq hn]
  cases source with
  | media rid => exact ⟨_, goOn?_of_done (r := .error .closedPipe) (by simp only [Hub.read, hd])⟩
  | _ => cases hm

/-! ## Runs without the receiver -/

/-- Two searches of a list have one result if the second fails where the first does, and agrees on what the first
finds. -/
theorem findSome?_eq_of_found {α β : Type} {f g : α → Option β} {as : List α} (hn : ∀ a, f a = none → g a = none)
    (hs : ∀ a b, as.findSome? f = some b → f a = some b → g a = some b) : as.findSome? f = as.findSome? g := by
  induction as with
  | nil => rfl
  | cons a as ih =>
    rw [List.findSome?_cons, List.findSome?_cons]
    cases hf : f a with
    | none =>
      rw [hn a hf]
      exact ih fun a' b' hb' => hs a' b' (by rw [List.findSome?_cons, hf]; exact hb')
    | some b => rw [hs a b (by rw [List.findSome?_cons, hf]) hf]

/-- The first task that can go on is the same, and so is its move. -/
theorem letGo_mover? (hr : ∀ t g, h.letGo.mover? = some (t, g) → h.readsMedia t = true → h.letGo.isAlive = true) :
    h.letGo.mover? = h.mover?.map (Prod.map id letGo) := by
  have alike : ∀ t, (h.readsMedia t = true → h.letGo.isAlive = true) →
      (h.letGo.move? t).map (t, ·) = ((h.move? t).map (t, ·)).map (Prod.map id letGo) := fun t ha => by
    rw [letGo_move? ha, Option.map_map, Option.map_map]
    rfl
  unfold mover?
  rw [List.map_findSome?]
  refine findSome?_eq_of_found (fun t hn => ?_) fun t m hm hf => ?_
  · refine (alike t fun ht => ?_).symm.trans hn
    -- who would read when the receiver is gone can go on
    by_contra hd
    obtain ⟨g, hg⟩ := move?_of_gone (h := h.letGo) ht (Bool.not_eq_true _ ▸ hd)
    rw [hg] at hn
    cases hn
  · refine (alike t fun ht => ?_).symm.trans hf
    obtain ⟨g, -, rfl⟩ := Option.map_eq_some_iff.mp hf
    exact hr t g hm ht

/-- Tasks that all wait go on waiting: those that read hold on to the receiver. -/
theorem letGo_quiet (hq : h.step? = none) : h.letGo.step? = none := by
  have hm : h.letGo.mover? = h.mover?.map (Prod.map id letGo) := letGo_mover? fun t g hm ht => by
    have htasks : t ∈ h.tasks := (of_mover? hm).1
    obtain ⟨-, q, hq', -⟩ := readsMedia_iff.mp ht
    have hw := holdsReceiver_of_waiting hq' (List.findSome?_eq_none_iff.mp hq t htasks)
    exact isAlive_of_holdsReceiver (h := h.letGo) htasks hw
  rw [step?_eq_mover?] at hq ⊢
  rw [hm, Option.map_eq_none_iff.mp hq]
  rfl

theorem letGo_run (n : Nat) (hr : ∀ x ∈ runChanges n h.letGo, x.FindsReceiver) : run n h.letGo = (run n h).letGo := by
  induction n generalizing h with
  | zero => rfl
  | succ n ih =>
    have hm : h.letGo.mover? = h.mover?.map (Prod.map id letGo) := letGo_mover? fun t g hm ht =>
      hr ⟨.move t, h.letGo, g⟩ (by simp only [runChanges, hm, List.mem_cons, true_or]) ht
    unfold run
    rw [step?_eq_mover?, step?_eq_mover?, hm]
    cases hx : h.mover? with
    | none => rfl
    | some m =>
      refine ih fun x hx' => hr x ?_
      rw [runChanges, hm, hx]
      exact List.mem_cons_of_mem _ hx'

theorem letGo_settle (hr : ∀ x ∈ h.letGo.settleChanges, x.FindsReceiver) : h.letGo.settle = h.settle.letGo :=
  letGo_run h.weight hr

theorem letGo_pass (n target : Nat) (hr : ∀ x ∈ passChanges n target h.letGo, x.FindsReceiver) :
    pass n target h.letGo = (pass n target h).letGo := by
  induction n generalizing h with
  | zero => rfl
  | succ n ih =>
    have hn : h.letGo.nextDeadline? = h.nextDeadline? := rfl
    unfold pass
    rw [hn]
    cases hx : h.nextDeadline? with
    | none => rfl
    | some time =>
      dsimp only
      by_cases ht : time ≤ target
      · simp only [passChanges, hn, hx, if_pos ht] at hr
        rw [if_pos ht, if_pos ht]
        have hs : settle { h.letGo with clock := time } = (settle { h with clock := time }).letGo :=
          letGo_settle (h := { h with clock := time }) fun x hx => hr x (List.mem_append_left _ hx)
        rw [hs]
        refine ih fun x hx => hr x (List.mem_append_right _ ?_)
        rw [hs]
        exact hx
      · rw [if_neg ht, if_neg ht]
        rfl

theorem letGo_advance (nanoseconds : Nat) (hr : ∀ x ∈ h.letGo.advanceChanges nanoseconds, x.FindsReceiver) :
    h.letGo.advance nanoseconds = (h.advance nanoseconds).letGo :=
  letGo_pass nanoseconds (h.clock + nanoseconds) hr

end Hub

namespace Session

variable {s : Session} {c : Command}

/-! ## Sessions without the receiver -/

/-- The session when the application has let go of the receiver. -/
def letGo (s : Session) : Session :=
  s.setHub s.hub.letGo

@[simp] theorem letGo_hub (s : Session) : s.letGo.hub = s.hub.letGo := rfl
@[simp] theorem letGo_outbounds (s : Session) : s.letGo.outbounds = s.outbounds := rfl
@[simp] theorem letGo_tokens (s : Session) : s.letGo.tokens = s.tokens := rfl
@[simp] theorem letGo_tasks (s : Session) : s.letGo.tasks = s.tasks := rfl
@[simp] theorem letGo_channels (s : Session) : s.letGo.channels = s.channels := rfl
@[simp] theorem letGo_static? (s : Session) (name : String) : s.letGo.static? name = s.static? name := rfl
@[simp] theorem letGo_relay? (s : Session) (name : String) : s.letGo.relay? name = s.relay? name := rfl
@[simp] theorem letGo_forwarder? (s : Session) (name : String) : s.letGo.forwarder? name = s.forwarder? name := rfl

@[simp] theorem letGo_refuseRead_media (s : Session) (rid : String) (form : Form) :
    s.letGo.refuseRead ⟨.media rid, form⟩ = s.refuseRead ⟨.media rid, form⟩ := rfl

/-- Without the receiver a read of media is called as before, if it finds the receiver there. -/
theorem letGo_performRead {c : ReadCommand} (hc : (Command.reading c).usesReceiver = false)
    (hr : ∀ q, c = .read q → s.hub.offers q = true → s.hub.letGo.isAlive = true) :
    s.letGo.performRead c = ((s.performRead c).1.letGo, (s.performRead c).2) := by
  cases c with
  | read q =>
    obtain ⟨source, form⟩ := q
    cases source with
    | media rid =>
      simp only [performRead, letGo_refuseRead_media]
      cases hf : s.refuseRead ⟨.media rid, form⟩ with
      | some r => rfl
      | none =>
        have ha := hr _ rfl ((refuseRead_eq_none_iff _).mp hf)
        simp only [letGo_hub, Hub.letGo_read fun _ => ha]
        rfl
    | _ => cases hc
  | spawn name query =>
    cases query with
    | none => rfl
    | some q =>
      obtain ⟨source, form⟩ := q
      cases source with
      | media rid =>
        simp only [performRead, letGo_refuseRead_media]
        cases s.refuseRead ⟨.media rid, form⟩ <;> rfl
      | _ => cases hc
  | poll name =>
    simp only [performRead, letGo_tasks, letGo_hub, Hub.letGo_endings]
    cases s.tasks.find? name with
    | none => rfl
    | some u =>
      cases u with
      | refused r => rfl
      | running i =>
        dsimp only
        cases s.hub.endings.find? i <;> rfl
  | abort name =>
    simp only [performRead, letGo_tasks]
    cases s.tasks.find? name with
    | none => rfl
    | some u => cases u <;> rfl

theorem letGo_performToken {c : TokenCommand} (hc : (Command.token c).usesReceiver = false) :
    s.letGo.performToken c = ((s.performToken c).1.letGo, (s.performToken c).2) := by
  cases c with
  | take name => cases hc
  | state name | cancel name =>
    simp only [performToken, letGo_tokens]
    cases s.tokens.find? name <;> rfl

theorem letGo_performTransport (s : Session) (c : TransportCommand) :
    s.letGo.performTransport c = ((s.performTransport c).1.letGo, (s.performTransport c).2) := by
  cases c <;> rfl

theorem letGo_performOutbound (s : Session) (c : OutboundCommand) :
    s.letGo.performOutbound c = ((s.performOutbound c).1.letGo, (s.performOutbound c).2) := by
  have write : ∀ name p,
      s.letGo.writeOutbound name p = ((s.writeOutbound name p).1.letGo, (s.writeOutbound name p).2) := by
    intro name p
    simp only [writeOutbound, letGo_outbounds]
    cases s.outbounds.find? name <;> rfl
  cases c with
  | info name | bind name writer | unbind name =>
    simp only [performOutbound, letGo_static?]
    cases s.static? name <;> rfl
  | write name p => exact write name p
  | writeDatagram name d =>
    cases ho : (s.outbounds.find? name).isNone with
    | true => simp only [performOutbound, letGo_outbounds, ho, if_true]
    | false =>
      simp only [performOutbound, letGo_outbounds, ho, Bool.false_eq_true, if_false]
      cases decodeMedia d with
      | error e => rfl
      | ok p => exact write name p
  | _ => rfl

theorem letGo_performRelay {c : RelayCommand} (hc : (Command.relay c).usesReceiver = false) :
    s.letGo.performRelay c = ((s.performRelay c).1.letGo, (s.performRelay c).2) := by
  cases c with
  | add name map | start name | install name => cases hc
  | takeFailures name =>
    simp only [performRelay, letGo_relay?, letGo_channels]
    cases s.relay? name with
    | none => rfl
    | some r =>
      cases ht : (s.channels.find? name).any fun c => c.relay = r.1 with
      | true => simp only [ht, if_true]
      | false =>
        simp only [ht, Bool.false_eq_true, if_false]
        rfl
  | close name | state name =>
    simp only [performRelay, letGo_relay?]
    cases s.relay? name <;> rfl
  | addForwarder name map => rfl
  | has name rid | forward name rid p =>
    simp only [performRelay, letGo_forwarder?]
    cases s.forwarder? name <;> rfl
  | startPump name rid forwarder =>
    simp only [performRelay, letGo_forwarder?, letGo_hub, Hub.letGo_receiver]
    cases s.hub.receiver.layer? rid <;> cases s.forwarder? forwarder <;> rfl
  | startScheduler name rid period bitrate | giveFeedback rid bitrate =>
    simp only [performRelay, letGo_hub, Hub.letGo_receiver]
    cases s.hub.receiver.layer? rid <;> rfl

/-- Layers can be described when the receiver is gone. -/
theorem perform_describeLayer (s : Session) (rid : String) :
    s.perform (.receiver (.describeLayer rid)) = s.performHeld (.describeLayer rid) :=
  ite_self _

/-- Without the receiver a command that does not use it does the same, if its reads of media find the receiver there. -/
theorem letGo_perform (hc : c.usesReceiver = false) (hr : ∀ x ∈ s.letGo.performChanges c, x.FindsReceiver) :
    s.letGo.perform c = ((s.perform c).1.letGo, (s.perform c).2) := by
  cases c with
  | reading c =>
    refine letGo_performRead hc fun q hq ho => ?_
    subst hq
    refine hr _ (List.mem_singleton.mpr rfl) ?_
    obtain ⟨source, form⟩ := q
    cases source with
    | media rid => exact (Bool.and_eq_true _ _).mpr ⟨ho, rfl⟩
    | _ => cases hc
  | receiver c =>
    cases c with
    | describeLayer rid => rw [perform_describeLayer, perform_describeLayer]; rfl
    | _ => cases hc
  | token c => exact letGo_performToken hc
  | transport c => exact letGo_performTransport s c
  | outbound c => exact letGo_performOutbound s c
  | relay c => exact letGo_performRelay hc
  | advance n =>
    show (s.letGo.setHub _, Reply.done) = _
    rw [letGo_hub, Hub.letGo_advance _ hr]
    rfl
  | unknown => rfl

/-- Without the receiver a step shows the same but for what is seen of the receiver. -/
theorem letGo_step (hc : c.usesReceiver = false) (hr : ∀ x ∈ s.letGo.changes c, x.FindsReceiver) :
    s.letGo.step c = ((s.step c).1.letGo, (s.step c).2.withoutStatus) := by
  have hp := letGo_perform hc fun x hx => hr x (List.mem_append_left _ hx)
  have hs : (s.perform c).1.hub.letGo.settle = (s.perform c).1.hub.settle.letGo :=
    Hub.letGo_settle fun x hx => hr x (List.mem_append_right _ (by rw [hp]; exact hx))
  simp only [step, act, hp, letGo_hub, hs]
  rfl

/-- Without the receiver steps that do not use it show the same but for what is seen of the receiver, if each read of
media finds the receiver there. -/
theorem letGo_steps {cs : List Command} (hc : ∀ c ∈ cs, c.usesReceiver = false)
    (hr : ∀ i (hi : i < cs.length), ∀ x ∈ (s.letGo.after (cs.take i)).changes cs[i], x.FindsReceiver) :
    s.letGo.steps cs = ((s.after cs).letGo, (s.steps cs).2.map Report.withoutStatus) := by
  induction cs generalizing s with
  | nil => rfl
  | cons c cs ih =>
    have hs := letGo_step (hc c List.mem_cons_self) (hr 0 (Nat.zero_lt_succ _))
    have hrest := ih (s := (s.step c).1) (fun d hd => hc d (List.mem_cons_of_mem _ hd)) fun i hi => by
      have := hr (i + 1) (Nat.succ_lt_succ hi)
      rw [List.take_succ_cons, after_cons, hs] at this
      exact this
    simp only [steps, hs, hrest]
    rfl

/-! ## The receiver is dropped -/

/-- It does not matter whether the receiver has been dropped before. -/
theorem perform_drop (s : Session) : s.perform (.receiver .drop) = s.performHeld .drop :=
  ite_self _

/-- That the receiver is dropped changes nothing but the hold on it. -/
theorem step_drop (hq : s.hub.step? = none) (hm : s.markShown = s) : (s.step (.receiver .drop)).1 = s.letGo := by
  have hp : (s.perform (.receiver .drop)).1 = s.letGo := congrArg Prod.fst (perform_drop s)
  rw [step_fst, hp, letGo_hub, (Hub.settle_of_quiet (Hub.letGo_quiet hq)).1]
  exact (congrArg letGo hm : s.markShown.letGo = s.letGo)

/-- The receiver is there for a step: two reads wait when it begins, or else each read of media that it makes finds the
receiver there. -/
def Spans (s : Session) (c : Command) : Prop :=
  2 ≤ s.hub.tasks.countP Task.holdsReceiver ∨ ∀ x ∈ s.changes c, x.FindsReceiver

/-- What it comes to that the receiver is dropped and the session goes on with some commands. -/
structure DropUnnoticed (s : Session) (ds : List Command) : Prop where
  /-- The drop itself changes nothing but the hold on the receiver. -/
  drop : (s.step (.receiver .drop)).1 = s.letGo
  /-- If the receiver is there for all steps, they show what they would have shown without the drop, and the session is
  where it would have been. -/
  same : (∀ i (hi : i < ds.length), (s.letGo.after (ds.take i)).Spans ds[i]) →
    s.letGo.steps ds = ((s.after ds).letGo, (s.steps ds).2.map Report.withoutStatus)
  /-- A layer of a relay fails if its pump reads when the receiver is gone. -/
  lost : ∀ x ∈ s.letGo.history ds, ∀ t p j, x.cause = .move t → t.job = .pump p → p.relay = some j →
    x.readsMedia = true → x.before.isAlive = false → x.Fails j ⟨p.rid, x.before.ssrcOf p.rid, .closedPipe⟩

/-- In every run the receiver is there in a step for which it is said to be there. -/
theorem Spans.alive {settings : Settings} {kind : Kind} {cs : List Command}
    (hs : ((new settings kind).after cs).Spans c) (hh : ((new settings kind).after cs).hub.held = false) :
    ∀ x ∈ ((new settings kind).after cs).changes c, x.FindsReceiver := by
  obtain ⟨a, ho⟩ := (proper_after settings kind cs).owned
  rcases hs with hw | hr
  · exact findsReceiver_changes hh (step?_after rfl cs) (tidy_after settings kind cs) ho.ids hw c
  · exact hr

/-- Whatever a session has done before, that the receiver is dropped is not noticed in what it does without the
receiver, as long as two reads wait between its steps or nobody reads media when the receiver is gone. -/
theorem drop_unnoticed (settings : Settings) (kind : Kind) (cs : List Command) {ds : List Command}
    (hd : ∀ c ∈ ds, c.usesReceiver = false) : ((new settings kind).after cs).DropUnnoticed ds := by
  have hdrop := step_drop (step?_after (s := new settings kind) rfl cs) (markShown_after rfl cs)
  refine ⟨hdrop, fun hs => letGo_steps hd fun i hi => ?_, fun x _ t p j ht hj hp hr ha => ?_⟩
  · have hrun : ((new settings kind).after cs).letGo.after (ds.take i)
        = (new settings kind).after (cs ++ .receiver .drop :: ds.take i) := by
      rw [after_append, after_cons, hdrop]
    have hgone : (((new settings kind).after cs).letGo.after (ds.take i)).hub.held = false := by
      have hsound : ((new settings kind).after cs).letGo.hub.receiver.Sound := (proper_after settings kind cs).sound
      exact Bool.eq_false_iff.mpr fun h => Bool.false_ne_true ((grown_after hsound (ds.take i)).first.held h)
    have hi := hs i hi
    rw [hrun] at hgone hi ⊢
    exact hi.alive hgone
  · obtain ⟨hn, -⟩ : x.before.quits t = false ∧ _ := by simpa [Change.readsMedia, ht, Hub.readsMedia] using hr
    obtain ⟨hf, hc⟩ : p.forwarder.has p.rid = true ∧ x.before.isCancelled p.token = false := by
      simpa [Hub.quits, hj] using hn
    exact ⟨⟨t, p, ht, hj, hp, rfl, hc, .unread hf (by simp only [Hub.read, ha])⟩, rfl⟩

/-- The pumps of three layers wait when the receiver is dropped, and one of them fails later. -/
theorem drop_unnoticed_three_layers :
    let cs : List Command := [.outbound (.add "o" 100 "video" "stream" none (some "w")),
      .outbound (.add "p" 200 "video" "stream" none (some "v")),
      .relay (.add "r" [("q", "o"), ("h", "o"), ("f", "p")]), .relay (.takeFailures "r"),
      .receiver (.receive [⟨"q", 7⟩, ⟨"h", 8⟩, ⟨"f", 9⟩])]
    let ds : List Command := [.transport (.pushMedia 7 { payload := [1] }), .outbound (.setWriter "v" none (some true)),
      .transport (.pushMedia 9 { payload := [2] }), .advance 2000, .outbound (.unbind "o"),
      .transport (.pushMedia 8 { payload := [3] }), .outbound (.bind "o" "w"),
      .transport (.pushMedia 7 { payload := [4] })]
    let s := (new {} .video).after cs
    (∀ c ∈ ds, c.usesReceiver = false)
      ∧ (∀ i ≤ ds.length, 2 ≤ (s.letGo.after (ds.take i)).hub.tasks.countP Task.holdsReceiver)
      ∧ (s.letGo.steps ds).2.map (·.media) = [[("w", [{ ssrc := 100, payload := [1] }])], [], [], [], [], [], [],
        [("w", [{ ssrc := 100, payload := [4] }])]]
      ∧ (s.letGo.steps ds).2.map (·.failures) = [[], [], [("r", ⟨"f", 9, .other "mock writer: write failed"⟩)],
        [], [], [], [], []]
      ∧ s.DropUnnoticed ds :=
  ⟨by decide +kernel, by decide +kernel, by decide +kernel, by decide +kernel,
    drop_unnoticed {} .video _ (by decide +kernel)⟩

/-- The pump of the only layer takes a packet after the receiver was dropped, finds it gone when it reads again, and
fails; without the drop it goes on. -/
theorem drop_noticed :
    let cs : List Command := [.outbound (.add "o" 100 "video" "stream" none (some "w")), .relay (.add "r" [("", "o")]),
      .relay (.takeFailures "r"), .receiver (.receive [⟨"", 7⟩])]
    let ds : List Command :=
      [.transport (.pushMedia 7 { payload := [1] }), .transport (.pushMedia 7 { payload := [2] })]
    let s := (new {} .video).after cs
    let t := (s.step (.receiver .drop)).1
    s.hub.relays.map Relay.started = [true]
      ∧ (s.steps ds).2.map (·.failures) = [[], []]
      ∧ (t.steps ds).2.map (·.failures) = [[("r", ⟨"", 7, .closedPipe⟩)], []]
      ∧ ((s.after ds).hub.egress.writer "w").written
        = [{ ssrc := 100, payload := [1] }, { ssrc := 100, payload := [2] }]
      ∧ ((t.after ds).hub.egress.writer "w").written = [{ ssrc := 100, payload := [1] }] := by
  decide +kernel

end Session

end MediaRelay
