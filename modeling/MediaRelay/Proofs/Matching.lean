import MediaRelay.Proofs.Parallel

/-!
# Commands to sessions that differ in feedback

A command comes to the same in two sessions whose hubs differ in feedback only: the replies are equal, and the hubs
still differ in feedback only (`Session.Matches`). There is one lemma for each sort of commands. When all tasks wait, to
ask how a task has ended gives the same answer (`Paired.ending`).
-/

namespace MediaRelay

namespace Session

variable {l : Links} {s s' : Session}

/-! ## Names -/

namespace Paired

variable (m : s.Paired l s')

include m

theorem static? (name : String) : s.static? name = s'.static? name := by
  unfold Session.static?
  rw [m.statics, m.hub.alike.egress]

theorem relay? (name : String) : s.relay? name = s'.relay? name := by
  unfold Session.relay?
  rw [m.relays, m.hub.alike.relays]

theorem forwarder? (name : String) : s.forwarder? name = s'.forwarder? name := by
  unfold Session.forwarder?
  rw [m.forwarders, m.relay?]

theorem route (map : List (String × String)) : s.route map = s'.route map := by
  unfold Session.route
  rw [m.outbounds]

theorem view : s.view = s'.view := by
  funext k
  unfold Session.view
  rw [m.hub.isAlive]

theorem trackView : s.trackView = s'.trackView := by
  unfold Session.trackView
  rw [m.hub.alike.receiver, m.view]

theorem refuseRead (q : Read) : s.refuseRead q = s'.refuseRead q := by
  unfold Session.refuseRead
  rw [m.hub.alike.receiver, m.hub.alike.held]

end Paired

/-! ## Commands on both sides -/

/-- A command comes to the same in two sessions. -/
structure Matches (p q : Session × Reply) : Prop where
  reply : p.2 = q.2
  paired : ∃ l, p.1.Paired l q.1

namespace Paired

section Reads

/-- A name is forgotten on both sides. -/
theorem forget (m : s.Paired l s') (name : String) :
    Paired l { s with tasks := s.tasks.erase name } { s' with tasks := s'.tasks.erase name } :=
  { m with tasks := fun name' => Table.rel_find?_erase (m.tasks name') name }

/-- A name is given on both sides. -/
theorem name (m : s.Paired l s') (name : String) {x y : TaskName} (hxy : x.Paired l y) :
    Paired l { s with tasks := s.tasks.insert name x } { s' with tasks := s'.tasks.insert name y } :=
  { m with tasks := fun name' => Table.rel_find?_insert (m.tasks name') name hxy }

/-- A task is started under a name. -/
theorem spawn (m : s.Paired l s') (name : String) {j k : Job}
    (hub : (s.hub.spawn j).Paired (l.add m.hub.next_left m.hub.next_right) (s'.hub.spawn k)) :
    (s.spawn name j).Paired (l.add m.hub.next_left m.hub.next_right) (s'.spawn name k) :=
  (m.setHub (l.le_add _ _) hub).name name (.running (.inr ⟨rfl, rfl⟩))

/-- A task is dropped together with its name. -/
theorem abort (m : s.Paired l s') {i j : Nat} (hij : l.Rel i j) (name : String) :
    Paired l { s with hub := s.hub.abort i, tasks := s.tasks.erase name }
      { s' with hub := s'.hub.abort j, tasks := s'.tasks.erase name } :=
  (m.setHub l.le_refl (m.hub.abort hij)).forget name

/-- What is behind a name is asked for when all tasks wait. -/
theorem ending (m : s.Paired l s') (hq : s.hub.step? = none) (hq' : s'.hub.step? = none) (hd : s.hub.Tidy)
    (hd' : s'.hub.Tidy) {i j : Nat} (hij : l.Rel i j) : s.hub.endings.find? i = s'.hub.endings.find? j := by
  obtain ⟨-, -, c, hc, hc'⟩ := m.hub.courses i j hij
  rw [hc.ending hq hd, hc'.ending hq' hd']
  cases c with
  | plain e => rfl
  | scheduler k idle => simp only [m.hub.isCancelled k]

theorem performRead (m : s.Paired l s') (hq : s.hub.step? = none) (hq' : s'.hub.step? = none) (hd : s.hub.Tidy)
    (hd' : s'.hub.Tidy) (c : ReadCommand) : Matches (s.performRead c) (s'.performRead c) := by
  cases c with
  | read q =>
    simp only [Session.performRead]
    rw [← m.refuseRead q]
    split
    · exact ⟨rfl, l, m⟩
    · obtain ⟨w, p, hr, hr'⟩ := m.hub.read q
      rw [hr, hr']
      exact ⟨rfl, l, m.setHub l.le_refl (m.hub.setTransport w)⟩
  | spawn name q =>
    cases q with
    | none => exact ⟨rfl, l, m⟩
    | some q =>
      simp only [Session.performRead]
      rw [← m.refuseRead q]
      split
      · exact ⟨rfl, _, m.spawn name (m.hub.spawn hd hd' rfl)⟩
      · exact ⟨rfl, l, m.name name (.refused _)⟩
  | poll name =>
    simp only [Session.performRead]
    rcases rel_cases (m.tasks name) with ⟨hx, hy⟩ | ⟨x, y, hx, hy, hxy⟩ <;> rw [hx, hy]
    · exact ⟨rfl, l, m⟩
    · cases hxy with
      | refused why => exact ⟨rfl, l, m.forget name⟩
      | running hij =>
        dsimp only
        rw [← m.ending hq hq' hd hd' hij]
        split
        · exact ⟨rfl, l, m⟩
        · exact ⟨rfl, l, m.abort hij name⟩
  | abort name =>
    simp only [Session.performRead]
    rcases rel_cases (m.tasks name) with ⟨hx, hy⟩ | ⟨x, y, hx, hy, hxy⟩ <;> rw [hx, hy]
    · exact ⟨rfl, l, m⟩
    · cases hxy with
      | refused why => exact ⟨rfl, l, m.forget name⟩
      | running hij => exact ⟨rfl, l, m.abort hij name⟩

end Reads

/-! ### The receiver, tokens and the far side -/

/-- The receivers change, and what is cancelled stays so. -/
theorem setReceiver (m : s.Paired l s') {r : Receiver Ssrc} (w : QueueTransport)
    (ho : s.hub.receiver.Onward r) :
    (s.setHub { s.hub with receiver := r, transport := w }).Paired l
      (s'.setHub { s'.hub with receiver := r, transport := w }) := by
  refine m.setHub l.le_refl (m.hub.change { m.hub.alike with receiver := rfl, transport := rfl } rfl rfl rfl rfl rfl rfl
    fun k hk => ?_)
  have hr : Hub.Onward s.hub { s.hub with receiver := r } := { Hub.Onward.refl s.hub with receiver := ho }
  exact hr.isCancelled hk

theorem performHeld (m : s.Paired l s') (hs : s.hub.receiver.Sound) (hd : s.hub.Tidy) (hd' : s'.hub.Tidy)
    (c : ReceiverCommand) : Matches (s.performHeld c) (s'.performHeld c) := by
  cases c with
  | receive es =>
    simp only [Session.performHeld, Session.receive]
    rw [← m.hub.alike.receiver, ← m.hub.alike.transport]
    have ho := Receiver.onward_receive hs s.hub.transport es
    have hr := m.setReceiver (s.hub.receiver.receive s.hub.transport es).2.1 ho
    have ht := hr.trackView
    split
    · exact ⟨rfl, l, hr⟩
    · refine ⟨congrArg Reply.track ht, _, hr.setHub (l.le_add _ _) (hr.hub.spawn ?_ ?_ rfl)⟩
      · exact hd.of_eq rfl rfl rfl
      · exact hd'.of_eq rfl rfl rfl
  | bind rid ssrc =>
    simp only [Session.performHeld]
    rw [← m.hub.alike.receiver, ← m.hub.alike.transport]
    exact ⟨rfl, l, m.setReceiver _ (Receiver.onward_bind hs s.hub.transport rid ssrc)⟩
  | stop =>
    simp only [Session.performHeld]
    rw [← m.hub.alike.receiver, ← m.hub.alike.transport]
    exact ⟨rfl, l, m.setReceiver _ (Receiver.onward_stop hs s.hub.transport)⟩
  | info =>
    simp only [Session.performHeld]
    rw [← m.hub.alike.receiver, ← m.trackView]
    exact ⟨rfl, l, m⟩
  | onTrack name reads =>
    exact ⟨rfl, l, m.setHub l.le_refl (m.hub.change { m.hub.alike with handler := rfl } rfl rfl rfl rfl rfl rfl
      fun _ hk => hk)⟩
  | drop =>
    exact ⟨rfl, l, m.setHub l.le_refl (m.hub.change { m.hub.alike with held := rfl } rfl rfl rfl rfl rfl rfl
      fun _ hk => hk)⟩
  | layer rid =>
    simp only [Session.performHeld]
    rw [← m.hub.alike.receiver, ← m.view]
    exact ⟨rfl, l, m⟩
  | layerOfSsrc ssrc =>
    simp only [Session.performHeld]
    rw [← m.hub.alike.receiver]
    split <;> exact ⟨rfl, l, m⟩
  | describeTrack | describeLayer rid =>
    simp only [Session.performHeld]
    rw [← m.hub.alike.receiver]
    exact ⟨rfl, l, m⟩

theorem performReceiver (m : s.Paired l s') (hs : s.hub.receiver.Sound) (hd : s.hub.Tidy) (hd' : s'.hub.Tidy)
    (c : ReceiverCommand) : Matches (s.performReceiver c) (s'.performReceiver c) := by
  have held := m.performHeld hs hd hd' c
  unfold Session.performReceiver
  rw [← m.hub.alike.held]
  split
  · exact held
  · cases c with
    | drop | layer rid | describeLayer rid => exact held
    | _ => exact ⟨rfl, l, m⟩

theorem setTokens (m : s.Paired l s') (tokens : TokenPool) (names : Table String Token)
    (hc : ∀ k, s.hub.isCancelled k = true → Hub.isCancelled { s.hub with tokens } k = true) :
    Paired l { s with hub := { s.hub with tokens }, tokens := names }
      { s' with hub := { s'.hub with tokens }, tokens := names } := by
  have hub : Hub.Paired l { s.hub with tokens } { s'.hub with tokens } :=
    m.hub.change { m.hub.alike with tokens := rfl } rfl rfl rfl rfl rfl rfl hc
  exact { m.setHub l.le_refl hub with tokens := rfl }

theorem performToken (m : s.Paired l s') (c : TokenCommand) : Matches (s.performToken c) (s'.performToken c) := by
  cases c with
  | take name =>
    have hheld : (s'.hub.held = true) = (s.hub.held = true) := by rw [m.hub.alike.held]
    simp only [Session.performToken, hheld]
    rw [← m.hub.alike.tokens, ← m.tokens]
    split
    · exact ⟨rfl, l, m.setTokens s.hub.tokens.ofReceiver.1 _ fun _ hk => hk⟩
    · exact ⟨rfl, l, m⟩
  | state name =>
    simp only [Session.performToken]
    rw [← m.tokens]
    split
    · exact ⟨congrArg Reply.flag (m.hub.isCancelled _), l, m⟩
    · exact ⟨rfl, l, m⟩
  | cancel name =>
    simp only [Session.performToken]
    rw [← m.tokens, ← m.hub.alike.tokens]
    split
    · next t _ =>
      have hc := m.setTokens (s.hub.tokens.cancel t) s.tokens fun _ hk => Hub.isCancelled_cancel t hk
      exact ⟨rfl, l, { hc with tokens := m.tokens }⟩
    · exact ⟨rfl, l, m⟩

theorem performTransport (m : s.Paired l s') (c : TransportCommand) :
    Matches (s.performTransport c) (s'.performTransport c) := by
  cases c with
  | info ch ssrc =>
    simp only [Session.performTransport]
    rw [← m.hub.alike.transport]
    exact ⟨rfl, l, m⟩
  | _ =>
    simp only [Session.performTransport, onTransport]
    rw [← m.hub.alike.transport]
    exact ⟨rfl, l, m.setHub l.le_refl (m.hub.setTransport _)⟩

/-! ### Outbound tracks -/

theorem setEgress (m : s.Paired l s') (e : Egress) :
    (s.setHub { s.hub with egress := e }).Paired l (s'.setHub { s'.hub with egress := e }) :=
  m.setHub l.le_refl (m.hub.setEgress e)

theorem addOutbound (m : s.Paired l s') (name : String) (o : Outbound) :
    Matches (s.addOutbound name o) (s'.addOutbound name o) := by
  unfold Session.addOutbound
  dsimp only
  rw [← m.hub.alike.egress, ← m.outbounds]
  exact ⟨rfl, l, { m.setEgress (s.hub.egress.addTrack o) with outbounds := rfl }⟩

theorem writeOutbound (m : s.Paired l s') (name : String) (p : Rtp.Packet) :
    Matches (s.writeOutbound name p) (s'.writeOutbound name p) := by
  unfold Session.writeOutbound
  rw [← m.outbounds, ← m.hub.alike.egress]
  split
  · exact ⟨rfl, l, m⟩
  · exact ⟨rfl, l, m.setEgress _⟩

theorem performOutbound (m : s.Paired l s') (c : OutboundCommand) :
    Matches (s.performOutbound c) (s'.performOutbound c) := by
  cases c with
  | add name ssrc id streamId payloadType writer =>
    obtain ⟨hreply, l', hadd⟩ := m.addOutbound name (.static { ssrc, id, streamId, payloadType, writer })
    have hstatics : s.statics.insert name s.hub.egress.tracks.length
        = s'.statics.insert name s'.hub.egress.tracks.length := by rw [m.statics, m.hub.alike.egress]
    exact ⟨hreply, l', { hadd with statics := hstatics }⟩
  | addRefusing name ssrc cause => exact m.addOutbound name (.refusing ssrc cause)
  | info name | describe name =>
    simp only [Session.performOutbound]
    rw [← m.static?]
    repeat' split
    all_goals exact ⟨rfl, l, m⟩
  | bind name writer | unbind name =>
    simp only [Session.performOutbound]
    rw [← m.static?, ← m.hub.alike.egress]
    split
    · exact ⟨rfl, l, m.setEgress _⟩
    · exact ⟨rfl, l, m⟩
  | write name p => exact m.writeOutbound name p
  | writeDatagram name d =>
    simp only [Session.performOutbound]
    rw [← m.outbounds]
    split
    · exact ⟨rfl, l, m⟩
    · split
      · exact ⟨rfl, l, m⟩
      · exact m.writeOutbound name _
  | setWriter name closed failing =>
    simp only [Session.performOutbound]
    rw [← m.hub.alike.egress]
    exact ⟨rfl, l, m.setEgress _⟩
  | setFeedbackFailing failing =>
    exact ⟨rfl, l, m.setHub l.le_refl (m.hub.change { m.hub.alike with } rfl rfl rfl rfl rfl rfl fun _ hk => hk)⟩

/-! ### Relays and feedback -/

/-- A pump or scheduler is started, with a token of its own. -/
theorem spawnWithToken (m : s.Paired l s') (name : String) {j k : Token → Job}
    (spawn : ∀ {h g : Hub} (token : Token) (mh : h.Paired l g), h.Tidy → g.Tidy →
      (h.spawn (j token)).Paired (l.add mh.next_left mh.next_right) (g.spawn (k token)))
    (hd : s.hub.Tidy) (hd' : s'.hub.Tidy) : Matches (s.spawnWithToken name j) (s'.spawnWithToken name k) := by
  have htokens := m.setTokens s.hub.tokens.fresh.1 (s.tokens.insert name s.hub.tokens.fresh.2) fun _ hk => hk
  unfold Session.spawnWithToken
  dsimp only
  rw [← m.hub.alike.tokens, ← m.tokens]
  exact ⟨rfl, _, htokens.spawn name (spawn _ htokens.hub (hd.of_eq rfl rfl rfl) (hd'.of_eq rfl rfl rfl))⟩

/-- A relay is made on both sides. -/
theorem addRelay (m : s.Paired l s') (f : Forwarder) : (s.hub.addRelay f).Paired l (s'.hub.addRelay f) := by
  unfold Hub.addRelay
  rw [← m.hub.alike.tokens, ← m.hub.alike.relays]
  exact m.hub.change { m.hub.alike with tokens := rfl, relays := rfl, handler := rfl } rfl rfl rfl rfl rfl rfl
    fun _ hk => hk

/-- Schedulers are started; both are idle or neither. -/
theorem startScheduler (m : s.Paired l s') (hd : s.hub.Tidy) (hd' : s'.hub.Tidy) (name rid : String)
    {period period' : Nat} (hp : period = 0 ↔ period' = 0) (bitrate bitrate' : Nat) :
    Matches (s.performRelay (.startScheduler name rid period bitrate))
      (s'.performRelay (.startScheduler name rid period' bitrate')) := by
  have hidle : nanosecondsPerMillisecond * period = 0 ↔ nanosecondsPerMillisecond * period' = 0 := by
    unfold nanosecondsPerMillisecond
    omega
  simp only [Session.performRelay]
  rw [← m.hub.alike.receiver]
  split
  · exact m.spawnWithToken name (fun _ mh hd hd' => mh.spawn_schedulers hd hd' rfl hidle) hd hd'
  · exact ⟨rfl, l, m⟩

/-- Feedback is given. -/
theorem giveFeedback (m : s.Paired l s') (rid : String) (bitrate bitrate' : Nat) :
    Matches (s.performRelay (.giveFeedback rid bitrate)) (s'.performRelay (.giveFeedback rid bitrate')) := by
  simp only [Session.performRelay]
  rw [← m.hub.alike.receiver]
  split
  · exact ⟨rfl, l, m.setHub l.le_refl (m.hub.change { m.hub.alike with receiver := rfl } rfl rfl rfl rfl rfl rfl
      fun _ hk => hk)⟩
  · exact ⟨rfl, l, m⟩

/-- Commands about relays, forwarders and feedback come to the same. -/
theorem performRelay (m : s.Paired l s') (hd : s.hub.Tidy) (hd' : s'.hub.Tidy) (c : RelayCommand) :
    Matches (s.performRelay c) (s'.performRelay c) := by
  have hheld : (s'.hub.held = true) = (s.hub.held = true) := by rw [m.hub.alike.held]
  have hreceived : (s'.hub.receiver.received = true) = (s.hub.receiver.received = true) := by rw [m.hub.alike.receiver]
  cases c with
  | add name map =>
    simp only [Session.performRelay, hheld]
    rw [← m.route, ← m.relays, ← congrArg List.length m.hub.alike.relays]
    split
    · exact ⟨rfl, l, { m.setHub l.le_refl (m.addRelay (s.route map)) with relays := rfl }⟩
    · exact ⟨rfl, l, m⟩
  | takeFailures name =>
    simp only [Session.performRelay]
    rw [← m.relay?, ← m.channels]
    split
    · exact ⟨rfl, l, m⟩
    · split
      · exact ⟨rfl, l, m⟩
      · exact ⟨rfl, l, { m with channels := rfl }⟩
  | start name =>
    simp only [Session.performRelay, hheld, hreceived]
    rw [← m.relay?, ← m.hub.alike.receiver]
    split
    · split
      · obtain ⟨⟨l', hl, hub⟩, hresult⟩ :=
          m.hub.startRelay hd hd' _ (s.hub.receiver.layers.map Layer.rid)
        exact ⟨congrArg Reply.ofResult hresult, l', m.setHub hl hub⟩
      · exact ⟨rfl, l, m⟩
    · exact ⟨rfl, l, m⟩
  | install name =>
    simp only [Session.performRelay, hheld]
    rw [← m.relay?]
    split
    · split
      · exact ⟨rfl, l, m.setHub l.le_refl (m.hub.change { m.hub.alike with handler := rfl } rfl rfl rfl rfl rfl rfl
          fun _ hk => hk)⟩
      · exact ⟨rfl, l, m⟩
    · exact ⟨rfl, l, m⟩
  | close name =>
    simp only [Session.performRelay, Hub.closeRelay]
    rw [← m.relay?, ← m.hub.alike.tokens]
    split
    · next r _ =>
      have hcl := m.setTokens (s.hub.tokens.cancel r.token) s.tokens fun _ hk => Hub.isCancelled_cancel _ hk
      exact ⟨rfl, l, { hcl with tokens := m.tokens }⟩
    · exact ⟨rfl, l, m⟩
  | state name =>
    simp only [Session.performRelay]
    rw [← m.relay?]
    split
    · exact ⟨congrArg Reply.relay (m.hub.isCancelled _), l, m⟩
    · exact ⟨rfl, l, m⟩
  | addForwarder name map =>
    simp only [Session.performRelay]
    rw [← m.route, ← m.forwarders]
    exact ⟨rfl, l, { m with forwarders := rfl }⟩
  | has name rid =>
    simp only [Session.performRelay]
    rw [← m.forwarder?]
    split <;> exact ⟨rfl, l, m⟩
  | forward name rid p =>
    simp only [Session.performRelay]
    rw [← m.forwarder?, ← m.hub.alike.egress]
    split
    · exact ⟨rfl, l, m.setEgress _⟩
    · exact ⟨rfl, l, m⟩
  | startPump name rid forwarder =>
    simp only [Session.performRelay]
    rw [← m.forwarder?, ← m.hub.alike.receiver]
    split
    · exact m.spawnWithToken name (fun _ mh hd hd' => mh.spawn hd hd' rfl) hd hd'
    · exact ⟨rfl, l, m⟩
  | startScheduler name rid period bitrate => exact m.startScheduler hd hd' name rid .rfl bitrate bitrate
  | giveFeedback rid bitrate => exact m.giveFeedback rid bitrate bitrate

end Paired

end Session

end MediaRelay
