import MediaRelay.Session.Step

/-!
# What a command can do

`Session.Deed` lists what commands do to the hub of a session, time apart; every later proof about single commands is
by cases on it (`deed_of_perform`). Questions, and commands that are refused, leave the hub alone.
-/

namespace MediaRelay

/-- Whether a command is one of the three that may change the receiver. -/
def Command.changesReceiver : Command → Bool
  | .receiver (.receive _) | .receiver (.bind _ _) | .receiver .stop => true
  | _ => false

namespace Session

/-- What a command does to the hub; the hub and the tokens that have names afterwards. -/
inductive Deed (s : Session) : Command → Hub → Table String Token → Prop
  | idle {c : Command} (hc : c.changesReceiver = false) : Deed s c s.hub s.tokens
  /-- The application does not have the receiver any more. -/
  | gone {c : ReceiverCommand} (hh : s.hub.held = false) : Deed s (.receiver c) s.hub s.tokens
  | read (q : Read) : Deed s (.reading (.read q)) (s.hub.read q).1 s.tokens
  | spawnRead (name : String) (q : Read) : Deed s (.reading (.spawn name (some q))) (s.hub.spawn (.read q)) s.tokens
  /-- A task that has a name is dropped. -/
  | abort {c : ReadCommand} {name : String} {id : Nat} (hn : s.tasks.find? name = some (.running id)) :
      Deed s (.reading c) (s.hub.abort id) s.tokens
  /-- There is no track although the receiver was to receive. -/
  | receiveFailed {es : List Encoding} {e : Error} (hh : s.hub.held)
      (hr : (s.hub.receiver.receive s.hub.transport es).2.2 = .error e) :
      Deed s (.receiver (.receive es))
        { s.hub with receiver := (s.hub.receiver.receive s.hub.transport es).1,
                     transport := (s.hub.receiver.receive s.hub.transport es).2.1 } s.tokens
  /-- There is a track, which is to be announced. -/
  | receive {es : List Encoding} {ls : List (Layer Ssrc)} (hh : s.hub.held)
      (hr : (s.hub.receiver.receive s.hub.transport es).2.2 = .ok ls) :
      Deed s (.receiver (.receive es))
        (Hub.spawn
          { s.hub with receiver := (s.hub.receiver.receive s.hub.transport es).1,
                       transport := (s.hub.receiver.receive s.hub.transport es).2.1 }
          (.announce (ls.map Layer.rid))) s.tokens
  | bind {rid : String} {ssrc : Ssrc} (hh : s.hub.held) :
      Deed s (.receiver (.bind rid ssrc))
        { s.hub with receiver := (s.hub.receiver.bind s.hub.transport rid ssrc).1,
                     transport := (s.hub.receiver.bind s.hub.transport rid ssrc).2.1 } s.tokens
  | stop (hh : s.hub.held) :
      Deed s (.receiver .stop)
        { s.hub with receiver := (s.hub.receiver.stop s.hub.transport).1,
                     transport := (s.hub.receiver.stop s.hub.transport).2.1 } s.tokens
  | drop : Deed s (.receiver .drop) { s.hub with held := false } s.tokens
  | handle {c : Command} (hc : c.changesReceiver = false) (handler : Handler) :
      Deed s c { s.hub with handler := some handler } s.tokens
  | takeToken (name : String) :
      Deed s (.token (.take name)) { s.hub with tokens := s.hub.tokens.ofReceiver.1 }
        (s.tokens.insert name s.hub.tokens.ofReceiver.2)
  | cancelToken {name : String} {t : Token} (hn : s.tokens.find? name = some t) :
      Deed s (.token (.cancel name)) { s.hub with tokens := s.hub.tokens.cancel t } s.tokens
  | refuseOpen (ch : Channel) (ssrc : Ssrc) :
      Deed s (.transport (.refuseOpen ch ssrc))
        { s.hub with transport := s.hub.transport.refuseOpen ch ssrc } s.tokens
  | refuseClose (ch : Channel) (ssrc : Ssrc) (b : Bool) :
      Deed s (.transport (.refuseClose ch ssrc b))
        { s.hub with transport := s.hub.transport.refuseClose ch ssrc b } s.tokens
  | push {c : TransportCommand} (ch : Channel) (ssrc : Ssrc) (d : Datagram) :
      Deed s (.transport c) { s.hub with transport := (s.hub.transport.push ch ssrc d).1 } s.tokens
  | close (ch : Channel) (ssrc : Ssrc) :
      Deed s (.transport (.close ch ssrc))
        { s.hub with transport := (s.hub.transport.closeStream ch ssrc).1 } s.tokens
  | readStream (ch : Channel) (ssrc : Ssrc) (n : Nat) :
      Deed s (.transport (.read ch ssrc n))
        { s.hub with transport := (s.hub.transport.readStream ch ssrc n).1 } s.tokens
  | addTrack {c : OutboundCommand} (o : Outbound) :
      Deed s (.outbound c) { s.hub with egress := s.hub.egress.addTrack o } s.tokens
  | bindTrack {c : OutboundCommand} (track : Nat) (writer : Option String) :
      Deed s (.outbound c) { s.hub with egress := s.hub.egress.bind track writer } s.tokens
  | write {c : Command} (hc : c.changesReceiver = false) (track : Nat) (p : Rtp.Packet) :
      Deed s c { s.hub with egress := (s.hub.egress.write track p).1 } s.tokens
  | setWriter {name : String} {closed failing : Option Bool} {w : Writer}
      (hw : w = { s.hub.egress.writer name with
        closed := closed.getD (s.hub.egress.writer name).closed,
        failing := failing.getD (s.hub.egress.writer name).failing }) :
      Deed s (.outbound (.setWriter name closed failing))
        { s.hub with egress := s.hub.egress.setWriter name w } s.tokens
  | setFeedbackFailing (failing : Bool) :
      Deed s (.outbound (.setFeedbackFailing failing))
        { s.hub with feedback := { s.hub.feedback with failing } } s.tokens
  | giveFeedback {rid : String} {bitrate : Nat} {l : Layer Ssrc} (hl : s.hub.receiver.layer? rid = some l) :
      Deed s (.relay (.giveFeedback rid bitrate))
        { s.hub with feedback := s.hub.feedback.writeRound l.ssrc bitrate } s.tokens
  | addRelay {name : String} {map : List (String × String)} (hh : s.hub.held) :
      Deed s (.relay (.add name map)) (s.hub.addRelay (s.route map)) s.tokens
  | startRelay {name : String} {index : Nat} (hn : s.relays.find? name = some index) (hh : s.hub.held)
      (hr : s.hub.receiver.received) :
      Deed s (.relay (.start name)) (s.hub.startRelay index (s.hub.receiver.layers.map Layer.rid)).1 s.tokens
  | closeRelay {name : String} {index : Nat} {r : Relay} (hn : s.relays.find? name = some index)
      (hr : s.hub.relays[index]? = some r) : Deed s (.relay (.close name)) (s.hub.closeRelay r) s.tokens
  | startPump {name rid forwarder : String} {l : Layer Ssrc} {f : Forwarder}
      (hl : s.hub.receiver.layer? rid = some l) (hf : s.forwarder? forwarder = some f) :
      Deed s (.relay (.startPump name rid forwarder))
        (Hub.spawn { s.hub with tokens := s.hub.tokens.fresh.1 } (.pump ⟨rid, f, s.hub.tokens.fresh.2, none⟩))
        (s.tokens.insert name s.hub.tokens.fresh.2)
  | startScheduler {name rid : String} {period bitrate : Nat} {l : Layer Ssrc}
      (hl : s.hub.receiver.layer? rid = some l) :
      Deed s (.relay (.startScheduler name rid period bitrate))
        (Hub.spawn { s.hub with tokens := s.hub.tokens.fresh.1 }
          (.feedback ⟨rid, nanosecondsPerMillisecond * period, bitrate, s.hub.tokens.fresh.2⟩))
        (s.tokens.insert name s.hub.tokens.fresh.2)

/-! ## Every command is one of those -/

variable {s : Session}

theorem deed_of_performRead (c : ReadCommand) :
    s.Deed (.reading c) (s.performRead c).1.hub (s.performRead c).1.tokens := by
  cases c with
  | read q =>
    simp only [performRead]
    split
    · exact .idle rfl
    · exact .read q
  | spawn name q =>
    cases q with
    | none => exact .idle rfl
    | some q =>
      simp only [performRead]
      split
      · exact .spawnRead name q
      · exact .idle rfl
  | poll name =>
    simp only [performRead]
    split
    · exact .idle rfl
    · exact .idle rfl
    · next hn =>
      split
      · exact .idle rfl
      · exact .abort hn
  | abort name =>
    simp only [performRead]
    split
    · exact .idle rfl
    · exact .idle rfl
    · next hn => exact .abort hn

theorem deed_of_performHeld (hh : s.hub.held) (c : ReceiverCommand) :
    s.Deed (.receiver c) (s.performHeld c).1.hub (s.performHeld c).1.tokens := by
  cases c with
  | receive es =>
    simp only [performHeld, Session.receive]
    split
    · next hr => exact .receiveFailed hh hr
    · next hr => exact .receive hh hr
  | bind rid ssrc => exact .bind hh
  | stop => exact .stop hh
  | onTrack name reads => exact .handle rfl _
  | drop => exact .drop
  | layerOfSsrc ssrc =>
    simp only [performHeld]
    split <;> exact .idle rfl
  | _ => exact .idle rfl

theorem perform_of_held (hh : s.hub.held = true) (c : ReceiverCommand) : s.perform (.receiver c) = s.performHeld c :=
  if_pos hh

/-- What would change the receiver is refused once the application has let go of it. -/
theorem perform_of_not_held {c : ReceiverCommand} (hh : s.hub.held = false)
    (hc : (Command.receiver c).changesReceiver = true) : s.perform (.receiver c) = (s, .refused .noReceiver) := by
  show s.performReceiver c = _
  unfold performReceiver
  rw [hh, if_neg Bool.false_ne_true]
  cases c with
  | receive | bind | stop => rfl
  | _ => cases hc

theorem deed_of_performReceiver (c : ReceiverCommand) :
    s.Deed (.receiver c) (s.performReceiver c).1.hub (s.performReceiver c).1.tokens := by
  unfold performReceiver
  split
  · next hh => exact deed_of_performHeld hh c
  · next hh =>
    have hh : s.hub.held = false := by simpa using hh
    cases c with
    | drop => exact .drop
    | _ => exact .gone hh

theorem deed_of_performToken (c : TokenCommand) :
    s.Deed (.token c) (s.performToken c).1.hub (s.performToken c).1.tokens := by
  cases c with
  | take name =>
    simp only [performToken]
    split
    · exact .takeToken name
    · exact .idle rfl
  | state name =>
    simp only [performToken]
    split <;> exact .idle rfl
  | cancel name =>
    simp only [performToken]
    split
    · next hn => exact .cancelToken hn
    · exact .idle rfl

theorem deed_of_performTransport (c : TransportCommand) :
    s.Deed (.transport c) (s.performTransport c).1.hub (s.performTransport c).1.tokens := by
  cases c with
  | refuseOpen ch ssrc => exact .refuseOpen ch ssrc
  | refuseClose ch ssrc b => exact .refuseClose ch ssrc b
  | pushMedia ssrc p =>
    simp only [performTransport, onTransport, QueueTransport.pushMedia]
    split
    · exact .idle rfl
    · exact .push .media ssrc _
  | pushControl ssrc ps =>
    simp only [performTransport, onTransport, QueueTransport.pushControl]
    split
    · exact .idle rfl
    · exact .push .control ssrc _
  | push ch ssrc d => exact .push ch ssrc d
  | info ch ssrc => exact .idle rfl
  | close ch ssrc => exact .close ch ssrc
  | read ch ssrc n => exact .readStream ch ssrc n

theorem deed_of_writeOutbound {c : Command} (hc : c.changesReceiver = false) (name : String) (p : Rtp.Packet) :
    s.Deed c (s.writeOutbound name p).1.hub (s.writeOutbound name p).1.tokens := by
  unfold writeOutbound
  split
  · exact .idle hc
  · exact .write hc _ p

theorem deed_of_performOutbound (c : OutboundCommand) :
    s.Deed (.outbound c) (s.performOutbound c).1.hub (s.performOutbound c).1.tokens := by
  cases c with
  | add name ssrc id streamId payloadType writer => exact .addTrack _
  | addRefusing name ssrc cause => exact .addTrack _
  | info name | describe name =>
    simp only [performOutbound]
    try split
    all_goals exact .idle rfl
  | bind name writer | unbind name =>
    simp only [performOutbound]
    split
    · exact .bindTrack _ _
    · exact .idle rfl
  | write name p => exact deed_of_writeOutbound rfl name p
  | writeDatagram name d =>
    simp only [performOutbound]
    split
    · exact .idle rfl
    · split
      · exact .idle rfl
      · exact deed_of_writeOutbound rfl name _
  | setWriter name closed failing => exact .setWriter rfl
  | setFeedbackFailing failing => exact .setFeedbackFailing failing

/-- A relay that has a name has a number. -/
theorem of_relay? {name : String} {index : Nat} {r : Relay} (h : s.relay? name = some (index, r)) :
    s.relays.find? name = some index ∧ s.hub.relays[index]? = some r := by
  unfold relay? at h
  cases hn : s.relays.find? name with
  | none => rw [hn] at h; cases h
  | some i =>
    cases hr : s.hub.relays[i]? with
    | none => simp [hn, hr] at h
    | some r' =>
      simp only [hn, hr, Option.bind_eq_bind, Option.bind_some, Option.some.injEq, Prod.mk.injEq] at h
      obtain ⟨rfl, rfl⟩ := h
      exact ⟨rfl, hr⟩

theorem deed_of_performRelay (c : RelayCommand) :
    s.Deed (.relay c) (s.performRelay c).1.hub (s.performRelay c).1.tokens := by
  cases c with
  | add name map =>
    simp only [performRelay]
    split
    · next hh => exact .addRelay hh
    · exact .idle rfl
  | takeFailures name =>
    simp only [performRelay]
    split
    · exact .idle rfl
    · split <;> exact .idle rfl
  | start name =>
    simp only [performRelay]
    split
    · next hn =>
      split
      · next hh => exact .startRelay (of_relay? hn).1 hh.1 hh.2
      · exact .idle rfl
    · exact .idle rfl
  | install name =>
    simp only [performRelay]
    split
    · split
      · exact .handle rfl _
      · exact .idle rfl
    · exact .idle rfl
  | close name =>
    simp only [performRelay]
    split
    · next hn => exact .closeRelay (of_relay? hn).1 (of_relay? hn).2
    · exact .idle rfl
  | state name | has name rid =>
    simp only [performRelay]
    split <;> exact .idle rfl
  | addForwarder name map => exact .idle rfl
  | forward name rid p =>
    simp only [performRelay]
    split
    · simp only [Forwarder.forward]
      split
      · exact .idle rfl
      · exact .write rfl _ _
    · exact .idle rfl
  | startPump name rid forwarder =>
    simp only [performRelay]
    split
    · next hl hf => exact .startPump hl hf
    · exact .idle rfl
  | startScheduler name rid period bitrate =>
    simp only [performRelay]
    split
    · next hl => exact .startScheduler hl
    · exact .idle rfl
  | giveFeedback rid bitrate =>
    simp only [performRelay]
    split
    · next hl => exact .giveFeedback hl
    · exact .idle rfl

/-- Every command but that to let time pass does one of the deeds listed. -/
theorem deed_of_perform {c : Command} (hc : ∀ n, c ≠ .advance n) :
    s.Deed c (s.perform c).1.hub (s.perform c).1.tokens := by
  cases c with
  | reading c => exact deed_of_performRead c
  | receiver c => exact deed_of_performReceiver c
  | token c => exact deed_of_performToken c
  | transport c => exact deed_of_performTransport c
  | outbound c => exact deed_of_performOutbound c
  | relay c => exact deed_of_performRelay c
  | advance n => exact absurd rfl (hc n)
  | unknown => exact .idle rfl

end Session

end MediaRelay
