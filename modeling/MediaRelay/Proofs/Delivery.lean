import MediaRelay.Proofs.Pumps

/-!
# What a relay delivers

- `handled` lists the datagrams that the pump of a layer has taken during a run, `recorded` what it has left at a
  writer;
- `Delivering` says how far the pump of a layer has got, in every state that a session comes to (`delivering_after`);
- `relay_delivers`: the pump takes the datagrams of its layer in order, each once, up to the first that must make it
  give up, and records exactly what is to be recorded of them.
-/

namespace MediaRelay

/-! ## What a pump takes and writes -/

/-- Whether a change is a move of the pump of a relay for a layer. -/
def Change.isPumpOf (x : Change) (relay : Nat) (rid : String) : Bool :=
  match x.cause with
  | .move t => t.isPumpOf relay rid
  | _ => false

/-- The datagrams that the pump of a relay's layer takes from a media stream, each with what is outside then. -/
def handled (past : List Change) (relay : Nat) (rid : String) (ssrc : Ssrc) : List (Datagram × Egress) :=
  (past.filter (·.isPumpOf relay rid)).flatMap fun x => (x.taken .media ssrc).map (·, x.before.egress)

/-- The packets that the pump of a relay's layer leaves at a writer. -/
def recorded (past : List Change) (relay : Nat) (rid : String) (name : String) : List Rtp.Packet :=
  (past.filter (·.isPumpOf relay rid)).flatMap (·.wrote name)

namespace Session

variable {s : Session} {relay track : Nat} {rid : String} {ssrc : Ssrc} {past : List Change} {t : Task}

/-! ## What has been delivered -/

/-- Nobody but the pump of a relay's layer takes datagrams from a media stream. -/
def OnlyPump (past : List Change) (relay : Nat) (rid : String) (ssrc : Ssrc) : Prop :=
  ∀ x ∈ past, x.taken .media ssrc ≠ [] → x.isPumpOf relay rid = true

instance (past : List Change) (relay : Nat) (rid : String) (ssrc : Ssrc) : Decidable (OnlyPump past relay rid ssrc) :=
  inferInstanceAs (Decidable (∀ x ∈ past, x.taken .media ssrc ≠ [] → x.isPumpOf relay rid = true))

/-- How far the pump of a layer has got with the datagrams that it has handled: it has not started, or it goes on as
nothing has gone wrong, or it has given up at the last of them. -/
inductive Progress (h : Hub) (relay track : Nat) (rid : String) (H : List (Datagram × Egress)) : Prop
  | unstarted (hu : h.Unstarted relay) (hH : H = [])
  | running (hs : ¬ h.Unstarted relay) (hp : h.HasPump relay rid)
      (hH : ∀ x ∈ H, (fate h.receiver.mtu track x).isOk = true)
  | failed {init : List (Datagram × Egress)} {last : Datagram × Egress} (hs : ¬ h.Unstarted relay)
      (hp : ¬ h.HasPump relay rid) (hH : H = init ++ [last])
      (hinit : ∀ x ∈ init, (fate h.receiver.mtu track x).isOk = true)
      (hlast : (fate h.receiver.mtu track last).isOk = false)

/-- What is known of the deliveries of a relay's layer at any time. -/
structure Delivering (s : Session) (past : List Change) (relay track : Nat) (rid : String) (ssrc : Ssrc) : Prop where
  proper : s.Proper
  accounted : s.hub.receiver.Accounted past
  stream : (s.hub.transport.stream .media ssrc).Sound
  taken : OnlyPump past relay rid ssrc → (handled past relay rid ssrc).map Prod.fst
    = (s.hub.transport.stream .media ssrc).accepted.take (s.hub.transport.stream .media ssrc).taken
  recorded : s.hub.Undisturbed relay rid ssrc track → ∀ name, recorded past relay rid name
    = (handled past relay rid ssrc).flatMap fun x => recordAt name (fate s.hub.receiver.mtu track x)
  progress : s.hub.Undisturbed relay rid ssrc track →
    Progress s.hub relay track rid (handled past relay rid ssrc)

theorem handled_snoc {x : Change} (hx : x.isPumpOf relay rid = true) (past : List Change) (ssrc : Ssrc) :
    handled (past ++ [x]) relay rid ssrc
      = handled past relay rid ssrc ++ (x.taken .media ssrc).map (·, x.before.egress) := by
  simp [handled, hx]

theorem handled_snoc_of_not {x : Change} (hx : x.isPumpOf relay rid = false) (past : List Change) (ssrc : Ssrc) :
    handled (past ++ [x]) relay rid ssrc = handled past relay rid ssrc := by
  simp [handled, hx]

theorem recorded_snoc {x : Change} (hx : x.isPumpOf relay rid = true) (past : List Change) (name : String) :
    MediaRelay.recorded (past ++ [x]) relay rid name = MediaRelay.recorded past relay rid name ++ x.wrote name := by
  simp [MediaRelay.recorded, hx]

theorem recorded_snoc_of_not {x : Change} (hx : x.isPumpOf relay rid = false) (past : List Change) (name : String) :
    MediaRelay.recorded (past ++ [x]) relay rid name = MediaRelay.recorded past relay rid name := by
  simp [MediaRelay.recorded, hx]

/-- What a later state of a stream has given away is what an earlier one had, and what was taken since. -/
theorem take_onward {q q' : QueueStream} (h : q.Onward q') (hs : q.Sound) :
    q'.accepted.take q'.taken = q.accepted.take q.taken ++ (q'.accepted.take q'.taken).drop q.taken := by
  obtain ⟨new, hn⟩ := h.accepted
  have hold : (q'.accepted.take q'.taken).take q.taken = q.accepted.take q.taken := by
    rw [List.take_take, Nat.min_eq_left h.taken, ← hn, List.take_append_of_le_length hs]
  rw [← hold, List.take_append_drop]

/-- A change of another kind than a move of the pump. -/
theorem Delivering.other (hd : Delivering s past relay track rid ssrc) {t : Session} {x : Change}
    (hx : x.before = s.hub) (hx' : x.after = t.hub) (hp : x.isPumpOf relay rid = false) (ho : s.hub.Onward t.hub)
    (proper : t.Proper) (accounted : t.hub.receiver.Accounted (past ++ [x]))
    (pump : s.hub.HasPump relay rid → t.hub.HasPump relay rid)
    (nopump : t.hub.HasPump relay rid → s.hub.HasPump relay rid ∨ s.hub.Unstarted relay)
    (unstarted : t.hub.Undisturbed relay rid ssrc track → s.hub.Unstarted relay →
      t.hub.Unstarted relay ∨ t.hub.HasPump relay rid) :
    Delivering t (past ++ [x]) relay track rid ssrc := by
  have hh := handled_snoc_of_not hp past ssrc
  have hr := recorded_snoc_of_not hp past
  have hst := ho.transport .media ssrc
  have hm : t.hub.receiver.mtu = s.hub.receiver.mtu := ho.receiver.mtu
  refine ⟨proper, accounted, hst.sound hd.stream, ?_, ?_, ?_⟩
  · intro hown
    have hnil : x.taken .media ssrc = [] := by
      by_contra hne
      have := hown x (List.mem_append_right _ (List.mem_singleton.mpr rfl)) hne
      rw [hp] at this
      cases this
    unfold Change.taken at hnil
    rw [hx, hx'] at hnil
    rw [hh, hd.taken fun y hy => hown y (List.mem_append_left _ hy), take_onward hst hd.stream, hnil, List.append_nil]
  · intro hu name
    rw [hh, hr, hm]
    exact hd.recorded (hu.earlier ho hd.proper.sound) name
  · intro hu
    rw [hh]
    have huns : ∀ h : ¬ s.hub.Unstarted relay, ¬ t.hub.Unstarted relay := fun h h' => h (ho.unstarted h')
    obtain ⟨a, o⟩ := proper.owned
    cases hd.progress (hu.earlier ho hd.proper.sound) with
    | unstarted hun hH =>
      rcases unstarted hu hun with h' | h'
      · exact .unstarted h' hH
      · refine .running (Hub.not_unstarted_of_hasPump o h') h' fun y hy => ?_
        rw [hH] at hy
        cases hy
    | running hs hp' hH => exact .running (huns hs) (pump hp') (by rw [hm]; exact hH)
    | failed hs hp' hH hinit hlast =>
      refine .failed (huns hs) (fun h' => ?_) hH (by rw [hm]; exact hinit) (by rw [hm]; exact hlast)
      exact (nopump h').elim hp' hs

/-- What a change takes from a stream that it reads. -/
theorem taken_of_readStream {q q' : QueueStream} {n : Nat} {d : Datagram} (hq : q.accepted[q.taken]? = some d)
    (hc : q.closed = false) (hq' : q' = (q.read n).1) : (q'.accepted.take q'.taken).drop q.taken = [d] := by
  have hlt : q.taken < q.accepted.length := (List.getElem?_eq_some_iff.mp hq).1
  have hr : (q.read n).1 = { q with taken := q.taken + 1 } := by
    rcases q.read_cases n with ⟨h, -⟩ | ⟨-, h, -⟩ | ⟨d', -, -, h⟩
    · rw [hc] at h
      cases h
    · rw [QueueStream.queued, List.drop_eq_nil_iff] at h
      omega
    · rw [h]
  rw [hq', hr]
  show (q.accepted.take (q.taken + 1)).drop q.taken = [d]
  rw [List.drop_take, show q.taken + 1 - q.taken = 1 by omega, List.take_one, List.head?_drop, hq]
  rfl

/-- What an undisturbed pump takes and writes in a move: nothing, or one datagram and what its fate leaves. -/
theorem taken_of_move {h g : Hub} (hu : h.Undisturbed relay rid ssrc track) (ha : h.receiver.Accounted past)
    {names : Table String Token} {a : Leases} (o : Owned h names a) (ht : t ∈ h.tasks)
    (hp : t.isPumpOf relay rid = true) (m : Hub.Move h t g) :
    let x := Change.mk (.move t) h g
    (x.taken .media ssrc = [] ∧ (∀ name, x.wrote name = []) ∧ g.HasPump relay rid)
      ∨ ∃ d, x.taken .media ssrc = [d]
          ∧ (∀ name, x.wrote name = recordAt name (fate h.receiver.mtu track (d, h.egress)))
          ∧ if (fate h.receiver.mtu track (d, h.egress)).isOk then g.HasPump relay rid
            else ¬ g.HasPump relay rid := by
  unfold Change.taken Change.wrote
  dsimp only
  rcases hu.move ha o ht hp m with ⟨htr, heg, hgp⟩ | ⟨d, hget, htr, hw, hgo⟩
  · rw [htr, heg]
    exact .inl ⟨by simp, fun name => by simp, hgp⟩
  · have hread : g.transport.stream .media ssrc
        = ((h.transport.stream .media ssrc).read h.receiver.mtu).1 := by
      rw [htr]
      exact QueueTransport.stream_onStream_self _ _ _ _
    refine .inr ⟨d, taken_of_readStream hget hu.stream hread, fun name => by rw [hw, List.drop_left], ?_⟩
    cases hf : (fate h.receiver.mtu track (d, h.egress)).isOk with
    | true =>
      rw [hf] at hgo
      exact hgo
    | false =>
      rw [hf] at hgo
      exact Hub.not_hasPump_of_others o ht hp hgo

/-- A move of the pump. -/
theorem Delivering.own (hd : Delivering s past relay track rid ssrc) {g : Hub}
    (hm : s.hub.mover? = some (t, g)) (hp : t.isPumpOf relay rid = true) :
    Delivering (s.setHub g) (past ++ [⟨.move t, s.hub, g⟩]) relay track rid ssrc := by
  obtain ⟨ht, hmove⟩ := Hub.of_mover? hm
  have m := Hub.move_of_move? hmove
  have ho := m.onward
  have hst := ho.transport .media ssrc
  have hmtu : g.receiver.mtu = s.hub.receiver.mtu := ho.receiver.mtu
  have hx : (Change.mk (.move t) s.hub g).isPumpOf relay rid = true := hp
  have hh := handled_snoc hx past ssrc
  obtain ⟨a, o⟩ := hd.proper.owned
  have hpump : s.hub.HasPump relay rid := ⟨t, ht, hp⟩
  refine ⟨hd.proper.move hm, accounted_move hd.accounted hm, hst.sound hd.stream, ?_, ?_, ?_⟩
  · intro hown
    rw [hh, List.map_append, hd.taken fun y hy => hown y (List.mem_append_left _ hy), List.map_map]
    have : (Prod.fst ∘ fun d : Datagram => (d, s.hub.egress)) = id := rfl
    rw [this, List.map_id]
    exact (take_onward hst hd.stream).symm
  · intro hu name
    have hus := Hub.Undisturbed.earlier hu ho hd.proper.sound
    rw [hh, recorded_snoc hx, List.flatMap_append, setHub, hmtu, hd.recorded hus name]
    rcases taken_of_move hus hd.accounted o ht hp m with ⟨htk, hw, -⟩ | ⟨d, htk, hw, -⟩
    · rw [htk, hw]
      rfl
    · rw [htk, hw, List.map_singleton, List.flatMap_singleton]
  · intro hu
    have hus := Hub.Undisturbed.earlier hu ho hd.proper.sound
    have huns : ¬ g.Unstarted relay := fun h => Hub.not_unstarted_of_hasPump o hpump (ho.unstarted h)
    have hok : ∀ x ∈ handled past relay rid ssrc, (fate s.hub.receiver.mtu track x).isOk = true := by
      cases hd.progress hus with
      | unstarted h => exact absurd h (Hub.not_unstarted_of_hasPump o hpump)
      | running _ _ hH => exact hH
      | failed _ h => exact absurd hpump h
    rw [← hmtu] at hok
    rcases taken_of_move hus hd.accounted o ht hp m with ⟨htk, -, hgp⟩ | ⟨d, htk, -, hgo⟩ <;> rw [hh, htk]
    · rw [List.map_nil, List.append_nil]
      exact .running huns hgp hok
    · rw [← hmtu] at hgo
      cases hf : (fate g.receiver.mtu track (d, s.hub.egress)).isOk with
      | true =>
        rw [hf] at hgo
        refine .running huns hgo fun x hx => ?_
        rcases List.mem_append.mp hx with hx | hx
        · exact hok x hx
        · rw [List.mem_singleton.mp hx]
          exact hf
      | false =>
        rw [hf] at hgo
        exact .failed huns hgo rfl hok hf

/-- Time passes. -/
theorem Delivering.clock (hd : Delivering s past relay track rid ssrc) (time : Nat) :
    Delivering (s.setHub { s.hub with clock := time }) past relay track rid ssrc := by
  have ho : s.hub.Onward { s.hub with clock := time } := { Hub.Onward.refl s.hub with }
  refine ⟨hd.proper.clock time, hd.accounted, hd.stream, hd.taken, ?_, ?_⟩
  · exact fun hu => hd.recorded (Hub.Undisturbed.earlier hu ho hd.proper.sound)
  · intro hu
    cases hd.progress (Hub.Undisturbed.earlier hu ho hd.proper.sound) with
    | unstarted h hH => exact .unstarted h hH
    | running hs hp hH => exact .running hs hp hH
    | failed hs hp hH hi hl => exact .failed hs hp hH hi hl

theorem Delivering.move (hd : Delivering s past relay track rid ssrc) {g : Hub} (hm : s.hub.mover? = some (t, g)) :
    Delivering (s.setHub g) (past ++ [⟨.move t, s.hub, g⟩]) relay track rid ssrc := by
  cases hp : t.isPumpOf relay rid with
  | true => exact hd.own hm hp
  | false =>
    obtain ⟨ht, hmove⟩ := Hub.of_mover? hm
    have m := Hub.move_of_move? hmove
    obtain ⟨a, o⟩ := hd.proper.owned
    obtain ⟨h₁, h₂⟩ := Hub.pump_of_move o ht hp m
    exact hd.other (t := s.setHub g) rfl rfl hp m.onward (hd.proper.move hm) (accounted_move hd.accounted hm) h₁ h₂
      (Hub.unstarted_move o ht m)

theorem Delivering.perform (hd : Delivering s past relay track rid ssrc) {c : Command} (hc : ∀ n, c ≠ .advance n)
    (reply : Reply) :
    Delivering (s.perform c).1 (past ++ [⟨.command c reply, s.hub, (s.perform c).1.hub⟩]) relay track rid ssrc := by
  have d := deed_of_perform (s := s) hc
  exact hd.other rfl rfl rfl (d.onward hd.proper.sound) (hd.proper.perform hc) (accounted_perform hd.accounted hc _)
    (d.hasPump hd.proper) (fun ⟨_, ht, hp⟩ => d.tasksFrom.1.pump ht hp) (d.unstarted hd.proper.sound)

theorem delivering_invariant (relay track : Nat) (rid : String) (ssrc : Ssrc) :
    Invariant fun s past => Delivering s past relay track rid ssrc where
  move _ _ _ _ hd hm := hd.move hm
  clock _ _ time hd := hd.clock time
  command _ _ _ hd hc := hd.perform hc _
  shown _ _ hd := ⟨⟨hd.proper.sound, hd.proper.owned, hd.proper.named⟩, hd.accounted, hd.stream, hd.taken, hd.recorded,
    hd.progress⟩

/-- What is known of the deliveries of a relay's layer is known at all times. -/
theorem delivering_after (settings : Settings) (kind : Kind) (cs : List Command) (relay track : Nat) (rid : String)
    (ssrc : Ssrc) :
    Delivering ((new settings kind).after cs) ((new settings kind).history cs) relay track rid ssrc := by
  have start : Delivering (new settings kind) [] relay track rid ssrc := by
    refine ⟨proper_new settings kind, Receiver.accounted_new kind _, Nat.zero_le _, fun _ => rfl, fun _ _ => rfl,
      fun _ => .unstarted ?_ rfl⟩
    intro r hr
    cases hr
  exact @Invariant.after _ (delivering_invariant relay track rid ssrc) cs _ [] start

/-! ## Delivery in every run -/

/-- A change that only adds to a writer extends what the past has left there. -/
theorem written_snoc {past : List Change} {h g : Hub} {name : String} (c : Cause) (ho : h.egress.Onward g.egress)
    (hp : (h.egress.writer name).written = past.flatMap (·.wrote name)) :
    (g.egress.writer name).written = (past ++ [Change.mk c h g]).flatMap (·.wrote name) := by
  rw [List.flatMap_append, ← hp, List.flatMap_singleton]
  exact (List.prefix_iff_eq_append.mp (ho name)).symm

theorem written_invariant (name : String) : Invariant fun s past =>
    s.hub.receiver.Sound ∧ (s.hub.egress.writer name).written = past.flatMap (·.wrote name) where
  move _ _ _ _ h hm := by
    have m := Hub.move_of_move? (Hub.of_mover? hm).2
    exact ⟨m.framed.receiver ▸ h.1, written_snoc _ m.onward.egress h.2⟩
  clock _ _ _ h := h
  command _ _ _ h hc := ⟨sound_perform h.1 hc, written_snoc _ ((deed_of_perform hc).onward h.1).egress h.2⟩
  shown _ _ h := h

/-- What a writer has been given are the packets that the changes of the run have left there, in order. -/
theorem written_eq_wrote (settings : Settings) (kind : Kind) (cs : List Command) (name : String) :
    (((new settings kind).after cs).hub.egress.writer name).written
      = ((new settings kind).history cs).flatMap (·.wrote name) :=
  (@Invariant.after _ (written_invariant name) cs (new settings kind) [] ⟨Receiver.sound_new kind _, rfl⟩).2

/-- A hub that has nothing to do has a pump that goes on only if its stream is empty. -/
theorem queued_of_settled {h : Hub} (hs : h.step? = none) (hu : h.Undisturbed relay rid ssrc track)
    (ha : h.receiver.Accounted past) {names : Table String Token} {a : Leases} (o : Owned h names a)
    {l : Layer Ssrc} (hl : h.receiver.layer? rid = some l) (hready : l.isReady) (hp : h.HasPump relay rid) :
    (h.transport.stream .media ssrc).queued = [] := by
  obtain ⟨t, ht, hp⟩ := hp
  obtain ⟨p, hj, hr, hi⟩ := Hub.isPumpOf_iff.mp hp
  obtain ⟨hc, hroute⟩ := hu.pump o ht hj hr hi
  have hm : h.move? t = none := by
    unfold Hub.step? at hs
    exact List.findSome?_eq_none_iff.mp hs t ht
  have hst := hu.standing_bound ha hl hready
  have hread := Hub.read_of_alive (h := h) (by simp [Hub.isAlive, hu.held]) ⟨.media rid, .decoded⟩
  have hhas : p.forwarder.has p.rid = true := by simp [Forwarder.has, hroute]
  unfold Hub.move? at hm
  rw [hj] at hm
  dsimp only [Hub.movePump?] at hm
  rw [if_neg (not_not.mpr hhas), if_neg (by rw [hc]; exact Bool.false_ne_true), Hub.goOn?, hi, hread] at hm
  obtain ⟨-, ⟨-, he⟩ | ⟨-, hq, -⟩ | ⟨d, -, -, he⟩⟩ := Receiver.read_of_atStream (q := ⟨.media rid, .decoded⟩)
    (t := h.transport) hst
  · rw [he] at hm
    cases hm
  · exact hq
  · rw [he] at hm
    cases hm

/-- In every state of every session, the pump that a relay has started for a bound layer has taken the datagrams of
the layer's stream in order, up to the first that is too long, no packet, or refused outside, or all of them if there
is none; and at each writer it has left the packets of the others, in order and stamped, each once. This holds as long
as nobody else takes from the stream, and the receiver, the stream and the relay are left alone. -/
theorem relay_delivers (settings : Settings) (kind : Kind) (cs : List Command) {relay track : Nat} {rid : String}
    {r : Relay} {l : Layer Ssrc}
    (hr : ((new settings kind).after cs).hub.relays[relay]? = some r) (hs : r.started = true)
    (hroute : r.forwarder.routes.find? rid = some track)
    (hl : ((new settings kind).after cs).hub.receiver.layer? rid = some l) (hready : l.isReady = true)
    (hheld : ((new settings kind).after cs).hub.held = true)
    (hgoing : ((new settings kind).after cs).hub.receiver.closing = false)
    (hopen : (((new settings kind).after cs).hub.transport.stream .media l.ssrc).closed = false)
    (htoken : ((new settings kind).after cs).hub.isCancelled r.token = false)
    (hown : OnlyPump ((new settings kind).history cs) relay rid l.ssrc) :
    let q := ((new settings kind).after cs).hub.transport.stream .media l.ssrc
    let mtu := ((new settings kind).after cs).hub.receiver.mtu
    let H := handled ((new settings kind).history cs) relay rid l.ssrc
    H.map Prod.fst = q.accepted.take q.taken
      ∧ ((q.taken = q.accepted.length ∧ ∀ x ∈ H, (fate mtu track x).isOk = true)
        ∨ ∃ init last, H = init ++ [last] ∧ (∀ x ∈ init, (fate mtu track x).isOk = true)
          ∧ (fate mtu track last).isOk = false)
      ∧ ∀ name, recorded ((new settings kind).history cs) relay rid name
          = H.flatMap fun x => recordAt name (fate mtu track x) := by
  have hd := delivering_after settings kind cs relay track rid l.ssrc
  have hq : ((new settings kind).after cs).hub.step? = none := step?_after rfl cs
  generalize (new settings kind).after cs = s at *
  generalize (new settings kind).history cs = past at *
  have hu : s.hub.Undisturbed relay rid l.ssrc track := by
    refine ⟨hheld, hgoing, fun ls hls => ?_, fun k hk _ => ?_, hopen, fun r' hr' => ?_⟩
    · rw [← Receiver.layers_of_track hls]
      exact List.mem_map.mpr ⟨l, List.mem_of_find?_eq_some hl, by simpa using List.find?_some hl⟩
    · rw [hl] at hk
      cases hk
      rfl
    · rw [hr] at hr'
      cases hr'
      exact ⟨htoken, hroute⟩
  have htaken := hd.taken hown
  refine ⟨htaken, ?_, hd.recorded hu⟩
  obtain ⟨a, o⟩ := hd.proper.owned
  cases hd.progress hu with
  | unstarted h =>
    rw [h r hr] at hs
    cases hs
  | running _ hp hH =>
    have hnil := queued_of_settled hq hu hd.accounted o hl hready hp
    rw [QueueStream.queued, List.drop_eq_nil_iff] at hnil
    exact .inl ⟨Nat.le_antisymm hd.stream hnil, hH⟩
  | failed _ _ hH hinit hlast => exact .inr ⟨_, _, hH, hinit, hlast⟩

/-- One datagram comes before the layer is bound; the next one is no packet, and the last one stays in the stream. -/
theorem relay_delivers_bound_late :
    let cs : List Command := [.outbound (.add "out" 100 "video" "stream" (some 97) (some "w")),
      .relay (.add "r" [("q", "out")]), .transport (.pushMedia 1 { ssrc := 1, payload := [1] }),
      .receiver (.receive [⟨"q", 0⟩]), .relay (.start "r"), .receiver (.bind "q" 1), .transport (.push .media 1 [0]),
      .transport (.pushMedia 1 { ssrc := 1, payload := [2] })]
    let H := handled ((new {} .video).history cs) 0 "q" 1
    (((new {} .video).after cs).hub.egress.writer "w").written = [{ ssrc := 100, payloadType := 97, payload := [1] }]
      ∧ (((new {} .video).after cs).hub.transport.stream .media 1).taken = 2
      ∧ recorded ((new {} .video).history cs) 0 "q" "w" = H.flatMap fun x => recordAt "w" (fate 1460 0 x) :=
  ⟨by decide +kernel, by decide +kernel,
    (@relay_delivers {} .video _ 0 0 "q" _ ⟨"q", 1, .bound 1 1 false⟩ (Option.some_get (by decide +kernel)).symm
      (by decide +kernel) (by decide +kernel) (by decide +kernel) rfl (by decide +kernel) (by decide +kernel)
      (by decide +kernel) (by decide +kernel) (by decide +kernel)).2.2 "w"⟩

end Session

end MediaRelay
