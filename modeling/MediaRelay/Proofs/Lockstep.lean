import MediaRelay.Proofs.Agreement

/-!
# Moves side by side

When two hubs agree in a view that fits them, a task that is looked at can move in the one hub if and only if it can in
the other, and then both moves come to the same (`Agree.move?`); what a task does that is not looked at does not matter
(`Agree.move_left`). Whether a read sees only what is looked at is decided by `Fits.sees_iff`.
-/

namespace MediaRelay

/-! ## Views that fit -/

/-- A view fits a hub that still has its receiver if a layer that is bound is looked at just in case its stream is. -/
structure View.Fits (v : View) (h : Hub) : Prop where
  held : h.held = true
  sound : h.receiver.Sound
  named : ∀ k ∈ h.receiver.layers, ∀ m c cc, k.binding = .bound m c cc → m = k.ssrc ∧ c = k.ssrc
  layer : ∀ k ∈ h.receiver.layers, k.isReady = true → (v.rids k.rid = true ↔ k.ssrc = v.ssrc)

/-- A read of media that stands at a stream reads the media stream of its layer. -/
theorem Receiver.layer_of_standing {r : Receiver Ssrc} {rid : String} {ch : Channel} {s : Ssrc}
    (h : r.standing (.media rid) = .atStream ch s) :
    ch = .media ∧ ∃ k ∈ r.layers, k.rid = rid ∧ ∃ c cc, k.binding = .bound s c cc := by
  unfold Receiver.standing at h
  split at h
  · cases h
  · split at h
    · cases h
    · split at h
      · cases h
      · split at h
        · cases h
        · next k hk =>
          have hk : r.layer? rid = some k := hk
          unfold Layer.standing at h
          split at h
          · cases h
          · cases h
          · next m c cc hb _ =>
            cases h
            exact ⟨rfl, k, List.mem_of_find?_eq_some hk, by simpa using List.find?_some hk, c, cc, hb⟩
          · next hc => cases hc

/-- A read of control data that stands at a stream reads a control stream. -/
theorem Receiver.channel_of_standing {r : Receiver Ssrc} {source : Source} {ch : Channel} {s : Ssrc}
    (hc : source.channel = .control) (h : r.standing source = .atStream ch s) : ch = .control := by
  unfold Receiver.standing at h
  rw [hc] at h
  split at h
  · cases h
  · split at h
    · cases h
    · split at h
      · cases h
      · split at h
        · cases h
        · unfold Layer.standing at h
          split at h
          · cases h
          · cases h
          · next hc => cases hc
          · cases h
            rfl

namespace View.Fits

variable {v : View} {h : Hub}

/-- A read is looked at just in case its stream is. -/
theorem sees_iff (hf : v.Fits h) {q : Read} {ch : Channel} {s : Ssrc}
    (hs : h.receiver.standing q.source = .atStream ch s) : v.Sees ch s ↔ q.isSeen v = true := by
  unfold Read.isSeen
  cases hq : q.source with
  | media rid =>
    rw [hq] at hs
    obtain ⟨rfl, k, hk, rfl, c, cc, hb⟩ := Receiver.layer_of_standing hs
    obtain ⟨rfl, -⟩ := hf.named k hk s c cc hb
    have hr : k.isReady = true := by simp [Layer.isReady, hb, Binding.isReady]
    have hz : k.ssrc ≠ 0 := (hf.sound.ready k hk).mp hr
    dsimp only [View.Sees]
    rw [hf.layer k hk hr]
    exact ⟨fun hv => hv.2, fun hv => ⟨hv ▸ hz, hv⟩⟩
  | control rid =>
    obtain rfl := Receiver.channel_of_standing (by rw [hq]; rfl) hs
    exact iff_of_true trivial rfl
  | firstControl =>
    obtain rfl := Receiver.channel_of_standing (by rw [hq]; rfl) hs
    exact iff_of_true trivial rfl

/-- A layer that is not looked at has another SSRC, if it has one. -/
theorem ssrcOf (hf : v.Fits h) {rid : String} (hr : v.rids rid = false) (hz : h.ssrcOf rid ≠ 0) :
    h.ssrcOf rid ≠ v.ssrc := by
  unfold Hub.ssrcOf at hz ⊢
  cases hk : h.receiver.layer? rid with
  | none =>
    rw [hk] at hz
    exact absurd rfl hz
  | some k =>
    rw [hk] at hz
    have hm := List.mem_of_find?_eq_some hk
    have he : k.rid = rid := by simpa using List.find?_some hk
    intro hv
    have := (hf.layer k hm ((hf.sound.ready k hm).mpr hz)).mpr hv
    rw [he, hr] at this
    cases this

/-- What fits later has fitted before. -/
theorem earlier {g : Hub} (hf : v.Fits g) (ho : h.Onward g) (hs : h.receiver.Sound)
    (hn : ∀ k ∈ h.receiver.layers, ∀ m c cc, k.binding = .bound m c cc → m = k.ssrc ∧ c = k.ssrc) : v.Fits h where
  held := ho.held hf.held
  sound := hs
  named := hn
  layer k hk hr := by
    obtain ⟨k', hk', hkk⟩ := ho.receiver.layer? (hs.layer?_eq hk)
    have hz := (hs.ready k hk).mp hr
    have he : k'.rid = k.rid := by simpa using List.find?_some hk'
    rw [← he, hf.layer k' (List.mem_of_find?_eq_some hk') (hkk.ready hr), hkk.ssrc.resolve_right fun h => hz h.1]

end View.Fits

/-! ## Reads -/

namespace Hub.Agree

variable {v : View} {l : Links} {names : Table String Token} {h g : Hub}

theorem setTransport (ha : h.Agree v l names g) {t u : QueueTransport} (ht : t.Agree v u) :
    Hub.Agree v l names { h with transport := t } { g with transport := u } :=
  { ha with transport := ht }

/-- A read that is looked at comes to the same in both hubs. -/
theorem read (ha : h.Agree v l names g) (hf : v.Fits h) {q : Read} (hq : q.isSeen v = true) :
    ∃ t u p, h.read q = ({ h with transport := t }, p) ∧ g.read q = ({ g with transport := u }, p) ∧ t.Agree v u := by
  have hh : h.isAlive = true := by simp [isAlive, hf.held]
  have hg : g.isAlive = true := by simp [isAlive, ← ha.held, hf.held]
  have hr : (h.receiver.read h.transport q).1.Agree v (h.receiver.read g.transport q).1
      ∧ (h.receiver.read h.transport q).2 = (h.receiver.read g.transport q).2 := by
    cases hs : h.receiver.standing q.source with
    | atStream ch s =>
      have hst := ha.transport.stream ch s ((hf.sees_iff hs).mpr hq)
      have he : (h.transport.readStream ch s (q.buffer h.receiver.mtu)).2
          = (g.transport.readStream ch s (q.buffer h.receiver.mtu)).2 := by
        unfold QueueTransport.readStream
        rw [QueueTransport.onStream_snd, QueueTransport.onStream_snd, hst]
      constructor
      · rw [(Receiver.read_of_atStream hs).1, (Receiver.read_of_atStream hs).1]
        exact ha.transport.readStream ch s _
      · change _ = _ at he
        simp only [Receiver.read, hs, Transport.readStream]
        cases ht : h.transport.readStream ch s (q.buffer h.receiver.mtu) with
        | mk t a =>
          cases hu : g.transport.readStream ch s (q.buffer h.receiver.mtu) with
          | mk u b =>
            rw [ht, hu] at he
            cases he
            cases a with
            | waiting => rfl
            | done r => cases r <;> rfl
    | _ =>
      simp only [Receiver.read, hs]
      exact ⟨ha.transport, trivial⟩
  refine ⟨_, _, _, read_of_alive hh q, ?_, hr.1⟩
  rw [read_of_alive hg q, ← ha.receiver, hr.2]

/-- A read that is not looked at may be tried. -/
theorem read_left (ha : h.Agree v l names g) (hf : v.Fits h) {q : Read} (hq : q.isSeen v = false) :
    (h.read q).1.Agree v l names g := by
  rw [read_of_alive (by simp [isAlive, hf.held]) q]
  refine { ha with transport := ?_ }
  rcases h.receiver.read_transport h.transport q with he | ⟨ch, s, hs, he⟩ <;> rw [he]
  · exact ha.transport
  · refine ha.transport.readStream_left (fun hv => ?_) _
    rw [(hf.sees_iff hs).mp hv] at hq
    cases hq

/-- A read that is done and not looked at does not matter. -/
theorem reads_left (ha : h.Agree v l names g) (hf : v.Fits h) {q : Read} (hq : q.isSeen v = false)
    {u : QueueTransport} {r : Except Error Data} (hr : Reads h q u r) : u.Agree v g.transport := by
  have unseen : ∀ {ch s}, h.receiver.standing q.source = .atStream ch s → ¬ v.Sees ch s := by
    intro ch s hs hv
    rw [(hf.sees_iff hs).mp hv] at hq
    cases hq
  cases hr with
  | gone | failed => exact ha.transport
  | ended hs | took hs => exact ha.transport.readStream_left (unseen hs) _

/-! ## Tasks end, wait and go on -/

variable {t u : Task}

theorem dismiss (ha : h.Agree v l names g) (hid : t.id = u.id) : (h.dismiss t).Agree v l names (g.dismiss u) := by
  unfold Hub.dismiss
  rw [← hid]
  exact ha.others t.id

theorem retire (ha : h.Agree v l names g) (hid : t.id = u.id) (e : Ending) :
    (h.retire t e).Agree v l names (g.retire u e) :=
  { ha.dismiss hid with }

/-- A task goes on, at the front or at the back, with a job under a token that there was before. -/
theorem park (ha : h.Agree v l names g) (ht : t ∈ h.tasks) (htu : t.Agree v l u) (gate : Gate) :
    (h.park t gate).Agree v l names (g.park u gate) := by
  have htasks : TasksAgree v l (h.others t.id ++ [{ t with stage := .waiting gate }])
      (g.others t.id ++ [{ u with stage := .waiting gate }]) :=
    (ha.tasks.others t.id).append (.singleton ⟨htu.id, rfl, htu.job⟩)
  unfold Hub.park
  rw [← htu.id] at htasks ⊢
  apply ha.retask htasks
  intro x hx hs k hk n hn
  rcases List.mem_append.mp hx with hx | hx
  · exact .task (Owned.mem_others.mp hx).1 hs hk hn
  · rw [List.mem_singleton.mp hx] at hs hk
    exact .task ht hs hk hn

theorem resume (ha : h.Agree v l names g) (hid : t.id = u.id) {j k : Job} (hj : j.Agree v l k)
    (htok : j.token? = none ∨ t ∈ h.tasks ∧ j = t.job) : (h.resume t j).Agree v l names (g.resume u k) := by
  have htasks : TasksAgree v l ({ id := t.id, job := j } :: h.others t.id)
      ({ id := u.id, job := k } :: g.others t.id) :=
    .cons ⟨hid, rfl, hj⟩ (ha.tasks.others t.id)
  unfold Hub.resume
  rw [← hid] at htasks ⊢
  apply ha.retask htasks
  intro x hx hs token hk n hn
  rcases List.mem_cons.mp hx with rfl | hx
  · rcases htok with htok | ⟨ht, rfl⟩
    · rw [htok] at hk
      cases hk
    · exact .task ht hs hk hn
  · exact .task (Owned.mem_others.mp hx).1 hs hk hn

end Hub.Agree

namespace Hub

/-! ## Moves of tasks that are looked at -/

/-- What a move of a task leaves behind is the same on both sides. -/
structure LeftAlike (id : Nat) (h h' g g' : Hub) : Prop where
  written : Egress.LeftAlike h.egress h'.egress g.egress g'.egress
  ending : h'.endings.find? id = g'.endings.find? id
  events : ∃ es, h'.events = h.events ++ es ∧ g'.events = g.events ++ es

/-- Two moves come to the same: they leave the same behind, and the hubs still agree. -/
structure MovedAlike (v : View) (l : Links) (names : Table String Token) (id : Nat) (h g h' g' : Hub) : Prop where
  agree : h'.Agree v l names g'
  left : LeftAlike id h h' g g'

variable {v : View} {l : Links} {names : Table String Token} {h g : Hub} {t u : Task}

/-- A task that runs has not ended. -/
theorem Tidy.ending (hd : h.Tidy) (ht : t ∈ h.tasks) : h.endings.find? t.id = none := by
  cases he : h.endings.find? t.id with
  | none => rfl
  | some e => exact absurd rfl ((hd.ended _ e he).2 t ht)

theorem announce_of_none {rids : List String} (hn : h.handler = none) : h.announce t rids = h.dismiss t := by
  unfold announce
  split
  · rfl
  all_goals next hh => rw [hn] at hh; cases hh

theorem announce_of_relay {rids : List String} {index : Nat} (hn : h.handler = some (.relay index)) :
    h.announce t rids = ((h.dismiss t).startRelay index rids).1 := by
  unfold announce
  split
  all_goals next hh => rw [hn] at hh; cases hh <;> rfl

theorem announce_of_recorder {rids : List String} {name : String} {reads : Bool} :
    h.handler = some (.recorder name reads) → h.announce t rids
      = match reads, rids with
        | true, rid :: _ =>
          { h with events := h.events ++ [Event.call name 1 rids.length] }.resume t (.greet name rid)
        | _, _ => { h with events := h.events ++ [Event.call name 1 rids.length] }.dismiss t := by
  intro hn
  unfold announce
  split
  all_goals next hh => rw [hn] at hh; cases hh <;> rfl

theorem rest_startRelay (h : Hub) (index : Nat) (rids : List String) :
    (h.startRelay index rids).1.egress = h.egress ∧ (h.startRelay index rids).1.endings = h.endings
      ∧ (h.startRelay index rids).1.events = h.events := by
  refine startRelay_keeps (P := fun g => g.egress = h.egress ∧ g.endings = h.endings ∧ g.events = h.events)
    ⟨rfl, rfl, rfl⟩ ⟨rfl, rfl, rfl⟩ (fun g r rid hg => ?_) rids
  unfold startLayer
  dsimp only
  split <;> exact hg

section Seen

variable (ha : h.Agree v l names g) (hf : v.Fits h) (hd : h.Tidy) (hd' : g.Tidy) (ht : t ∈ h.tasks) (hu : u ∈ g.tasks)
  (htu : t.Agree v l u)

include hd hd' ht hu htu

/-- Nothing is left behind. -/
theorem leftAlike_of_eq {h' g' : Hub} (he : h'.egress = h.egress) (he' : g'.egress = g.egress)
    (hn : h'.endings = h.endings) (hn' : g'.endings = g.endings) (hv : h'.events = h.events)
    (hv' : g'.events = g.events) : LeftAlike t.id h h' g g' := by
  refine ⟨?_, ?_, [], ?_, ?_⟩
  · rw [he, he']
    exact .refl _ _
  · rw [hn, hn', hd.ending ht, htu.id, hd'.ending hu]
  · rw [hv, List.append_nil]
  · rw [hv', List.append_nil]

omit hd hd' ht hu in
/-- The end of a task is left behind. -/
theorem leftAlike_retire (k k' : Hub) (he : k.egress = h.egress) (he' : k'.egress = g.egress) (hv : k.events = h.events)
    (hv' : k'.events = g.events) (e : Ending) : LeftAlike t.id h (k.retire t e) g (k'.retire u e) := by
  refine ⟨?_, ?_, [], ?_, ?_⟩
  · show Egress.LeftAlike h.egress k.egress g.egress k'.egress
    rw [he, he']
    exact .refl _ _
  · show (k.endings.insert t.id e).find? t.id = (k'.endings.insert u.id e).find? t.id
    rw [htu.id, Table.find?_insert_self, Table.find?_insert_self]
  · exact hv.trans (List.append_nil _).symm
  · exact hv'.trans (List.append_nil _).symm

include ha hf

/-- A read that is looked at goes on in both hubs or waits in both. -/
theorem Agree.goOn? {q : Read} (hq : q.isSeen v = true) {finish finish' : Hub → Except Error Data → Hub}
    (hdone : ∀ k k' r, k.Agree v k' → MovedAlike v l names t.id h g
      (finish { h with transport := k } r) (finish' { g with transport := k' } r)) :
    Option.Rel (MovedAlike v l names t.id h g) (h.goOn? t q finish) (g.goOn? u q finish') := by
  have hpark : ∀ gate, Option.Rel (MovedAlike v l names t.id h g) (h.park? t gate) (g.park? u gate) := by
    intro gate
    unfold park?
    rw [← htu.stage]
    split
    · exact .some ⟨ha.park ht htu gate, leftAlike_of_eq hd hd' ht hu htu rfl rfl rfl rfl rfl rfl⟩
    · exact .none
  obtain ⟨k, k', p, hr, hr', hk⟩ := ha.read hf hq
  unfold Hub.goOn?
  rw [hr, hr']
  cases p with
  | done r => exact .some (hdone k k' r hk)
  | awaitsTrack => exact hpark .track
  | awaitsLayer => exact hpark .layer
  | awaitsDatagram => exact hpark .datagram

omit ha hf in
theorem leftAlike_failPump {k k' : Hub} (hw : Egress.LeftAlike h.egress k.egress g.egress k'.egress)
    (hn : k.endings = h.endings) (hn' : k'.endings = g.endings) (hv : k.events = h.events) (hv' : k'.events = g.events)
    {p q : Pump} (hr : p.rid = q.rid) (hj : p.relay = q.relay) (cause : Error) :
    LeftAlike t.id h (k.failPump t p cause) g (k'.failPump u q cause) := by
  unfold Hub.failPump
  rw [← hj, ← hr]
  cases p.relay with
  | none =>
    refine ⟨hw, ?_, [], hv.trans (List.append_nil _).symm, hv'.trans (List.append_nil _).symm⟩
    show (k.endings.insert t.id _).find? t.id = (k'.endings.insert u.id _).find? t.id
    rw [htu.id, Table.find?_insert_self, Table.find?_insert_self]
  | some index =>
    refine ⟨hw, ?_, [], hv.trans (List.append_nil _).symm, hv'.trans (List.append_nil _).symm⟩
    show k.endings.find? t.id = k'.endings.find? t.id
    rw [hn, hn', hd.ending ht, htu.id, hd'.ending hu]

theorem Agree.move?_pump {rid : String} {f f' : Forwarder} {token : Token} {relay : Option Nat}
    (hj : t.job = .pump ⟨rid, f, token, relay⟩) (hff : f.Agree v l f')
    (hr : v.rids rid = true) : Option.Rel (MovedAlike v l names t.id h g)
      (h.movePump? t ⟨rid, f, token, relay⟩) (g.movePump? u ⟨rid, f', token, relay⟩) := by
  have hc : h.isCancelled token = g.isCancelled token := by
    refine ha.isCancelled fun n hn => ha.cancelled n (.task (k := token) ht ?_ ?_ hn)
    · rw [hj]
      exact hr
    · rw [hj]
      rfl
  have fail : ∀ {k k' : Hub} (cause : Error), k.Agree v l names k' →
      Egress.LeftAlike h.egress k.egress g.egress k'.egress → k.endings = h.endings → k'.endings = g.endings →
      k.events = h.events → k'.events = g.events → MovedAlike v l names t.id h g
        (k.failPump t ⟨rid, f, token, relay⟩ cause) (k'.failPump u ⟨rid, f', token, relay⟩ cause) :=
    fun cause hk hw hn hn' hv hv' => ⟨hk.failPump htu.id rfl rfl rfl cause,
      leftAlike_failPump hd hd' ht hu htu hw hn hn' hv hv' rfl rfl cause⟩
  unfold Hub.movePump?
  dsimp only
  rw [← hff.has hr, ← hc]
  split
  · exact .some (fail _ ha (.refl _ _) rfl rfl rfl rfl)
  · split
    · exact .some ⟨ha.retire htu.id _, leftAlike_retire htu h g rfl rfl rfl rfl _⟩
    · refine ha.goOn? (q := ⟨.media rid, .decoded⟩) hf hd hd' ht hu htu hr fun k k' r hk => ?_
      have hk := ha.setTransport hk
      unfold pumped
      cases r with
      | error cause => exact fail cause hk (.refl _ _) rfl rfl rfl rfl
      | ok data =>
        cases data with
        | bytes d => exact fail _ hk (.refl _ _) rfl rfl rfl rfl
        | control ps => exact fail _ hk (.refl _ _) rfl rfl rfl rfl
        | media packet =>
          obtain ⟨ho, hw⟩ := hff.forward ha.egress hr packet
          have he := ha.egress.forward f f' rid packet
          dsimp only
          cases hx : f.forward h.egress rid packet with
          | mk e o =>
            cases hx' : f'.forward g.egress rid packet with
            | mk e' o' =>
              rw [hx, hx'] at ho hw he
              cases ho
              have hke : Hub.Agree v l names { h with transport := k, egress := e }
                  { g with transport := k', egress := e' } := { hk with egress := he }
              cases o with
              | error cause => exact fail cause hke hw rfl rfl rfl rfl
              | ok _ =>
                have hjob : t.job.Agree v l u.job := htu.job
                refine ⟨hke.resume htu.id hjob (.inr ⟨ht, rfl⟩), hw, ?_, [], (List.append_nil _).symm,
                  (List.append_nil _).symm⟩
                show h.endings.find? t.id = g.endings.find? t.id
                rw [hd.ending ht, htu.id, hd'.ending hu]

omit hf in
theorem Agree.move?_scheduler {s : Scheduler} (hj : t.job = .feedback s) (hr : v.rids s.rid = true) :
    Option.Rel (MovedAlike v l names t.id h g) (h.moveScheduler? t s) (g.moveScheduler? u s) := by
  have hc : h.isCancelled s.token = g.isCancelled s.token := by
    refine ha.isCancelled fun n hn => ha.cancelled n (.task (k := s.token) ht ?_ ?_ hn)
    · rw [hj]
      exact hr
    · rw [hj]
      rfl
  have hdue : ∀ time, (time ≤ g.clock) = (time ≤ h.clock) := fun time => by rw [ha.clock]
  have hgate : Gate.deadline (g.clock + s.period) = .deadline (h.clock + s.period) := by rw [ha.clock]
  unfold Hub.moveScheduler?
  rw [← hc, ← htu.stage, ← ha.ssrcOf, hgate]
  simp only [hdue]
  split
  · exact .some ⟨ha.retire htu.id _, leftAlike_retire htu h g rfl rfl rfl rfl _⟩
  · split
    · split
      · refine .some ⟨?_, leftAlike_of_eq hd hd' ht hu htu rfl rfl rfl rfl rfl rfl⟩
        have hk : Hub.Agree v l names { h with feedback := h.feedback.writeRound (h.ssrcOf s.rid) s.bitrate }
            { g with feedback := g.feedback.writeRound (h.ssrcOf s.rid) s.bitrate } :=
          { ha with feedback := ha.feedback.writeRound _ _ }
        exact hk.park ht htu _
      · exact .none
    · exact .none
    · exact .some ⟨ha.park ht htu _, leftAlike_of_eq hd hd' ht hu htu rfl rfl rfl rfl rfl rfl⟩

omit hf in
theorem Agree.announced (hh : h.Fresh) (hg : g.Fresh) (rids : List String) :
    MovedAlike v l names t.id h g (h.announce t rids) (g.announce u rids) := by
  cases hn : h.handler with
  | none =>
    rw [announce_of_none hn, announce_of_none (ha.handler ▸ hn)]
    exact ⟨ha.dismiss htu.id, leftAlike_of_eq hd hd' ht hu htu rfl rfl rfl rfl rfl rfl⟩
  | some handler =>
    cases handler with
    | relay index =>
      rw [announce_of_relay hn, announce_of_relay (ha.handler ▸ hn)]
      obtain ⟨he, hn, hv⟩ := (h.dismiss t).rest_startRelay index rids
      obtain ⟨he', hn', hv'⟩ := (g.dismiss u).rest_startRelay index rids
      exact ⟨((ha.dismiss htu.id).startRelay hh hg index rids).1,
        leftAlike_of_eq hd hd' ht hu htu he he' hn hn' hv hv'⟩
    | recorder name reads =>
      have hending : h.endings.find? t.id = g.endings.find? t.id := by rw [hd.ending ht, htu.id, hd'.ending hu]
      have hk : Hub.Agree v l names { h with events := h.events ++ [Event.call name 1 rids.length] }
          { g with events := g.events ++ [Event.call name 1 rids.length] } := { ha with }
      rw [announce_of_recorder hn, announce_of_recorder (ha.handler ▸ hn)]
      split
      · exact ⟨hk.resume htu.id (.greet _ _) (.inl rfl), .refl _ _, hending, _, rfl, rfl⟩
      · exact ⟨hk.dismiss htu.id, .refl _ _, hending, _, rfl, rfl⟩

/-- A task that is looked at moves in both hubs or in neither, and both moves come to the same. -/
theorem Agree.move? (hh : h.Fresh) (hg : g.Fresh) (hs : t.job.isSeen v = true) :
    Option.Rel (MovedAlike v l names t.id h g) (h.move? t) (g.move? u) := by
  have hj := htu.job
  unfold Hub.move?
  generalize hjt : t.job = j at hj hs
  generalize u.job = k at hj
  cases hj with
  | read q =>
    apply ha.goOn? hf hd hd' ht hu htu hs
    intro k k' r hk
    refine ⟨(ha.setTransport hk).retire htu.id _, leftAlike_retire htu _ _ ?_ ?_ ?_ ?_ _⟩ <;> rfl
  | pump rid token relay hff => exact ha.move?_pump hf hd hd' ht hu htu hjt hff hs
  | feedback s => exact ha.move?_scheduler hd hd' ht hu htu hjt hs
  | announce rids => exact .some (ha.announced hd hd' ht hu htu hh hg rids)
  | greet name rid =>
    refine ha.goOn? (q := ⟨.media rid, .decoded⟩) hf hd hd' ht hu htu hs fun k k' r hk => ?_
    have hending : h.endings.find? t.id = g.endings.find? t.id := by rw [hd.ending ht, htu.id, hd'.ending hu]
    have hk := (ha.setTransport hk).dismiss htu.id
    unfold greeted
    split
    · exact ⟨{ hk with }, .refl _ _, hending, _, rfl, rfl⟩
    · exact ⟨hk, .refl _ _, hending, [], (List.append_nil _).symm, (List.append_nil _).symm⟩
    · exact ⟨{ hk with }, .refl _ _, hending, _, rfl, rfl⟩

end Seen

/-! ## Moves of other tasks -/

/-- The token of a layer that is not looked at is not shown. -/
theorem not_shown {a : Leases} (o : Owned h names a) {m j : Nat} {rid : String} (hm : a m = some (j, rid))
    (hr : v.rids rid = false) : ¬ Shown v names h.relays h.tasks m := by
  have leased : ∀ {k : Token} {i : Nat} {rid' : String}, k.Leased a h.relays i rid' → v.rids rid' = true →
      m ∉ k.ids := fun hk hs hmem => by
    obtain ⟨-, rfl⟩ := o.of_mem_leased hk hm hmem
    exact Bool.false_ne_true (hr.symm.trans hs)
  rintro (⟨hrm, hn⟩ | ⟨ht, hs, hk, hn⟩ | ⟨hk, hn⟩)
  · exact (o.relay _ hrm).2.not_mem hm hn
  · next t k =>
    cases hj : t.job with
    | pump p =>
      rw [hj] at hs hk
      cases hk
      obtain ⟨-, rfl⟩ := o.of_mem_pump ht hj hm hn
      exact Bool.false_ne_true (hr.symm.trans hs)
    | feedback q =>
      rw [hj] at hs hk
      cases hk
      rcases o.scheduler t ht q hj with hq | ⟨i, hq⟩
      · exact hq.not_mem hm hn
      · exact leased hq hs hn
    | _ => rw [hj] at hk; cases hk
  · exact (o.named _ _ hk).not_mem hm hn

/-- What a task does that is not looked at does not matter. -/
theorem Agree.move_left {a : Leases} (ha : h.Agree v l names g) (hf : v.Fits h) (o : Owned h names a) (ht : t ∈ h.tasks)
    (hs : t.job.isSeen v = false) {h' : Hub} (m : Move h t h') : h'.Agree v l names g := by
  have hid : ∀ x ∈ h.tasks, x.id = t.id → x.job.isSeen v = false := fun x hx he => by
    rw [List.inj_on_of_nodup_map o.ids hx ht he]
    exact hs
  have hd : Hub.Agree v l names { h with tasks := h.others t.id } g := ha.others_left hid
  have old : ∀ x ∈ h.others t.id, x.job.isSeen v = true → ∀ k, x.job.token? = some k → ∀ n ∈ k.ids,
      Shown v names h.relays h.tasks n :=
    fun x hx hsx k hk n hn => .task (Owned.mem_others.mp hx).1 hsx hk hn
  have park : ∀ gate, (h.park t gate).Agree v l names g := by
    intro gate
    refine ha.retask (TasksAgree.append_left hs (ha.tasks.others_left hid)) fun x hx hsx => ?_
    rcases List.mem_append.mp hx with hx | hx
    · exact old x hx hsx
    · rw [List.mem_singleton.mp hx] at hsx
      exact absurd (hs.symm.trans hsx) Bool.false_ne_true
  have resume : (h.resume t t.job).Agree v l names g := by
    refine ha.retask (TasksAgree.cons_left hs (ha.tasks.others_left hid)) fun x hx hsx => ?_
    rcases List.mem_cons.mp hx with rfl | hx
    · exact absurd (hs.symm.trans hsx) Bool.false_ne_true
    · exact old x hx hsx
  have fail : ∀ {k : Hub} {p : Pump} (cause : Error), t.job = .pump p → k.Agree v l names g → k.tasks = h.tasks →
      k.relays = h.relays → (k.failPump t p cause).Agree v l names g := by
    intro k p cause hj hk htasks hrelays
    refine hk.failPump_left (by rwa [htasks]) (by rw [hj] at hs; exact hs) (fun j hr n hn => ?_) cause
    rw [htasks, hrelays]
    obtain ⟨⟨r, m, -, htok, hm⟩, -⟩ := o.pump t ht p j hj hr
    rw [htok] at hn
    rw [List.mem_singleton.mp hn]
    exact not_shown o hm (by rw [hj] at hs; exact hs)
  cases m with
  | park => exact park _
  | begin => exact park _
  | read hj hq =>
    rw [hj] at hs
    exact { hd with transport := ha.reads_left hf hs hq }
  | greet hj hq =>
    rw [hj] at hs
    have htr := ha.reads_left (q := ⟨.media _, .decoded⟩) hf hs hq
    unfold greeted
    split <;> exact { hd with transport := htr }
  | @forward p u packet e hj _ _ hq hw =>
    have htr := ha.reads_left (q := ⟨.media p.rid, .decoded⟩) hf (by rw [hj] at hs; exact hs) hq
    have he := ha.egress.forward_left p.forwarder p.rid packet
    rw [hw] at he
    exact { resume with transport := htr, egress := he }
  | @refuse p u packet e cause hj _ _ hq hw =>
    have htr := ha.reads_left (q := ⟨.media p.rid, .decoded⟩) hf (by rw [hj] at hs; exact hs) hq
    have he := ha.egress.forward_left p.forwarder p.rid packet
    rw [hw] at he
    exact fail cause hj { ha with transport := htr, egress := he } rfl rfl
  | @fail p u cause hj _ _ hq =>
    have htr := ha.reads_left (q := ⟨.media p.rid, .decoded⟩) hf (by rw [hj] at hs; exact hs) hq
    exact fail cause hj { ha with transport := htr } rfl rfl
  | unrouted hj => exact fail _ hj ha rfl rfl
  | cease => exact { hd with }
  | expire => exact { hd with }
  | @round s time hj =>
    have hw := ha.feedback.writeRound_left (hf.ssrcOf (by rw [hj] at hs; exact hs)) s.bitrate
    exact { park _ with feedback := hw }
  | announce hj =>
    rw [hj] at hs
    cases hs

end Hub

end MediaRelay
