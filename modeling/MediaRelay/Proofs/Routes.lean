import MediaRelay.Proofs.Twins

/-!
# Tracks that are there

An outbound track stays where it is, so that the tracks which forwarders, relays and pumps know by their numbers are
there in every state that a session comes to (`Session.routed_after`). On the way all commands are listed that have
anything to do with tracks and writers (`Session.SameOutside`, `Session.performRelay_cases`).
-/

namespace MediaRelay

/-- The tracks that a forwarder knows are among the first few. -/
def Forwarder.Within (f : Forwarder) (n : Nat) : Prop :=
  ∀ rid track, f.routes.find? rid = some track → track < n

theorem Forwarder.Within.mono {f : Forwarder} {m n : Nat} (h : f.Within m) (hmn : m ≤ n) : f.Within n :=
  fun rid track ht => Nat.lt_of_lt_of_le (h rid track ht) hmn

/-! ## Relays and pumps -/

namespace Hub

/-- The tracks that relays and pumps know are among the first few. -/
structure Routed (h : Hub) (n : Nat) : Prop where
  relays : ∀ r ∈ h.relays, r.forwarder.Within n
  pumps : ∀ t ∈ h.tasks, ∀ q, t.job = .pump q → q.forwarder.Within n

variable {h g : Hub} {n : Nat} {t : Task}

/-- Relays that only change otherwise, and tasks that are not new pumps. -/
theorem Routed.of (hh : h.Routed n) (hr : ∀ r ∈ g.relays, ∃ r' ∈ h.relays, r'.forwarder = r.forwarder)
    (ht : ∀ t ∈ g.tasks, (∃ u ∈ h.tasks, u.job = t.job) ∨ ∀ q, t.job ≠ .pump q) : g.Routed n where
  relays r hm := by
    obtain ⟨r', hr', he⟩ := hr r hm
    exact he ▸ hh.relays r' hr'
  pumps t hm q hj := by
    rcases ht t hm with ⟨u, hu, he⟩ | hn
    · exact hh.pumps u hu q (he.trans hj)
    · exact absurd hj (hn q)

/-- Relays are as they were. -/
theorem Routed.of_relays_eq (hh : h.Routed n) (hr : g.relays = h.relays)
    (ht : ∀ t ∈ g.tasks, (∃ u ∈ h.tasks, u.job = t.job) ∨ ∀ q, t.job ≠ .pump q) : g.Routed n :=
  hh.of (fun r hm => ⟨r, hr ▸ hm, rfl⟩) ht

/-- Relays and tasks are as they were. -/
theorem Routed.of_eq (hh : h.Routed n) (hr : g.relays = h.relays) (ht : g.tasks = h.tasks) : g.Routed n :=
  hh.of_relays_eq hr fun t hm => .inl ⟨t, ht ▸ hm, rfl⟩

theorem Routed.mono (hh : h.Routed n) {m : Nat} (hmn : n ≤ m) : h.Routed m :=
  ⟨fun r hr => (hh.relays r hr).mono hmn, fun t ht q hj => (hh.pumps t ht q hj).mono hmn⟩

theorem mem_relays_modify {rs : List Relay} {index : Nat} {f : Relay → Relay}
    (hf : ∀ r : Relay, (f r).forwarder = r.forwarder) :
    ∀ r ∈ rs.modify index f, ∃ r' ∈ rs, r'.forwarder = r.forwarder := by
  intro r hr
  obtain ⟨i, hi⟩ := List.mem_iff_getElem?.mp hr
  rw [List.getElem?_modify] at hi
  obtain ⟨r', hr', rfl⟩ := Option.map_eq_some_iff.mp hi
  refine ⟨r', List.mem_of_getElem? hr', ?_⟩
  split
  · exact (hf r').symm
  · rfl

theorem Routed.spawn (hh : h.Routed n) {job : Job} (hj : ∀ q, job = .pump q → q.forwarder.Within n) :
    (h.spawn job).Routed n where
  relays := hh.relays
  pumps t ht q hq := by
    rcases List.mem_append.mp ht with ht | ht
    · exact hh.pumps t ht q hq
    · rw [List.mem_singleton.mp ht] at hq
      exact hj q hq

theorem Routed.failPump (hh : h.Routed n) (t : Task) (p : Pump) (cause : Error) : (h.failPump t p cause).Routed n := by
  have others : ∀ u ∈ h.others t.id, (∃ v ∈ h.tasks, v.job = u.job) ∨ ∀ q, u.job ≠ .pump q :=
    fun u hu => .inl ⟨u, (Owned.mem_others.mp hu).1, rfl⟩
  unfold Hub.failPump
  split
  · exact hh.of_relays_eq rfl others
  · refine hh.of (mem_relays_modify ?_) others
    exact fun _ => rfl

theorem Routed.startLayer (hh : h.Routed n) (index : Nat) {r : Relay} (hr : r.forwarder.Within n) (rid : String) :
    (h.startLayer index r rid).Routed n := by
  unfold Hub.startLayer
  dsimp only
  have pump : ∀ {k : Hub} {q : Pump}, k.Routed n → q.forwarder = r.forwarder → (k.spawn (.pump q)).Routed n :=
    fun hk hq => hk.spawn fun _ hj => by cases hj; exact hq ▸ hr
  refine pump ?_ rfl
  split
  · refine .spawn ?_ fun q hq => by cases hq
    exact hh.of_eq rfl rfl
  · exact hh.of_eq rfl rfl

theorem Routed.startRelay (hh : h.Routed n) (index : Nat) (rids : List String) :
    (h.startRelay index rids).1.Routed n := by
  have layers : ∀ (r : Relay), r.forwarder.Within n → ∀ (rids : List String) (g : Hub), g.Routed n →
      (rids.foldl (fun g rid => g.startLayer index r rid) g).Routed n := by
    intro r hr rids
    induction rids with
    | nil => exact fun g hg => hg
    | cons rid rids ih => exact fun g hg => ih _ (hg.startLayer index hr rid)
  have mark : Routed { h with relays := h.relays.modify index fun r => { r with started := true } } n := by
    refine hh.of (mem_relays_modify ?_) fun t ht => .inl ⟨t, ht, rfl⟩
    exact fun _ => rfl
  unfold Hub.startRelay
  split
  · exact hh
  · next r hr =>
    split
    · exact hh
    · dsimp only
      split
      · exact mark
      · exact layers r (hh.relays r (List.mem_of_getElem? hr)) rids _ mark

/-- No move makes a relay or a pump know a track that is not there. -/
theorem Routed.move (hh : h.Routed n) (ht : t ∈ h.tasks) (m : Move h t g) : g.Routed n := by
  have others : ∀ u ∈ h.others t.id, (∃ v ∈ h.tasks, v.job = u.job) ∨ ∀ q, u.job ≠ .pump q :=
    fun u hu => .inl ⟨u, (Owned.mem_others.mp hu).1, rfl⟩
  cases m with
  | park | round | begin =>
    refine hh.of_relays_eq rfl fun u hu => ?_
    rcases List.mem_append.mp hu with hu | hu
    · exact others u hu
    · rw [List.mem_singleton.mp hu]
      exact .inl ⟨t, ht, rfl⟩
  | read | cease | expire => exact hh.of_relays_eq rfl others
  | forward =>
    refine hh.of_relays_eq rfl fun u hu => ?_
    rcases List.mem_cons.mp hu with rfl | hu
    · exact .inl ⟨t, ht, rfl⟩
    · exact others u hu
  | refuse | fail =>
    refine Routed.failPump ?_ t _ _
    exact hh.of_eq rfl rfl
  | unrouted => exact hh.failPump t _ _
  | announce =>
    unfold announce
    split
    · exact hh.of_relays_eq rfl others
    · refine Routed.startRelay ?_ _ _
      exact hh.of_relays_eq rfl others
    · dsimp only
      split
      · refine hh.of_relays_eq rfl fun u hu => ?_
        rcases List.mem_cons.mp hu with rfl | hu
        · exact .inr (by simp)
        · exact others u hu
      · exact hh.of_relays_eq rfl others
  | greet =>
    unfold greeted
    split <;> exact hh.of_relays_eq rfl others

end Hub

namespace Session

variable {s t : Session}

/-- The tracks that names stand for, and those that forwarders, relays and pumps know, are there. -/
structure Routed (s : Session) : Prop where
  hub : s.hub.Routed s.hub.egress.tracks.length
  outbounds : ∀ name i, s.outbounds.find? name = some i → i < s.hub.egress.tracks.length
  forwarders : ∀ name f, s.forwarders.find? name = some f → f.Within s.hub.egress.tracks.length

theorem Routed.forwarder? (hs : s.Routed) {name : String} {f : Forwarder} (hf : s.forwarder? name = some f) :
    f.Within s.hub.egress.tracks.length := by
  unfold Session.forwarder? at hf
  split at hf
  · next hn => exact hs.forwarders name _ (hf ▸ hn)
  · obtain ⟨⟨index, r⟩, hr, rfl⟩ := Option.map_eq_some_iff.mp hf
    obtain ⟨i, -, hi⟩ := Option.bind_eq_some_iff.mp hr
    obtain ⟨r', hr', he⟩ := Option.bind_eq_some_iff.mp hi
    cases he
    exact hs.hub.relays r (List.mem_of_getElem? hr')

/-! ## Maps of forwarders -/

/-- What one entry of a map adds to the routes. -/
def hop (s : Session) (routes : Table String Nat) (e : String × String) : Table String Nat :=
  (s.outbounds.find? e.2).elim routes (routes.insert e.1)

theorem route_eq (s : Session) (map : List (String × String)) : s.route map = ⟨map.foldl s.hop {}⟩ := by
  refine congrArg Forwarder.mk (List.foldl_ext _ _ _ fun routes ⟨rid, name⟩ _ => ?_)
  unfold Session.hop
  dsimp only
  cases s.outbounds.find? name <;> rfl

/-- What an entry adds is a track that has a name. -/
theorem within_hop {n : Nat} (h : ∀ name i, s.outbounds.find? name = some i → i < n) {routes : Table String Nat}
    (hr : (⟨routes⟩ : Forwarder).Within n) (e : String × String) : (⟨s.hop routes e⟩ : Forwarder).Within n := by
  unfold Session.hop
  cases hi : s.outbounds.find? e.2 with
  | none => exact hr
  | some index =>
    intro rid track ht
    have ht : (routes.insert e.1 index).find? rid = some track := ht
    by_cases he : rid = e.1
    · rw [he, Table.find?_insert_self] at ht
      cases ht
      exact h _ _ hi
    · rw [Table.find?_insert_of_ne _ _ he] at ht
      exact hr rid track ht

/-- What is made of a map knows only tracks that have names. -/
theorem within_route {n : Nat} (h : ∀ name i, s.outbounds.find? name = some i → i < n)
    (map : List (String × String)) : (s.route map).Within n := by
  have hops : ∀ routes : Table String Nat, (⟨routes⟩ : Forwarder).Within n →
      (⟨map.foldl s.hop routes⟩ : Forwarder).Within n := by
    induction map with
    | nil => exact fun _ hr => hr
    | cons e map ih => exact fun routes hr => ih _ (within_hop h hr e)
  rw [route_eq]
  exact hops {} fun rid track ht => by cases ht

/-! ## What commands do outside -/

/-- The names of tracks and forwarders, and the outbound side, are as they were. -/
structure SameOutside (s t : Session) : Prop where
  outbounds : t.outbounds = s.outbounds
  forwarders : t.forwarders = s.forwarders
  egress : t.hub.egress = s.hub.egress

theorem SameOutside.refl (s : Session) : s.SameOutside s :=
  ⟨rfl, rfl, rfl⟩

theorem sameOutside_performRead (c : ReadCommand) : s.SameOutside (s.performRead c).1 := by
  cases c with
  | read q =>
    simp only [performRead]
    split
    · exact .refl s
    · obtain ⟨u, hu, -⟩ := s.hub.read_transport q
      exact ⟨rfl, rfl, by rw [hu]; rfl⟩
  | spawn name q =>
    cases q with
    | none => exact .refl s
    | some q =>
      simp only [performRead]
      split <;> exact ⟨rfl, rfl, rfl⟩
  | poll name =>
    simp only [performRead]
    split
    · exact .refl s
    · exact ⟨rfl, rfl, rfl⟩
    · split <;> exact ⟨rfl, rfl, rfl⟩
  | abort name =>
    simp only [performRead]
    split <;> exact ⟨rfl, rfl, rfl⟩

theorem sameOutside_performReceiver (c : ReceiverCommand) : s.SameOutside (s.performReceiver c).1 := by
  have held : s.SameOutside (s.performHeld c).1 := by
    cases c with
    | receive es =>
      simp only [performHeld, Session.receive]
      split <;> exact ⟨rfl, rfl, rfl⟩
    | layerOfSsrc ssrc =>
      simp only [performHeld]
      split <;> exact .refl s
    | _ => exact ⟨rfl, rfl, rfl⟩
  unfold performReceiver
  split
  · exact held
  · cases c with
    | drop | layer rid | describeLayer rid => exact held
    | _ => exact .refl s

theorem sameOutside_performToken (c : TokenCommand) : s.SameOutside (s.performToken c).1 := by
  cases c <;> simp only [performToken] <;> split <;> exact ⟨rfl, rfl, rfl⟩

theorem sameOutside_performTransport (c : TransportCommand) : s.SameOutside (s.performTransport c).1 := by
  cases c <;> exact ⟨rfl, rfl, rfl⟩

/-- A command about relays leaves the outside alone, makes a forwarder, or asks one to forward a packet. -/
theorem performRelay_cases (c : RelayCommand) :
    (s.SameOutside (s.performRelay c).1 ∧ ∀ name rid p, c ≠ .forward name rid p)
      ∨ (∃ name map, c = .addForwarder name map)
      ∨ (∃ name rid p, c = .forward name rid p ∧ s.performRelay c = (s, .refused .noForwarder))
      ∨ ∃ name rid p f, c = .forward name rid p ∧ s.forwarder? name = some f := by
  cases c with
  | addForwarder name map => exact .inr (.inl ⟨name, map, rfl⟩)
  | forward name rid p =>
    cases hf : s.forwarder? name with
    | none => exact .inr (.inr (.inl ⟨name, rid, p, rfl, by simp only [performRelay, hf]⟩))
    | some f => exact .inr (.inr (.inr ⟨name, rid, p, f, rfl, hf⟩))
  | takeFailures name =>
    refine .inl ⟨?_, by simp⟩
    simp only [performRelay]
    split
    · exact .refl s
    · split <;> exact ⟨rfl, rfl, rfl⟩
  | install name =>
    refine .inl ⟨?_, by simp⟩
    simp only [performRelay]
    split
    · split <;> exact ⟨rfl, rfl, rfl⟩
    · exact .refl s
  | start name =>
    refine .inl ⟨?_, by simp⟩
    simp only [performRelay]
    split
    · split
      · exact ⟨rfl, rfl, (s.hub.rest_startRelay _ _).1⟩
      · exact .refl s
    · exact .refl s
  | _ =>
    refine .inl ⟨?_, by simp⟩
    simp only [performRelay]
    split <;> exact ⟨rfl, rfl, rfl⟩

/-- What a forwarder that has a name is asked to do. -/
theorem performRelay_forward {name : String} {f : Forwarder} (hf : s.forwarder? name = some f) (rid : String)
    (p : Rtp.Packet) :
    s.performRelay (.forward name rid p) = (s.setHub { s.hub with egress := (f.forward s.hub.egress rid p).1 },
      .ofResult (f.forward s.hub.egress rid p).2) := by
  simp only [performRelay, hf]

/-! ## Every session knows only tracks that are there -/

/-- The outbound side changes, and loses no track. -/
theorem Routed.setEgress (hs : s.Routed) {e : Egress} (he : s.hub.egress.tracks.length ≤ e.tracks.length) :
    (s.setHub { s.hub with egress := e }).Routed where
  hub := (hs.hub.mono he).of_eq rfl rfl
  outbounds name i hi := Nat.lt_of_lt_of_le (hs.outbounds name i hi) he
  forwarders name f hf := (hs.forwarders name f hf).mono he

/-- The hub changes, and nothing outside. -/
theorem Routed.of_sameOutside (hs : s.Routed) (ho : s.SameOutside t)
    (hh : t.hub.Routed s.hub.egress.tracks.length) : t.Routed where
  hub := ho.egress ▸ hh
  outbounds := by
    rw [ho.outbounds, ho.egress]
    exact hs.outbounds
  forwarders := by
    rw [ho.forwarders, ho.egress]
    exact hs.forwarders

/-- Relays and pumps that come with a command know only tracks that the session knows. -/
theorem Deed.routed {c : Command} {g : Hub} {names : Table String Token} (d : s.Deed c g names) (hs : s.Routed) :
    g.Routed s.hub.egress.tracks.length := by
  have h := hs.hub
  cases d with
  | read q =>
    obtain ⟨u, hu, -⟩ := s.hub.read_transport q
    rw [hu]
    exact h.of_eq rfl rfl
  | spawnRead name q => exact h.spawn fun _ hj => by cases hj
  | abort => exact h.of_relays_eq rfl fun u hu => .inl ⟨u, (Owned.mem_others.mp hu).1, rfl⟩
  | receive =>
    refine Hub.Routed.spawn ?_ fun _ hj => by cases hj
    exact h.of_eq rfl rfl
  | addRelay =>
    refine ⟨fun r hr => ?_, h.pumps⟩
    rcases List.mem_append.mp hr with hr | hr
    · exact h.relays r hr
    · rw [List.mem_singleton.mp hr]
      exact within_route hs.outbounds _
  | startRelay => exact h.startRelay _ _
  | startPump _ hf =>
    refine Hub.Routed.spawn ?_ fun _ hj => by cases hj; exact hs.forwarder? hf
    exact h.of_eq rfl rfl
  | startScheduler =>
    refine Hub.Routed.spawn ?_ fun _ hj => by cases hj
    exact h.of_eq rfl rfl
  | _ => exact h.of_eq rfl rfl

theorem Routed.addOutbound (hs : s.Routed) (name : String) (o : Outbound) : (s.addOutbound name o).1.Routed := by
  have hlen : (s.hub.egress.addTrack o).tracks.length = s.hub.egress.tracks.length + 1 := by
    simp [Egress.addTrack]
  have hle : s.hub.egress.tracks.length ≤ (s.hub.egress.addTrack o).tracks.length := hlen ▸ Nat.le_succ _
  refine ⟨(hs.setEgress hle).hub, fun name' i hi => ?_, (hs.setEgress hle).forwarders⟩
  have hi : (s.outbounds.insert name s.hub.egress.tracks.length).find? name' = some i := hi
  by_cases hn : name' = name
  · rw [hn, Table.find?_insert_self] at hi
    cases hi
    exact Nat.lt_of_lt_of_eq (Nat.lt_succ_self _) hlen.symm
  · rw [Table.find?_insert_of_ne _ _ hn] at hi
    exact (hs.setEgress hle).outbounds name' i hi

theorem Routed.writeOutbound (hs : s.Routed) (name : String) (p : Rtp.Packet) : (s.writeOutbound name p).1.Routed := by
  unfold Session.writeOutbound
  split
  · exact hs
  · exact hs.setEgress (Nat.le_of_eq (congrArg List.length (Egress.tracks_write _ _ _)).symm)

theorem Routed.performOutbound (hs : s.Routed) (c : OutboundCommand) : (s.performOutbound c).1.Routed := by
  cases c with
  | add name ssrc id streamId payloadType writer =>
    have h := hs.addOutbound name (.static { ssrc, id, streamId, payloadType, writer })
    exact ⟨h.hub, h.outbounds, h.forwarders⟩
  | addRefusing name ssrc cause => exact hs.addOutbound name _
  | info name =>
    simp only [Session.performOutbound]
    split <;> exact hs
  | describe name => exact hs
  | bind name writer | unbind name =>
    simp only [Session.performOutbound]
    split
    · exact hs.setEgress (by simp [Egress.bind])
    · exact hs
  | write name p => exact hs.writeOutbound name p
  | writeDatagram name d =>
    simp only [Session.performOutbound]
    split
    · exact hs
    · split
      · exact hs
      · exact hs.writeOutbound name _
  | setWriter name closed failing => exact hs.setEgress (Nat.le_refl _)
  | setFeedbackFailing failing => exact ⟨hs.hub.of_eq rfl rfl, hs.outbounds, hs.forwarders⟩

theorem Routed.perform (hs : s.Routed) {c : Command} (hc : ∀ n, c ≠ .advance n) : (s.perform c).1.Routed := by
  have d := (deed_of_perform (s := s) hc).routed hs
  cases c with
  | reading c => exact hs.of_sameOutside (sameOutside_performRead c) d
  | receiver c => exact hs.of_sameOutside (sameOutside_performReceiver c) d
  | token c => exact hs.of_sameOutside (sameOutside_performToken c) d
  | transport c => exact hs.of_sameOutside (sameOutside_performTransport c) d
  | outbound c => exact hs.performOutbound c
  | relay c =>
    rcases s.performRelay_cases c with ⟨ho, -⟩ | ⟨name, map, rfl⟩ | ⟨name, rid, p, -, he⟩
      | ⟨name, rid, p, f, rfl, hf⟩
    · exact hs.of_sameOutside ho d
    · refine ⟨hs.hub, hs.outbounds, fun name' f hf => ?_⟩
      have hf : (s.forwarders.insert name (s.route map)).find? name' = some f := hf
      by_cases hn : name' = name
      · rw [hn, Table.find?_insert_self] at hf
        cases hf
        exact within_route hs.outbounds map
      · rw [Table.find?_insert_of_ne _ _ hn] at hf
        exact hs.forwarders name' f hf
    · show (s.performRelay c).1.Routed
      rw [he]
      exact hs
    · show (s.performRelay _).1.Routed
      rw [performRelay_forward hf]
      exact hs.setEgress (Nat.le_of_eq (congrArg List.length (Egress.tracks_forward _ _ _ _)).symm)
  | advance n => exact absurd rfl (hc n)
  | unknown => exact hs

theorem routed_invariant : Invariant fun s _ => s.Routed where
  move s _ t g hs hm := by
    obtain ⟨ht, hm⟩ := Hub.of_mover? hm
    have m := Hub.move_of_move? hm
    have htracks : g.egress.tracks.length = s.hub.egress.tracks.length := congrArg List.length m.tracks
    exact ⟨htracks ▸ hs.hub.move ht m, fun name i hi => htracks ▸ hs.outbounds name i hi,
      fun name f hf => htracks ▸ hs.forwarders name f hf⟩
  clock _ _ _ hs := ⟨hs.hub.of_eq rfl rfl, hs.outbounds, hs.forwarders⟩
  command _ _ _ hs hc := hs.perform hc
  shown _ _ hs := ⟨hs.hub, hs.outbounds, hs.forwarders⟩

theorem routed_new (settings : Settings) (kind : Kind) : (new settings kind).Routed where
  hub := ⟨fun r hr => (by cases hr), fun t ht => (by cases ht)⟩
  outbounds _ _ h := by cases h
  forwarders _ _ h := by cases h

/-- In every state that a session comes to the tracks that it knows are there. -/
theorem routed_after (settings : Settings) (kind : Kind) (cs : List Command) : ((new settings kind).after cs).Routed :=
  @Invariant.after _ routed_invariant cs _ [] (routed_new settings kind)

end Session

end MediaRelay
