import MediaRelay.Proofs.Routes

/-!
# Commands side by side

A `Side` is what one layer has to itself. Commands about nothing else (`Side.owns`) do not matter to sessions that agree
in a view of another layer (`Agree.perform_left`). All other commands keep such sessions in agreement, if the entries of
that one layer are left out of maps (`Side.trim`, `Agree.perform`).
-/

namespace MediaRelay

/-! ## Sides -/

/-- What a layer has to itself: its RID, the SSRC of its media stream, and names of outbound tracks and writers. -/
structure Side where
  rid : String
  ssrc : Ssrc
  tracks : List String
  writers : List String

namespace Side

/-- Whether a command is about nothing but the media stream, the outbound tracks and the writers of a side. -/
def owns (a : Side) : Command → Bool
  | .transport (.pushMedia ssrc _) | .transport (.push .media ssrc _) | .transport (.close .media ssrc)
  | .transport (.read .media ssrc _) => ssrc = a.ssrc
  | .outbound (.add name _ _ _ _ _) | .outbound (.addRefusing name _ _) | .outbound (.info name)
  | .outbound (.describe name) | .outbound (.bind name _) | .outbound (.unbind name) | .outbound (.write name _)
  | .outbound (.writeDatagram name _) => name ∈ a.tracks
  | .outbound (.setWriter name _ _) => name ∈ a.writers
  | _ => false

/-- A map without the entries of the side's own layer. -/
def trimMap (a : Side) (map : List (String × String)) : List (String × String) :=
  map.filter fun e => e.1 ≠ a.rid

/-- A command without the entries of the side's own layer. -/
def trim (a : Side) : Command → Command
  | .relay (.add name map) => .relay (.add name (a.trimMap map))
  | .relay (.addForwarder name map) => .relay (.addForwarder name (a.trimMap map))
  | c => c

/-- What is left of a run when nothing is done on a side. -/
def purge (a : Side) (cs : List Command) : List Command :=
  (cs.filter fun c => ¬ a.owns c).map a.trim

/-- Whether a command keeps layers away from a side: their packets do not go to tracks of the side, and other tracks
are not bound to its writers. -/
def spares (a : Side) (rids : String → Bool) : Command → Bool
  | .relay (.add _ map) | .relay (.addForwarder _ map) => ∀ e ∈ map, rids e.1 = true → e.2 ∉ a.tracks
  | .outbound (.add name _ _ _ _ (some writer)) | .outbound (.bind name writer) =>
    name ∉ a.tracks → writer ∉ a.writers
  | _ => true

/-- A view looks at nothing of a side. -/
structure Away (a : Side) (v : View) : Prop where
  rid : v.rids a.rid = false
  ssrc : ¬ v.Sees .media a.ssrc
  tracks : v.tracks = a.tracks
  writers : v.writers = a.writers

end Side

namespace Session

variable {v : View} {l : Links} {s s' : Session}

/-! ## Names -/

namespace NamesAgree

variable {t u : Table String Nat} {m n m' n' : Nat} {name : String}

/-- There are more tracks. -/
theorem mono (h : NamesAgree v l t u m n) (hm : m ≤ m') (hn : n ≤ n') : NamesAgree v l t u m' n' := by
  refine ⟨h.seen, fun name hv i hi => ?_, fun name hv j hj => ?_⟩
  · exact ⟨Nat.lt_of_lt_of_le (h.left name hv i hi).1 hm, (h.left name hv i hi).2⟩
  · exact ⟨Nat.lt_of_lt_of_le (h.right name hv j hj).1 hn, (h.right name hv j hj).2⟩

/-- A track that is not looked at gets its name. -/
theorem insert_left (h : NamesAgree v l t u m n) (hv : name ∈ v.tracks) (hm : m < m') (hl : ∀ j, ¬ l.Rel m j) :
    NamesAgree v l (t.insert name m) u m' n := by
  refine ⟨fun name' hn => ?_, fun name' hn i hi => ?_, h.right⟩
  · have hne : name' ≠ name := fun he => hn (he ▸ hv)
    rw [Table.find?_insert_of_ne _ _ hne]
    exact h.seen name' hn
  · by_cases he : name' = name
    · rw [he, Table.find?_insert_self] at hi
      cases hi
      exact ⟨hm, hl⟩
    · rw [Table.find?_insert_of_ne _ _ he] at hi
      exact (h.mono (Nat.le_of_lt hm) (Nat.le_refl n)).left name' hn i hi

/-- One more track on both sides does not change what names stand for. -/
theorem add (h : NamesAgree v l t u m n) (hm : m < m') (hn : n < n') {hl : ∀ j, ¬ l.Rel m j}
    {hl' : ∀ i, ¬ l.Rel i n} : NamesAgree v (l.add hl hl') t u m' n' := by
  refine ⟨fun name hv => ?_, fun name hv i hi => ?_, fun name hv j hj => ?_⟩
  · rcases rel_cases (h.seen name hv) with ⟨ht, hu⟩ | ⟨i, j, ht, hu, hij⟩ <;> rw [ht, hu]
    · exact .none
    · exact .some (.inl hij)
  · obtain ⟨hlt, hi⟩ := h.left name hv i hi
    refine ⟨Nat.lt_trans hlt hm, fun j hij => ?_⟩
    rcases hij with hij | ⟨rfl, -⟩
    · exact hi j hij
    · exact Nat.lt_irrefl _ hlt
  · obtain ⟨hlt, hj⟩ := h.right name hv j hj
    refine ⟨Nat.lt_trans hlt hn, fun i hij => ?_⟩
    rcases hij with hij | ⟨-, rfl⟩
    · exact hj i hij
    · exact Nat.lt_irrefl _ hlt

/-- Linked tracks get the same name. -/
theorem insert (h : NamesAgree v l t u m' n') (hv : name ∉ v.tracks) {i j : Nat} (hij : l.Rel i j) :
    NamesAgree v l (t.insert name i) (u.insert name j) m' n' := by
  have other : ∀ name' ∈ v.tracks, name' ≠ name := fun name' hn he => hv (he ▸ hn)
  refine ⟨fun name' hn => ?_, fun name' hn i' hi => ?_, fun name' hn j' hj => ?_⟩
  · exact Table.rel_find?_insert (h.seen name' hn) name hij
  · rw [Table.find?_insert_of_ne _ _ (other name' hn)] at hi
    exact h.left name' hn i' hi
  · rw [Table.find?_insert_of_ne _ _ (other name' hn)] at hj
    exact h.right name' hn j' hj

end NamesAgree

/-- A static track that has a name has a number. -/
theorem of_static? {name : String} {i : Nat} {t : StaticTrack} (h : s.static? name = some (i, t)) :
    s.statics.find? name = some i ∧ s.hub.egress.tracks[i]? = some (.static t) := by
  unfold static? at h
  cases hn : s.statics.find? name with
  | none => rw [hn] at h; cases h
  | some j =>
    cases ht : s.hub.egress.tracks[j]? with
    | none => simp [hn, ht] at h
    | some o =>
      cases o with
      | refusing ssrc cause => simp [hn, ht] at h
      | static t' =>
        simp only [hn, ht, Option.bind_eq_bind, Option.bind_some, Option.some.injEq, Prod.mk.injEq] at h
        obtain ⟨rfl, rfl⟩ := h
        exact ⟨rfl, ht⟩

/-- Names of static tracks that are looked at stand for linked tracks. -/
theorem Agree.static? (ha : s.Agree v l s') {name : String} (hv : name ∉ v.tracks) :
    Option.Rel (fun x y => l.Rel x.1 y.1) (s.static? name) (s'.static? name) := by
  unfold Session.static?
  rcases rel_cases (ha.statics.seen name hv) with ⟨hi, hj⟩ | ⟨i, j, hi, hj, hl⟩
  · rw [hi, hj]
    exact .none
  · obtain ⟨o, ho, ho', -⟩ := ha.hub.egress.track i j hl
    simp only [hi, hj, ho, ho', Option.bind_eq_bind, Option.bind_some]
    cases o with
    | static t => exact .some hl
    | refusing ssrc cause => exact .none

/-! ## Commands about a side only -/

section Left

variable (ha : s.Agree v l s')

include ha

theorem Agree.setTransport_left {t : QueueTransport} (ht : t.Agree v s'.hub.transport) :
    (s.setHub { s.hub with transport := t }).Agree v l s' :=
  { ha with hub := { ha.hub with transport := ht } }

/-- Outbound tracks change that are not looked at. -/
theorem Agree.setEgress_left {e : Egress} (he : e.Agree v l s'.hub.egress)
    (ht : e.tracks.length = s.hub.egress.tracks.length) : (s.setHub { s.hub with egress := e }).Agree v l s' :=
  { ha with
    hub := { ha.hub with egress := he }
    outbounds := by
      show NamesAgree v l s.outbounds s'.outbounds e.tracks.length _
      rw [ht]
      exact ha.outbounds
    statics := by
      show NamesAgree v l s.statics s'.statics e.tracks.length _
      rw [ht]
      exact ha.statics }

/-- A track is added that is not looked at. -/
theorem Agree.addOutbound_left {name : String} (hv : name ∈ v.tracks) (o : Outbound) :
    (s.addOutbound name o).1.Agree v l s' := by
  have hlen : s.hub.egress.tracks.length < (s.hub.egress.addTrack o).tracks.length := by simp [Egress.addTrack]
  exact { ha with
    hub := { ha.hub with egress := ha.hub.egress.addTrack_left o }
    outbounds := ha.outbounds.insert_left hv hlen ha.hub.egress.next_left
    statics := ha.statics.mono (Nat.le_of_lt hlen) (Nat.le_refl _) }

theorem Agree.writeOutbound_left (name : String) (p : Rtp.Packet) : (s.writeOutbound name p).1.Agree v l s' := by
  unfold writeOutbound
  split
  · exact ha
  · next i hi =>
    exact ha.setEgress_left (ha.hub.egress.write_left i p) (congrArg _ (s.hub.egress.tracks_write i p))

theorem Agree.writeDatagram_left (name : String) (d : Datagram) :
    (s.performOutbound (.writeDatagram name d)).1.Agree v l s' := by
  simp only [performOutbound]
  split
  · exact ha
  · split
    · exact ha
    · exact ha.writeOutbound_left name _

theorem Agree.bind_left {name : String} (hv : name ∈ v.tracks) {i : Nat} {t : StaticTrack}
    (hs : s.static? name = some (i, t)) (writer : Option String) :
    (s.setHub { s.hub with egress := s.hub.egress.bind i writer }).Agree v l s' :=
  ha.setEgress_left (ha.hub.egress.bind_left (ha.statics.left name hv i (of_static? hs).1).2 writer)
    (List.length_modify ..)

/-- A command about a side does not matter where nothing of the side is looked at. -/
theorem Agree.perform_left {a : Side} (haw : a.Away v) {c : Command} (hc : a.owns c = true) :
    (s.perform c).1.Agree v l s' := by
  have hssrc : ∀ {ssrc : Ssrc}, decide (ssrc = a.ssrc) = true → ¬ v.Sees .media ssrc := fun he => by
    rw [of_decide_eq_true he]
    exact haw.ssrc
  have hname : ∀ {name : String}, decide (name ∈ a.tracks) = true → name ∈ v.tracks := fun hn => by
    rw [haw.tracks]
    exact of_decide_eq_true hn
  cases c with
  | transport c =>
    cases c with
    | pushMedia ssrc p =>
      apply ha.setTransport_left
      unfold QueueTransport.pushMedia
      split
      · exact ha.hub.transport
      · exact ha.hub.transport.push_left (hssrc hc) _
    | push ch ssrc d =>
      cases ch with
      | media => exact ha.setTransport_left (ha.hub.transport.push_left (hssrc hc) d)
      | control => cases hc
    | close ch ssrc =>
      cases ch with
      | media => exact ha.setTransport_left (ha.hub.transport.close_left (hssrc hc))
      | control => cases hc
    | read ch ssrc n =>
      cases ch with
      | media => exact ha.setTransport_left (ha.hub.transport.readStream_left (hssrc hc) n)
      | control => cases hc
    | _ => cases hc
  | outbound c =>
    cases c with
    | add name ssrc id streamId payloadType writer =>
      have hadd := ha.addOutbound_left (hname hc) (.static { ssrc, id, streamId, payloadType, writer })
      have hlen : s.hub.egress.tracks.length < (s.hub.egress.addTrack (.static
        { ssrc, id, streamId, payloadType, writer })).tracks.length := by simp [Egress.addTrack]
      exact { hadd with statics := ha.statics.insert_left (hname hc) hlen ha.hub.egress.next_left }
    | addRefusing name ssrc cause => exact ha.addOutbound_left (hname hc) _
    | info name | describe name =>
      simp only [perform, performOutbound]
      try split
      all_goals exact ha
    | bind name writer | unbind name =>
      simp only [perform, performOutbound]
      split
      · next hs => exact ha.bind_left (hname hc) hs _
      · exact ha
    | write name p => exact ha.writeOutbound_left name p
    | writeDatagram name d => exact ha.writeDatagram_left name d
    | setWriter name closed failing =>
      have hw : name ∈ v.writers := by
        rw [haw.writers]
        exact of_decide_eq_true hc
      exact ha.setEgress_left (ha.hub.egress.setWriter_left hw _) rfl
    | setFeedbackFailing failing => cases hc
  | _ => cases hc

end Left

/-! ## Commands on both sides -/

namespace TaskNamesAgree

variable {t u : Table String TaskName} {h g : Hub}

theorem insert (ha : TaskNamesAgree v t u h g) (name : String) (x : TaskName) :
    TaskNamesAgree v (t.insert name x) (u.insert name x) h g := by
  intro name'
  by_cases he : name' = name
  · rw [he, Table.find?_insert_self, Table.find?_insert_self]
    exact .inl rfl
  · rw [Table.find?_insert_of_ne _ _ he, Table.find?_insert_of_ne _ _ he]
    exact ha name'

/-- Tasks may go. -/
theorem of_subset (ha : TaskNamesAgree v t u h g) {k m : Hub} (hh : k.tasks ⊆ h.tasks) (hg : m.tasks ⊆ g.tasks) :
    TaskNamesAgree v t u k m := fun name =>
  (ha name).imp id fun hu => ⟨fun id hid t ht => hu.1 id hid t (hh ht), fun id hid t ht => hu.2 id hid t (hg ht)⟩

theorem erase (ha : TaskNamesAgree v t u h g) (name : String) : TaskNamesAgree v (t.erase name) (u.erase name) h g := by
  intro name'
  by_cases he : name' = name
  · rw [he, Table.find?_erase_self, Table.find?_erase_self]
    exact .inl rfl
  · rw [Table.find?_erase_of_ne _ he, Table.find?_erase_of_ne _ he]
    exact ha name'

/-- A name is forgotten on one side that stands for no task that is looked at. -/
theorem erase_left (ha : TaskNamesAgree v t u h g) {name : String} (hu : g.Unseen v (u.find? name)) :
    TaskNamesAgree v (t.erase name) u h g := by
  intro name'
  by_cases he : name' = name
  · rw [he, Table.find?_erase_self]
    exact .inr ⟨fun id hid => (by cases hid), hu⟩
  · rw [Table.find?_erase_of_ne _ he]
    exact ha name'

end TaskNamesAgree

/-! ## Entries of maps -/

theorem find?_hop_of_ne (s : Session) (routes : Table String Nat) {e : String × String} {rid : String}
    (hr : rid ≠ e.1) : (s.hop routes e).find? rid = routes.find? rid := by
  unfold Session.hop
  cases s.outbounds.find? e.2 with
  | none => rfl
  | some i => exact Table.find?_insert_of_ne _ _ hr

/-- An entry for a layer that is not looked at may be on either side. -/
theorem find?_hop_unseen (s : Session) (routes : Table String Nat) {e : String × String} (he : v.rids e.1 = false)
    {rid : String} (hr : v.rids rid = true) : (s.hop routes e).find? rid = routes.find? rid := by
  refine s.find?_hop_of_ne routes fun h => ?_
  rw [h, he] at hr
  cases hr

section Both

variable (ha : s.Agree v l s')

include ha

/-- The hubs change, but for tasks and the number of tracks. -/
theorem Agree.setHub {g g' : Hub} (hub : g.Agree v l s.tokens g')
    (ht : g.egress.tracks.length = s.hub.egress.tracks.length)
    (ht' : g'.egress.tracks.length = s'.hub.egress.tracks.length) (hn : g.tasks = s.hub.tasks)
    (hn' : g'.tasks = s'.hub.tasks) : (s.setHub g).Agree v l (s'.setHub g') where
  hub := hub
  tokens := ha.tokens
  relays := ha.relays
  forwarders := ha.forwarders
  outbounds := ha.outbounds.mono (Nat.le_of_eq ht.symm) (Nat.le_of_eq ht'.symm)
  statics := ha.statics.mono (Nat.le_of_eq ht.symm) (Nat.le_of_eq ht'.symm)
  tasks := ha.tasks.of_subset (hn ▸ List.Subset.refl _) (hn' ▸ List.Subset.refl _)

theorem Agree.setTransport {t u : QueueTransport} (ht : t.Agree v u) :
    (s.setHub { s.hub with transport := t }).Agree v l (s'.setHub { s'.hub with transport := u }) :=
  ha.setHub (ha.hub.setTransport ht) rfl rfl rfl rfl

theorem Agree.setReceiver (r : Receiver Ssrc) {t u : QueueTransport} (ht : t.Agree v u) :
    (s.setHub { s.hub with receiver := r, transport := t }).Agree v l
      (s'.setHub { s'.hub with receiver := r, transport := u }) :=
  ha.setHub { ha.hub with receiver := rfl, transport := ht } rfl rfl rfl rfl

theorem Agree.setEgress {e e' : Egress} (he : e.Agree v l e') (ht : e.tracks.length = s.hub.egress.tracks.length)
    (ht' : e'.tracks.length = s'.hub.egress.tracks.length) :
    (s.setHub { s.hub with egress := e }).Agree v l (s'.setHub { s'.hub with egress := e' }) :=
  ha.setHub { ha.hub with egress := he } ht ht' rfl rfl

/-- A task is started under a name. -/
theorem Agree.spawn (hn : s.TasksNamed) (hn' : s'.TasksNamed) (name : String) {j k : Job} (hj : j.Agree v l k)
    (hp : ∀ p, j = .pump p → p.relay = none)
    (hk : ∀ token, j.token? = some token →
      ∀ n ∈ token.ids, (n ∈ s.hub.tokens.cancelled ↔ n ∈ s'.hub.tokens.cancelled)) :
    (s.spawn name j).Agree v l (s'.spawn name k) := by
  have hp' : ∀ p, k = .pump p → p.relay = none := by
    intro p he
    subst he
    cases hj with
    | pump rid token relay hf =>
      have hr : relay = none := hp _ rfl
      exact hr
  have hub := ha.of_hub hn hn' (ha.hub.spawn hj hk) rfl rfl (.spawn rfl rfl hp) (.spawn rfl rfl hp')
  have htasks := hub.tasks.insert name (.running s.hub.nextTask)
  exact { hub with
    tasks := by
      show TaskNamesAgree v (s.tasks.insert name _) (s'.tasks.insert name (.running s'.hub.nextTask)) _ _
      rw [← ha.hub.nextTask]
      exact htasks }

/-! ## Reads -/

theorem Agree.refuseRead (q : Read) : s.refuseRead q = s'.refuseRead q := by
  unfold Session.refuseRead
  rw [ha.hub.receiver, ha.hub.held]

/-- Reads come to the same if they are looked at. -/
theorem Agree.performRead_read (hf : v.Fits s.hub) (q : Read) :
    (s.performRead (.read q)).1.Agree v l (s'.performRead (.read q)).1
      ∧ (q.isSeen v = true → (s.performRead (.read q)).2 = (s'.performRead (.read q)).2) := by
  simp only [performRead]
  rw [← ha.refuseRead q]
  split
  · exact ⟨ha, fun _ => rfl⟩
  · cases hq : q.isSeen v with
    | true =>
      obtain ⟨t, u, p, hr, hr', htu⟩ := ha.hub.read hf hq
      rw [hr, hr']
      exact ⟨ha.setTransport htu, fun _ => rfl⟩
    | false =>
      have hread := ha.hub.read_left hf hq
      rw [ha.tokens] at hread
      have hread' := (hread.symm.read_left (hf.agree ha.hub) hq).symm
      obtain ⟨t, ht, -⟩ := s.hub.read_transport q
      obtain ⟨u, hu, -⟩ := s'.hub.read_transport q
      rw [ht, hu] at hread'
      refine ⟨?_, fun h => absurd h (by decide)⟩
      dsimp only
      rw [ht, hu]
      exact ha.setTransport hread'.transport

/-- Two read commands ask about a task, or drop it. -/
def AsksAfter (name : String) (c : ReadCommand) : Prop :=
  c = .poll name ∨ c = .abort name

omit ha in
/-- What asking after a task comes to, or dropping it: nothing, or a name is forgotten, and its task is dropped. -/
theorem of_asksAfter {name : String} {c : ReadCommand} (hc : AsksAfter name c) (s : Session) :
    (s.performRead c).1 = s
      ∨ (∃ why, s.tasks.find? name = some (.refused why)) ∧ (s.performRead c).1 = { s with tasks := s.tasks.erase name }
      ∨ ∃ id, s.tasks.find? name = some (.running id)
        ∧ (s.performRead c).1 = { s with hub := s.hub.abort id, tasks := s.tasks.erase name } := by
  rcases hc with rfl | rfl <;> simp only [performRead]
  · split
    · exact .inl rfl
    · next why hn => exact .inr (.inl ⟨⟨why, hn⟩, rfl⟩)
    · next id hn =>
      split
      · exact .inl rfl
      · exact .inr (.inr ⟨id, hn, rfl⟩)
  · split
    · exact .inl rfl
    · next why hn => exact .inr (.inl ⟨⟨why, hn⟩, rfl⟩)
    · next id hn => exact .inr (.inr ⟨id, hn, rfl⟩)

/-- To ask after a task that is not looked at does not matter. -/
theorem Agree.asksAfter_left {name : String} {c : ReadCommand} (hc : AsksAfter name c)
    (hu : s.hub.Unseen v (s.tasks.find? name)) (hu' : s'.hub.Unseen v (s'.tasks.find? name)) :
    (s.performRead c).1.Agree v l s'
      ∧ (s.performRead c).1.hub.Unseen v ((s.performRead c).1.tasks.find? name) := by
  have forgotten : ∀ h : Hub, h.Unseen v ((s.tasks.erase name).find? name) := by
    intro h id hid
    rw [Table.find?_erase_self] at hid
    cases hid
  rcases of_asksAfter hc s with he | ⟨-, he⟩ | ⟨id, hid, he⟩ <;> rw [he]
  · exact ⟨ha, hu⟩
  · exact ⟨{ ha with tasks := ha.tasks.erase_left hu' }, forgotten _⟩
  · have hub := ha.hub.others_left fun t ht he => hu id hid t ht he
    have htasks := ha.tasks.of_subset (k := s.hub.abort id) (fun t ht => (Owned.mem_others.mp ht).1)
      (List.Subset.refl _)
    exact ⟨{ ha with hub := { hub with }, tasks := htasks.erase_left hu' }, forgotten _⟩

/-- What one side looks at behind a name the other does, if the name stands for the same. -/
theorem Agree.unseen {x : Option TaskName} (hu : s.hub.Unseen v x) : s'.hub.Unseen v x := by
  intro id hid t ht he
  cases hs : t.job.isSeen v with
  | false => rfl
  | true =>
    obtain ⟨u, hu', hsu, htu⟩ := ha.hub.tasks.symm.exists_right ht hs
    rw [hu id hid u hu' (htu.id.symm.trans he)] at hsu
    cases hsu

/-- To ask after a task comes to the same on both sides, if it is looked at. -/
theorem Agree.asksAfter (hd : s.hub.Tidy) (hd' : s'.hub.Tidy) {name : String} {c : ReadCommand}
    (hc : AsksAfter name c) : (s.performRead c).1.Agree v l (s'.performRead c).1 := by
  have both : s.hub.Unseen v (s.tasks.find? name) → s'.hub.Unseen v (s'.tasks.find? name) →
      (s.performRead c).1.Agree v l (s'.performRead c).1 := by
    intro hu hu'
    obtain ⟨ha', hu⟩ := ha.asksAfter_left hc hu hu'
    exact (ha'.symm.asksAfter_left hc hu' hu).1.symm
  rcases ha.tasks name with heq | ⟨hu, hu'⟩
  · by_cases hu : s.hub.Unseen v (s.tasks.find? name)
    · exact both hu (heq ▸ ha.unseen hu)
    · -- the name stands for a task that runs on both sides
      unfold Hub.Unseen at hu
      push Not at hu
      obtain ⟨id, hid, t, ht, rfl, hs⟩ := hu
      obtain ⟨u, hu, -, htu⟩ := ha.hub.tasks.exists_right ht (by simpa using hs)
      have hid' : s'.tasks.find? name = some (.running t.id) := heq ▸ hid
      rcases hc with rfl | rfl <;> simp only [performRead] <;> rw [hid, hid'] <;> dsimp only
      · rw [hd.ending ht, htu.id, hd'.ending hu]
        exact ha
      · have htasks := ha.tasks.of_subset (k := s.hub.abort t.id) (m := s'.hub.abort t.id)
          (fun t ht => (Owned.mem_others.mp ht).1) fun t ht => (Owned.mem_others.mp ht).1
        exact { ha with hub := { ha.hub.others t.id with }, tasks := htasks.erase name }
  · exact both hu hu'

/-- Reads and commands about running reads keep sessions in agreement. -/
theorem Agree.performRead (hf : v.Fits s.hub) (hd : s.hub.Tidy) (hd' : s'.hub.Tidy) (hn : s.TasksNamed)
    (hn' : s'.TasksNamed) (c : ReadCommand) : (s.performRead c).1.Agree v l (s'.performRead c).1 := by
  cases c with
  | read q => exact (ha.performRead_read hf q).1
  | spawn name q =>
    cases q with
    | none => exact ha
    | some q =>
      simp only [Session.performRead]
      rw [← ha.refuseRead q]
      split
      · exact ha.spawn hn hn' name (.read q) (by intro p hp; cases hp) (by intro k hk; cases hk)
      · exact { ha with tasks := ha.tasks.insert name _ }
  | poll name => exact ha.asksAfter hd hd' (.inl rfl)
  | abort name => exact ha.asksAfter hd hd' (.inr rfl)

/-! ## The receiver, tokens and the far side -/

/-- Commands to a receiver that the application holds keep sessions in agreement. -/
theorem Agree.performReceiver (hf : v.Fits s.hub) (hn : s.TasksNamed) (hn' : s'.TasksNamed) (c : ReceiverCommand) :
    (s.performReceiver c).1.Agree v l (s'.performReceiver c).1 := by
  have hh : s'.hub.held = true := ha.hub.held.symm.trans hf.held
  unfold Session.performReceiver
  rw [if_pos hf.held, if_pos hh]
  cases c with
  | receive es =>
    obtain ⟨hr, hsame⟩ := (QueueTransport.Agree.alike v).receive ha.hub.transport s.hub.receiver es
    have hs := ha.setReceiver (s.hub.receiver.receive s.hub.transport es).1 hsame.fst
    simp only [performHeld, Session.receive]
    rw [← ha.hub.receiver, ← hr, ← hsame.snd]
    cases (s.hub.receiver.receive s.hub.transport es).2.2 with
    | error e => exact hs
    | ok ls =>
      apply hs.of_hub hn hn' (hs.hub.spawn (.announce _) (by intro k hk; cases hk)) rfl rfl
      · exact .spawn rfl rfl (by intro p hp; cases hp)
      · exact .spawn rfl rfl (by intro p hp; cases hp)
  | bind rid ssrc =>
    obtain ⟨hr, hsame⟩ := (QueueTransport.Agree.alike v).bind ha.hub.transport s.hub.receiver rid ssrc
    simp only [performHeld]
    rw [← ha.hub.receiver, ← hr]
    exact ha.setReceiver _ hsame.fst
  | stop =>
    obtain ⟨hr, hsame⟩ := (QueueTransport.Agree.alike v).stop ha.hub.transport s.hub.receiver
    simp only [performHeld]
    rw [← ha.hub.receiver, ← hr]
    exact ha.setReceiver _ hsame.fst
  | onTrack name reads => exact ha.setHub { ha.hub with handler := rfl } rfl rfl rfl rfl
  | drop => exact ha.setHub { ha.hub with held := rfl } rfl rfl rfl rfl
  | layerOfSsrc ssrc =>
    simp only [performHeld]
    rw [← ha.hub.receiver]
    split <;> exact ha
  | _ => exact ha

/-- The next token is taken on both sides, and gets a name. -/
theorem Agree.takeToken (hh : s.hub.Fresh) (hh' : s'.hub.Fresh) (name : String) (ofReceiver : Bool) :
    Agree v l
      { s with hub := { s.hub with tokens := { s.hub.tokens with next := s.hub.tokens.next + 1 } }
               tokens := s.tokens.insert name ⟨[s.hub.tokens.next], ofReceiver⟩ }
      { s' with hub := { s'.hub with tokens := { s'.hub.tokens with next := s'.hub.tokens.next + 1 } }
                tokens := s'.tokens.insert name ⟨[s'.hub.tokens.next], ofReceiver⟩ } := by
  have hub := ha.hub.take.name name (k := ⟨[s.hub.tokens.next], ofReceiver⟩) fun n hn => by
    rw [List.mem_singleton.mp hn]
    exact ha.hub.next_cancelled hh hh'
  exact { ha with
    hub := hub
    tokens := by
      dsimp only
      rw [← ha.tokens, ← ha.hub.next] }

theorem Agree.performToken (hh : s.hub.Fresh) (hh' : s'.hub.Fresh) (c : TokenCommand) :
    (s.performToken c).1.Agree v l (s'.performToken c).1 := by
  cases c with
  | take name =>
    have hheld : (s'.hub.held = true) = (s.hub.held = true) := by rw [ha.hub.held]
    simp only [Session.performToken, hheld]
    split
    · exact ha.takeToken hh hh' name true
    · exact ha
  | state name =>
    simp only [Session.performToken]
    rw [← ha.tokens]
    split <;> exact ha
  | cancel name =>
    simp only [Session.performToken]
    rw [← ha.tokens]
    split
    · exact ha.setHub (ha.hub.cancel _) rfl rfl rfl rfl
    · exact ha

theorem Agree.performTransport (c : TransportCommand) :
    (s.performTransport c).1.Agree v l (s'.performTransport c).1 := by
  have ht := ha.hub.transport
  cases c with
  | refuseOpen ch ssrc => exact ha.setTransport (ht.refuseOpen ch ssrc)
  | refuseClose ch ssrc b => exact ha.setTransport (ht.refuseClose ch ssrc b)
  | pushMedia ssrc p =>
    apply ha.setTransport
    unfold QueueTransport.pushMedia
    split
    · exact ht
    · exact ht.push .media ssrc _
  | pushControl ssrc ps =>
    apply ha.setTransport
    unfold QueueTransport.pushControl
    split
    · exact ht
    · exact ht.push .control ssrc _
  | push ch ssrc d => exact ha.setTransport (ht.push ch ssrc d)
  | close ch ssrc => exact ha.setTransport (ht.close ch ssrc)
  | info ch ssrc => exact ha
  | read ch ssrc n => exact ha.setTransport (ht.readStream ch ssrc n)

/-! ## Outbound tracks -/

/-- A track is added on both sides that is looked at. -/
theorem Agree.addOutbound {name : String} (hv : name ∉ v.tracks) {o : Outbound}
    (ho : ∀ w, o.writer? = some w → w ∉ v.writers) :
    Agree v (l.add ha.hub.egress.next_left ha.hub.egress.next_right) (s.addOutbound name o).1
      (s'.addOutbound name o).1 := by
  have hlen : ∀ e : Egress, e.tracks.length < (e.addTrack o).tracks.length := by simp [Egress.addTrack]
  refine ⟨ha.hub.addTrack ho, ha.tokens, ha.relays, fun name' => ?_, ?_, ?_, ha.tasks⟩
  · show Option.Rel (Forwarder.Agree v (l.add _ _)) (s.forwarders.find? name') (s'.forwarders.find? name')
    rcases rel_cases (ha.forwarders name') with ⟨hf, hg⟩ | ⟨f, g, hf, hg, hfg⟩ <;> rw [hf, hg]
    · exact .none
    · exact .some (hfg.mono fun _ _ => .inl)
  · exact (ha.outbounds.add (hlen _) (hlen _)).insert hv (.inr ⟨rfl, rfl⟩)
  · exact ha.statics.add (hlen _) (hlen _)

theorem Agree.writeOutbound (name : String) (p : Rtp.Packet) :
    (s.writeOutbound name p).1.Agree v l (s'.writeOutbound name p).1 :=
  ((ha.writeOutbound_left name p).symm.writeOutbound_left name p).symm

theorem Agree.bind {name : String} (hv : name ∉ v.tracks) (writer : Option String)
    (hw : ∀ w, writer = some w → w ∉ v.writers) {α : Type} (r r' : α) :
    Agree v l
      (match s.static? name with
        | some (i, _) => (s.setHub { s.hub with egress := s.hub.egress.bind i writer }, r)
        | none => (s, r')).1
      (match s'.static? name with
        | some (i, _) => (s'.setHub { s'.hub with egress := s'.hub.egress.bind i writer }, r)
        | none => (s', r')).1 := by
  rcases rel_cases (ha.static? hv) with ⟨hi, hj⟩ | ⟨x, y, hi, hj, hl⟩ <;> rw [hi, hj]
  · exact ha
  · exact ha.setEgress (ha.hub.egress.bind hl hw) (List.length_modify ..) (List.length_modify ..)

/-- Commands about outbound tracks that are looked at keep sessions in agreement. -/
theorem Agree.performOutbound {a : Side} (haw : a.Away v) {c : OutboundCommand} (hc : a.owns (.outbound c) = false)
    (hs : a.spares v.rids (.outbound c) = true) :
    ∃ l', (s.performOutbound c).1.Agree v l' (s'.performOutbound c).1 := by
  have hname : ∀ {name : String}, decide (name ∈ a.tracks) = false → name ∉ v.tracks := fun hn => by
    rw [haw.tracks]
    exact of_decide_eq_false hn
  have hwriter : ∀ {name w : String}, decide (name ∉ a.tracks → w ∉ a.writers) = true → name ∉ v.tracks →
      w ∉ v.writers := fun hw hn => by
    rw [haw.tracks] at hn
    rw [haw.writers]
    exact of_decide_eq_true hw hn
  cases c with
  | add name ssrc id streamId payloadType writer =>
    have hv := hname hc
    have ho : ∀ w, (Outbound.static { ssrc, id, streamId, payloadType, writer }).writer? = some w → w ∉ v.writers := by
      rintro w rfl
      exact hwriter hs hv
    have hadd := ha.addOutbound hv ho
    have hlen : ∀ e : Egress, e.tracks.length < (e.addTrack (.static
        { ssrc, id, streamId, payloadType, writer })).tracks.length := by simp [Egress.addTrack]
    exact ⟨_, { hadd with statics := (ha.statics.add (hlen _) (hlen _)).insert hv (.inr ⟨rfl, rfl⟩) }⟩
  | addRefusing name ssrc cause => exact ⟨_, ha.addOutbound (hname hc) (by intro w hw; cases hw)⟩
  | info name | describe name =>
    refine ⟨l, ?_⟩
    simp only [Session.performOutbound]
    repeat' split
    all_goals exact ha
  | bind name writer =>
    refine ⟨l, ha.bind (hname hc) (some writer) (fun w hw => ?_) _ _⟩
    cases hw
    exact hwriter hs (hname hc)
  | unbind name => exact ⟨l, ha.bind (hname hc) none (by intro w hw; cases hw) _ _⟩
  | write name p => exact ⟨l, ha.writeOutbound name p⟩
  | writeDatagram name d => exact ⟨l, ((ha.writeDatagram_left name d).symm.writeDatagram_left name d).symm⟩
  | setWriter name closed failing =>
    refine ⟨l, ha.setEgress (ha.hub.egress.setWriter name (fun hn => ?_) fun hn => ?_) rfl rfl⟩
    · exact congrArg closed.getD (ha.hub.egress.closed name hn)
    · exact congrArg failing.getD (ha.hub.egress.failing name hn)
  | setFeedbackFailing failing =>
    have hw : ControlWriter.Agree v.ssrc { s.hub.feedback with failing } { s'.hub.feedback with failing } :=
      ⟨rfl, ha.hub.feedback.batches⟩
    exact ⟨l, ha.setHub { ha.hub with feedback := hw } rfl rfl rfl rfl⟩

/-! ## Relays and forwarders -/

/-- A name stands for the same relay on both sides. -/
theorem Agree.relay? (name : String) :
    Option.Rel (fun x y => x.1 = y.1 ∧ x.2.Agree v l y.2) (s.relay? name) (s'.relay? name) := by
  unfold Session.relay?
  rw [← ha.relays]
  cases s.relays.find? name with
  | none => exact .none
  | some i =>
    simp only [Option.bind_eq_bind, Option.bind_some]
    rcases rel_cases (rel_getElem? ha.hub.relays i) with ⟨hr, hr'⟩ | ⟨r, r', hr, hr', hrr⟩ <;> rw [hr, hr']
    · exact .none
    · exact .some ⟨rfl, hrr⟩

theorem Agree.forwarder? (name : String) :
    Option.Rel (Forwarder.Agree v l) (s.forwarder? name) (s'.forwarder? name) := by
  unfold Session.forwarder?
  rcases rel_cases (ha.forwarders name) with ⟨hf, hf'⟩ | ⟨f, f', hf, hf', hff⟩ <;> rw [hf, hf']
  · rcases rel_cases (ha.relay? name) with ⟨hr, hr'⟩ | ⟨x, y, hr, hr', hxy⟩ <;> rw [hr, hr']
    · exact .none
    · exact .some hxy.2.forwarder
  · exact .some hff

/-- One entry on both sides leads to tracks that agree, if the track is none of those left out. -/
theorem Agree.hop {f g : Table String Nat} {e : String × String} (hn : e.2 ∉ v.tracks)
    (hfg : Forwarder.Agree v l ⟨f⟩ ⟨g⟩) : Forwarder.Agree v l ⟨s.hop f e⟩ ⟨s'.hop g e⟩ := by
  intro rid hr
  dsimp only [Session.hop]
  rcases rel_cases (ha.outbounds.seen e.2 hn) with ⟨hi, hj⟩ | ⟨i, j, hi, hj, hl⟩ <;> rw [hi, hj]
  · exact hfg rid hr
  · exact Table.rel_find?_insert (hfg rid hr) e.1 hl

/-- The entries of a map, one after another. -/
theorem Agree.hops {a : Side} (haw : a.Away v) {map : List (String × String)}
    (hs : ∀ e ∈ map, v.rids e.1 = true → e.2 ∉ a.tracks) {f g : Table String Nat}
    (hfg : Forwarder.Agree v l ⟨f⟩ ⟨g⟩) :
    Forwarder.Agree v l ⟨map.foldl s.hop f⟩ ⟨(a.trimMap map).foldl s'.hop g⟩ := by
  induction map generalizing f g with
  | nil => exact hfg
  | cons e map ih =>
    have hs' : ∀ e ∈ map, v.rids e.1 = true → e.2 ∉ a.tracks := fun e he => hs e (List.mem_cons_of_mem _ he)
    by_cases he : e.1 = a.rid
    · have hv : v.rids e.1 = false := he ▸ haw.rid
      rw [Side.trimMap, List.filter_cons_of_neg (by simpa using he)]
      apply ih hs'
      intro rid hr
      dsimp only
      rw [s.find?_hop_unseen f hv hr]
      exact hfg rid hr
    · rw [Side.trimMap, List.filter_cons_of_pos (by simpa using he)]
      apply ih hs'
      cases hv : v.rids e.1 with
      | true => exact ha.hop (haw.tracks ▸ hs e List.mem_cons_self hv) hfg
      | false =>
        intro rid hr
        dsimp only
        rw [s.find?_hop_unseen f hv hr, s'.find?_hop_unseen g hv hr]
        exact hfg rid hr

/-- Maps that spare a side give forwarders that agree, if the entries of its own layer are left out of one. -/
theorem Agree.route {a : Side} (haw : a.Away v) {map : List (String × String)}
    (hs : ∀ e ∈ map, v.rids e.1 = true → e.2 ∉ a.tracks) :
    (s.route map).Agree v l (s'.route (a.trimMap map)) := by
  rw [s.route_eq, s'.route_eq]
  exact ha.hops haw hs fun _ _ => .none

/-- A pump or scheduler is started with a token of its own. -/
theorem Agree.spawnWithToken (hn : s.TasksNamed) (hn' : s'.TasksNamed) (hh : s.hub.Fresh) (hh' : s'.hub.Fresh)
    (name : String) {j k : Token → Job} (hj : ∀ token, (j token).Agree v l (k token))
    (hp : ∀ token p, j token = .pump p → p.relay = none) (htok : ∀ token, (j token).token? = some token) :
    (s.spawnWithToken name j).1.Agree v l (s'.spawnWithToken name k).1 := by
  have htoken : s'.hub.tokens.fresh.2 = s.hub.tokens.fresh.2 := by
    unfold TokenPool.fresh
    rw [ha.hub.next]
  have hjk : (j s.hub.tokens.fresh.2).Agree v l (k s'.hub.tokens.fresh.2) := by
    rw [htoken]
    exact hj _
  apply (ha.takeToken hh hh' name false).spawn hn hn' name hjk (hp _)
  intro token ht n hm
  rw [htok, Option.some.injEq] at ht
  rw [← ht] at hm
  rw [List.mem_singleton.mp hm]
  exact ha.hub.next_cancelled hh hh'

/-- Commands about relays and forwarders keep sessions in agreement. -/
theorem Agree.performRelay {a : Side} (haw : a.Away v) (hn : s.TasksNamed) (hn' : s'.TasksNamed) (hh : s.hub.Fresh)
    (hh' : s'.hub.Fresh) {c : RelayCommand} (hs : a.spares v.rids (.relay c) = true) :
    (s.performRelay c).1.Agree v l (s'.perform (a.trim (.relay c))).1 := by
  cases c with
  | add name map =>
    have hr := ha.route haw (of_decide_eq_true hs)
    have hheld : (s'.hub.held = true) = (s.hub.held = true) := by rw [ha.hub.held]
    simp only [Session.performRelay, Side.trim, perform, hheld]
    split
    · have hub := ha.setHub (ha.hub.addRelay hh hh' hr) rfl rfl rfl rfl
      exact { hub with
        relays := by
          dsimp only
          rw [← ha.relays, ha.hub.relays.length_eq] }
    · exact ha
  | takeFailures name =>
    simp only [Session.performRelay, Side.trim, perform]
    rcases rel_cases (ha.relay? name) with ⟨hr, hr'⟩ | ⟨x, y, hr, hr', -⟩ <;> rw [hr, hr'] <;> dsimp only
    · exact ha
    · split <;> split <;> exact { ha with }
  | start name =>
    have hc : (s'.hub.held = true ∧ s'.hub.receiver.received = true)
        = (s.hub.held = true ∧ s.hub.receiver.received = true) := by rw [ha.hub.held, ha.hub.receiver]
    simp only [Session.performRelay, Side.trim, perform, hc]
    rcases rel_cases (ha.relay? name) with
      ⟨hr, hr'⟩ | ⟨⟨i, r⟩, ⟨j, r'⟩, hr, hr', hij, -⟩ <;> rw [hr, hr'] <;> dsimp only
    · exact ha
    · obtain rfl : i = j := hij
      split
      · obtain ⟨hub, -⟩ := ha.hub.startRelay hh hh' i (s.hub.receiver.layers.map Layer.rid)
        obtain ⟨he, -, -⟩ := s.hub.rest_startRelay i (s.hub.receiver.layers.map Layer.rid)
        obtain ⟨he', -, -⟩ := s'.hub.rest_startRelay i (s.hub.receiver.layers.map Layer.rid)
        rw [← ha.hub.receiver]
        exact ha.of_hub hn hn' hub (by rw [he]) (by rw [he']) (s.hub.tasksFrom_startRelay _ _).1
          (s'.hub.tasksFrom_startRelay _ _).1
      · exact ha
  | install name =>
    have hheld : (s'.hub.held = true) = (s.hub.held = true) := by rw [ha.hub.held]
    simp only [Session.performRelay, Side.trim, perform, hheld]
    rcases rel_cases (ha.relay? name) with
      ⟨hr, hr'⟩ | ⟨⟨i, r⟩, ⟨j, r'⟩, hr, hr', hij, -⟩ <;> rw [hr, hr'] <;> dsimp only
    · exact ha
    · obtain rfl : i = j := hij
      split
      · exact ha.setHub { ha.hub with handler := rfl } rfl rfl rfl rfl
      · exact ha
  | close name =>
    simp only [Session.performRelay, Side.trim, perform]
    rcases rel_cases (ha.relay? name) with
      ⟨hr, hr'⟩ | ⟨⟨i, r⟩, ⟨j, r'⟩, hr, hr', -, hrr⟩ <;> rw [hr, hr'] <;> dsimp only
    · exact ha
    · unfold Hub.closeRelay
      rw [← hrr.token]
      exact ha.setHub (ha.hub.cancel r.token) rfl rfl rfl rfl
  | state name | has name rid =>
    simp only [Session.performRelay, Side.trim, perform]
    split <;> split <;> exact ha
  | addForwarder name map =>
    have hr := ha.route haw (of_decide_eq_true hs)
    exact { ha with forwarders := fun name' => Table.rel_find?_insert (ha.forwarders name') name hr }
  | forward name rid p =>
    simp only [Session.performRelay, Side.trim, perform]
    rcases rel_cases (ha.forwarder? name) with ⟨hf, hf'⟩ | ⟨f, f', hf, hf', -⟩ <;> rw [hf, hf'] <;> dsimp only
    · exact ha
    · exact ha.setEgress (ha.hub.egress.forward f f' rid p) (congrArg _ (s.hub.egress.tracks_forward f rid p))
        (congrArg _ (s'.hub.egress.tracks_forward f' rid p))
  | startPump name rid forwarder =>
    simp only [Session.performRelay, Side.trim, perform]
    rw [← ha.hub.receiver]
    cases s.hub.receiver.layer? rid with
    | none => exact ha
    | some k =>
      rcases rel_cases (ha.forwarder? forwarder) with ⟨hf, hf'⟩ | ⟨f, f', hf, hf', hff⟩ <;> rw [hf, hf'] <;> dsimp only
      · exact ha
      · refine ha.spawnWithToken hn hn' hh hh' name (fun token => .pump rid token none hff) ?_ fun _ => rfl
        intro token p hp
        cases hp
        rfl
  | startScheduler name rid period bitrate =>
    simp only [Session.performRelay, Side.trim, perform]
    rw [← ha.hub.receiver]
    cases s.hub.receiver.layer? rid with
    | none => exact ha
    | some k =>
      refine ha.spawnWithToken hn hn' hh hh' name (fun token => .feedback _) ?_ fun _ => rfl
      intro token p hp
      cases hp
  | giveFeedback rid bitrate =>
    simp only [Session.performRelay, Side.trim, perform]
    rw [show s'.hub.receiver.layer? rid = s.hub.receiver.layer? rid by rw [ha.hub.receiver]]
    split
    · exact ha.setHub { ha.hub with feedback := ha.hub.feedback.writeRound _ _ } rfl rfl rfl rfl
    · exact ha

/-- Commands that spare a side keep sessions in agreement that look at nothing of it. -/
theorem Agree.perform {a : Side} (haw : a.Away v) (hf : v.Fits s.hub) (hd : s.hub.Tidy) (hd' : s'.hub.Tidy)
    (hp : s.Proper) (hp' : s'.Proper) {c : Command} (hadv : ∀ n, c ≠ .advance n) (hc : a.owns c = false)
    (hs : a.spares v.rids c = true) : ∃ l', (s.perform c).1.Agree v l' (s'.perform (a.trim c)).1 := by
  obtain ⟨leases, o⟩ := hp.owned
  obtain ⟨leases', o'⟩ := hp'.owned
  have hh : s.hub.Fresh := fun n hn => (o.fresh n hn).2
  have hh' : s'.hub.Fresh := fun n hn => (o'.fresh n hn).2
  cases c with
  | reading c => exact ⟨l, ha.performRead hf hd hd' hp.named hp'.named c⟩
  | receiver c => exact ⟨l, ha.performReceiver hf hp.named hp'.named c⟩
  | token c => exact ⟨l, ha.performToken hh hh' c⟩
  | transport c => exact ⟨l, ha.performTransport c⟩
  | outbound c => exact ha.performOutbound haw hc hs
  | relay c => exact ⟨l, ha.performRelay haw hp.named hp'.named hh hh' hs⟩
  | advance n => exact absurd rfl (hadv n)
  | unknown => exact ⟨l, ha⟩

end Both

end Session

end MediaRelay
