import MediaRelay.Proofs.Lockstep
import MediaRelay.Proofs.Names

/-!
# Sessions side by side

Two sessions are twins (`Session.Twins`) if they agree in a view and what was seen at one of its layers so far is the
same: the packets that were relayed for it (`relayed`) and what reads of it came to (`outcomes`), those of the first
layer's control data among them. Twins stay twins while their tasks run, each at its own pace (`Twins.run`, by
`Hub.run_both`), and while time passes (`Twins.advance`).
-/

namespace MediaRelay

/-! ## What is seen at a layer -/

/-- Whether a source may be one of a layer: it is by its name, and so is the control data of the first layer, which any
layer may be. -/
def Source.mayBeOf (rid : String) : Source → Bool
  | .media other | .control other => other = rid
  | .firstControl => true

/-- Whether a job may read from a layer. -/
def Job.readsFrom (rid : String) : Job → Bool
  | .read q => q.source.mayBeOf rid
  | .pump p => p.rid = rid
  | .greet _ other => other = rid
  | _ => false

/-- Whether a change is a move of a pump for a layer. -/
def Change.isPumpFor (x : Change) (rid : String) : Bool :=
  match x.cause with
  | .move ⟨_, .pump p, _⟩ => p.rid = rid
  | _ => false

/-- The packets of a layer that its pumps leave at a writer. -/
def relayed (past : List Change) (rid name : String) : List Rtp.Packet :=
  (past.filter (·.isPumpFor rid)).flatMap (·.wrote name)

/-- What a read can come to: the reply to it, the end of the task that reads, or what a recorder notes. -/
inductive Outcome where
  | reply (r : Reply)
  | ended (id : Nat) (e : Ending)
  | noted (e : Event)

/-- What reads come to in a change that may be reads of a layer. -/
def Change.outcomes (x : Change) (rid : String) : List Outcome :=
  match x.cause with
  | .command (.reading (.read q)) r => if q.source.mayBeOf rid then [.reply r] else []
  | .command _ _ => []
  | .move t =>
    if t.job.readsFrom rid then
      ((x.after.endings.find? t.id).map (Outcome.ended t.id)).toList
        ++ (x.after.events.drop x.before.events.length).map Outcome.noted
    else []

/-- What reads have come to that may be reads of a layer. -/
def outcomes (past : List Change) (rid : String) : List Outcome :=
  past.flatMap (·.outcomes rid)

theorem relayed_append (past new : List Change) (rid name : String) :
    relayed (past ++ new) rid name = relayed past rid name ++ relayed new rid name := by
  simp [relayed]

theorem outcomes_append (past new : List Change) (rid : String) :
    outcomes (past ++ new) rid = outcomes past rid ++ outcomes new rid := by
  simp [outcomes]

/-- Who may read from a layer that is looked at is looked at. -/
theorem Job.isSeen_of_readsFrom {v : View} {rid : String} (hv : v.rids rid = true) {j : Job}
    (hj : j.readsFrom rid = true) : j.isSeen v = true := by
  cases j with
  | read q =>
    obtain ⟨source, form⟩ := q
    cases source with
    | media rid' =>
      obtain rfl : rid' = rid := by simpa [Job.readsFrom, Source.mayBeOf] using hj
      exact hv
    | _ => rfl
  | pump p =>
    obtain rfl : p.rid = rid := by simpa [Job.readsFrom] using hj
    exact hv
  | greet name rid' =>
    obtain rfl : rid' = rid := by simpa [Job.readsFrom] using hj
    exact hv
  | feedback s => cases hj
  | announce rids => cases hj

theorem isPumpFor_move (t : Task) (h g : Hub) (rid : String) :
    (Change.mk (.move t) h g).isPumpFor rid = true → t.job.readsFrom rid = true := by
  obtain ⟨id, job, stage⟩ := t
  cases job with
  | pump p => exact fun hx => hx
  | _ => intro hx; cases hx

/-! ## Sessions that agree -/

/-- A name stands for no task that is looked at. -/
def Hub.Unseen (h : Hub) (v : View) (x : Option TaskName) : Prop :=
  ∀ id, x = some (.running id) → ∀ t ∈ h.tasks, t.id = id → t.job.isSeen v = false

/-- Tasks that come from earlier ones are seen only if those were. -/
theorem Hub.TasksFrom.unseen {v : View} {h g : Hub} (hf : h.TasksFrom g) {x : Option TaskName} (hu : h.Unseen v x)
    (hx : ∀ id, x = some (.running id) → id < h.nextTask) : g.Unseen v x := by
  intro id hid t ht he
  rcases hf.origin t ht with ⟨w, hw, hwt, hk⟩ | ⟨hle, -⟩
  · have hs := hu id hid w hw (hwt.trans he)
    rcases hk with hk | ⟨-, rids, hk⟩
    · rw [hk]
      exact hs
    · rw [hk] at hs
      cases hs
  · exact absurd (hx id hid) (Nat.not_lt.mpr (he ▸ hle))

namespace Session

/-- Names of tracks that are looked at stand for linked tracks, the others for tracks without a link. -/
structure NamesAgree (v : View) (l : Links) (t u : Table String Nat) (m n : Nat) : Prop where
  seen : ∀ name ∉ v.tracks, Option.Rel l.Rel (t.find? name) (u.find? name)
  left : ∀ name ∈ v.tracks, ∀ i, t.find? name = some i → i < m ∧ ∀ j, ¬ l.Rel i j
  right : ∀ name ∈ v.tracks, ∀ j, u.find? name = some j → j < n ∧ ∀ i, ¬ l.Rel i j

/-- Names stand for the same, or for tasks that are not looked at. -/
def TaskNamesAgree (v : View) (t u : Table String TaskName) (h g : Hub) : Prop :=
  ∀ name, t.find? name = u.find? name ∨ h.Unseen v (t.find? name) ∧ g.Unseen v (u.find? name)

/-- Sessions whose hubs agree and whose names stand for the same, but for what is not looked at. -/
structure Agree (v : View) (l : Links) (s s' : Session) : Prop where
  hub : s.hub.Agree v l s.tokens s'.hub
  tokens : s.tokens = s'.tokens
  relays : s.relays = s'.relays
  forwarders : ∀ name, Option.Rel (Forwarder.Agree v l) (s.forwarders.find? name) (s'.forwarders.find? name)
  outbounds : NamesAgree v l s.outbounds s'.outbounds s.hub.egress.tracks.length s'.hub.egress.tracks.length
  statics : NamesAgree v l s.statics s'.statics s.hub.egress.tracks.length s'.hub.egress.tracks.length
  tasks : TaskNamesAgree v s.tasks s'.tasks s.hub s'.hub

theorem NamesAgree.symm {v : View} {l : Links} {t u : Table String Nat} {m n : Nat} (h : NamesAgree v l t u m n) :
    NamesAgree v l.symm u t n m := by
  refine ⟨fun name hn => ?_, h.right, h.left⟩
  rcases rel_cases (h.seen name hn) with ⟨ht, hu⟩ | ⟨i, j, ht, hu, hl⟩ <;> rw [ht, hu]
  · exact .none
  · exact .some hl

variable {v : View} {l : Links} {s s' : Session}

theorem Agree.symm (h : s.Agree v l s') : s'.Agree v l.symm s where
  hub := h.tokens ▸ h.hub.symm
  tokens := h.tokens.symm
  relays := h.relays.symm
  forwarders name := by
    rcases rel_cases (h.forwarders name) with ⟨hf, hg⟩ | ⟨f, g, hf, hg, hl⟩ <;> rw [hf, hg]
    · exact .none
    · exact .some hl.symm
  outbounds := h.outbounds.symm
  statics := h.statics.symm
  tasks name := (h.tasks name).imp Eq.symm And.symm

/-- The hubs change, and tasks come from earlier ones. -/
theorem TaskNamesAgree.of_tasksFrom (h : TaskNamesAgree v s.tasks s'.tasks s.hub s'.hub) (hn : s.TasksNamed)
    (hn' : s'.TasksNamed) {g g' : Hub} (hf : s.hub.TasksFrom g) (hf' : s'.hub.TasksFrom g') :
    TaskNamesAgree v s.tasks s'.tasks g g' := fun name =>
  (h name).imp id fun hu =>
    ⟨hf.unseen hu.1 fun id hid => (hn name id hid).1, hf'.unseen hu.2 fun id hid => (hn' name id hid).1⟩

/-- Only the hubs change, and tasks come from earlier ones. -/
theorem Agree.of_hub (h : s.Agree v l s') (hn : s.TasksNamed) (hn' : s'.TasksNamed) {g g' : Hub}
    (ha : g.Agree v l s.tokens g') (ht : g.egress.tracks.length = s.hub.egress.tracks.length)
    (ht' : g'.egress.tracks.length = s'.hub.egress.tracks.length) (hf : s.hub.TasksFrom g)
    (hf' : s'.hub.TasksFrom g') : (s.setHub g).Agree v l (s'.setHub g') where
  hub := ha
  tokens := h.tokens
  relays := h.relays
  forwarders := h.forwarders
  outbounds := by
    show NamesAgree v l s.outbounds s'.outbounds g.egress.tracks.length g'.egress.tracks.length
    rw [ht, ht']
    exact h.outbounds
  statics := by
    show NamesAgree v l s.statics s'.statics g.egress.tracks.length g'.egress.tracks.length
    rw [ht, ht']
    exact h.statics
  tasks := h.tasks.of_tasksFrom hn hn' hf hf'

end Session

/-! ## Running side by side -/

section Lists

variable {α β γ δ : Type}

/-- What is found first among all is found first among those of a kind, if it is of that kind. -/
theorem findSome?_filter {f : α → Option β} {p : α → Bool} {q : β → Bool} (hf : ∀ a b, f a = some b → q b = p a)
    {as : List α} (hq : ∀ b, as.findSome? f = some b → q b = true) : (as.filter p).findSome? f = as.findSome? f := by
  induction as with
  | nil => rfl
  | cons a as ih =>
    rw [List.findSome?_cons] at hq ⊢
    cases ha : f a with
    | some b =>
      rw [ha] at hq
      have hp : p a = true := (hf a b ha).symm.trans (hq b rfl)
      rw [List.filter_cons_of_pos hp, List.findSome?_cons, ha]
    | none =>
      rw [ha] at hq
      rw [List.filter_cons]
      split
      · rw [List.findSome?_cons, ha]
        exact ih hq
      · exact ih hq

/-- What is found first in related lists is related. -/
theorem rel_findSome? {R : α → β → Prop} {S : γ → δ → Prop} {f : α → Option γ} {g : β → Option δ} {as : List α}
    {bs : List β} (h : List.Forall₂ R as bs) (hfg : ∀ a ∈ as, ∀ b ∈ bs, R a b → Option.Rel S (f a) (g b)) :
    Option.Rel S (as.findSome? f) (bs.findSome? g) := by
  induction h with
  | nil => exact .none
  | @cons a b as bs hab h ih =>
    rw [List.findSome?_cons, List.findSome?_cons]
    rcases rel_cases (hfg a List.mem_cons_self b List.mem_cons_self hab) with ⟨ha, hb⟩ | ⟨x, y, ha, hb, hxy⟩
    · rw [ha, hb]
      exact ih fun a' ha' b' hb' => hfg a' (List.mem_cons_of_mem _ ha') b' (List.mem_cons_of_mem _ hb')
    · rw [ha, hb]
      exact .some hxy

end Lists

/-- Two hubs run side by side until their tasks wait. Some tasks move alone when their turn comes, on the one side and
then on the other; the others move on both sides at once. -/
theorem Hub.run_both {R : Hub → List Change → Hub → List Change → Prop} (alone : Job → Bool)
    (left : ∀ {h g h' : Hub} {past past' : List Change} {t : Task}, R h past g past' → h.mover? = some (t, h') →
      alone t.job = true → R h' (past ++ [⟨.move t, h, h'⟩]) g past')
    (right : ∀ {h g g' : Hub} {past past' : List Change} {u : Task}, R h past g past' → g.mover? = some (u, g') →
      alone u.job = true → R h past g' (past' ++ [⟨.move u, g, g'⟩]))
    (both : ∀ {h g : Hub} {past past' : List Change}, R h past g past' →
      (∀ m, h.mover? = some m → alone m.1.job = false) → (∀ m, g.mover? = some m → alone m.1.job = false) →
      (h.mover? = none ∧ g.mover? = none) ∨ ∃ t u h' g', h.mover? = some (t, h') ∧ g.mover? = some (u, g')
        ∧ R h' (past ++ [⟨.move t, h, h'⟩]) g' (past' ++ [⟨.move u, g, g'⟩]))
    {h g : Hub} (past past' : List Change) (hr : R h past g past') {n n' : Nat} (hn : h.weight ≤ n)
    (hn' : g.weight ≤ n') : R (run n h) (past ++ runChanges n h) (run n' g) (past' ++ runChanges n' g) := by
  generalize hk : n + n' = k
  induction k using Nat.strongRecOn generalizing n n' h g past past' with
  | ind k ih =>
  -- a hub that has a task to go on has a move to make
  have again : ∀ {h g : Hub} {n : Nat} {t : Task}, h.weight ≤ n → h.mover? = some (t, g) →
      ∃ m, n = m + 1 ∧ g.weight ≤ m ∧ run n h = run m g ∧ runChanges n h = ⟨.move t, h, g⟩ :: runChanges m g := by
    intro h g n t hn hm
    have hs : h.step? = some g := by rw [step?_eq_mover?, hm]; rfl
    have hlt := weight_of_step? hs
    obtain ⟨m, rfl⟩ : ∃ m, n = m + 1 := ⟨n - 1, by omega⟩
    exact ⟨m, rfl, by omega, by simp only [run, hs], by simp only [runChanges, hm]⟩
  by_cases hleft : ∃ m, h.mover? = some m ∧ alone m.1.job = true
  · obtain ⟨⟨t, h'⟩, hm, hs⟩ := hleft
    obtain ⟨m, rfl, hw, hrun, hchanges⟩ := again hn hm
    have := ih (m + n') (by omega) _ _ (left hr hm hs) hw hn' rfl
    rwa [hrun, hchanges, List.append_cons]
  by_cases hright : ∃ m, g.mover? = some m ∧ alone m.1.job = true
  · obtain ⟨⟨u, g'⟩, hm, hs⟩ := hright
    obtain ⟨m, rfl, hw, hrun, hchanges⟩ := again hn' hm
    have := ih (n + m) (by omega) _ _ (right hr hm hs) hn hw rfl
    rwa [hrun, hchanges, List.append_cons]
  -- on neither side the first task to go on moves alone
  have together : ∀ {h : Hub}, (¬ ∃ m, h.mover? = some m ∧ alone m.1.job = true) →
      ∀ m, h.mover? = some m → alone m.1.job = false :=
    fun hno m hm => Bool.eq_false_iff.mpr fun hs => hno ⟨m, hm, hs⟩
  rcases both hr (together hleft) (together hright) with ⟨hm, hm'⟩ | ⟨t, u, h', g', hm, hm', hr'⟩
  · have quiet : ∀ {h : Hub}, h.mover? = none → h.step? = none := fun hm => by rw [step?_eq_mover?, hm]; rfl
    obtain ⟨hrun, hchanges⟩ := run_of_quiet (quiet hm) n
    obtain ⟨hrun', hchanges'⟩ := run_of_quiet (quiet hm') n'
    rwa [hrun, hchanges, hrun', hchanges', List.append_nil, List.append_nil]
  · obtain ⟨m, rfl, hw, hrun, hchanges⟩ := again hn hm
    obtain ⟨m', rfl, hw', hrun', hchanges'⟩ := again hn' hm'
    have := ih (m + m') (by omega) _ _ hr' hw hw' rfl
    rwa [hrun, hchanges, hrun', hchanges', List.append_cons, List.append_cons past']

/-- A hub with the same receiver is fitted as well. -/
theorem View.Fits.of_eq {v : View} {h g : Hub} (hf : v.Fits h) (hh : g.held = h.held) (hr : g.receiver = h.receiver) :
    v.Fits g := by
  obtain ⟨held, sound, named, layer⟩ := hf
  exact ⟨hh.trans held, hr ▸ sound, by rwa [hr], by rwa [hr]⟩

theorem View.Fits.agree {v : View} {l : Links} {names : Table String Token} {h g : Hub} (hf : v.Fits h)
    (ha : h.Agree v l names g) : v.Fits g :=
  hf.of_eq ha.held.symm ha.receiver.symm

/-- If no task goes on that is not looked at, then the same task goes on in both hubs. -/
theorem Hub.Agree.mover? {v : View} {l : Links} {names : Table String Token} {h g : Hub} (ha : h.Agree v l names g)
    (hf : v.Fits h) (hd : h.Tidy) (hd' : g.Tidy) (hh : h.Fresh) (hg : g.Fresh)
    (hs : ∀ m, h.mover? = some m → m.1.job.isSeen v = true) (hs' : ∀ m, g.mover? = some m → m.1.job.isSeen v = true) :
    Option.Rel (fun m m' => m.1.Agree v l m'.1 ∧ MovedAlike v l names m.1.id h g m.2 m'.2) h.mover? g.mover? := by
  have seen : ∀ (k : Hub) (t : Task) (m : Task × Hub), (k.move? t).map (t, ·) = some m →
      m.1.job.isSeen v = t.job.isSeen v := by
    intro k t m hm
    obtain ⟨k', -, rfl⟩ := Option.map_eq_some_iff.mp hm
    rfl
  unfold Hub.mover? at hs hs' ⊢
  rw [← findSome?_filter (q := fun m : Task × Hub => m.1.job.isSeen v) (p := fun t => t.job.isSeen v) (seen h) hs,
    ← findSome?_filter (q := fun m : Task × Hub => m.1.job.isSeen v) (p := fun t => t.job.isSeen v) (seen g) hs']
  apply rel_findSome? ha.tasks
  intro t ht u hu htu
  obtain ⟨ht, hst⟩ := List.mem_filter.mp ht
  have hu := (List.mem_filter.mp hu).1
  rcases rel_cases (ha.move? hf hd hd' ht hu htu hh hg hst) with ⟨hm, hm'⟩ | ⟨k, k', hm, hm', hk⟩ <;> rw [hm, hm']
  · exact .none
  · exact .some ⟨htu, hk⟩

/-! ## Twins -/

namespace Egress

theorem tracks_write (e : Egress) (i : Nat) (p : Rtp.Packet) : (e.write i p).1.tracks = e.tracks := by
  unfold Egress.write
  dsimp only
  split
  · split <;> rfl
  all_goals rfl

/-- A forwarder writes a packet or does nothing. -/
theorem forward_cases (e : Egress) (f : Forwarder) (rid : String) (p : Rtp.Packet) :
    (f.forward e rid p).1 = e ∨ ∃ track q, (f.forward e rid p).1 = (e.write track q).1 := by
  unfold Forwarder.forward
  split
  · exact .inl rfl
  · exact .inr ⟨_, _, rfl⟩

theorem tracks_forward (e : Egress) (f : Forwarder) (rid : String) (p : Rtp.Packet) :
    (f.forward e rid p).1.tracks = e.tracks := by
  rcases e.forward_cases f rid p with he | ⟨track, q, he⟩ <;> rw [he]
  exact e.tracks_write track q

end Egress

/-- A move leaves the outbound side alone, or is that of a pump which forwards a packet. -/
theorem Hub.Move.forwards {h g : Hub} {t : Task} (m : Hub.Move h t g) :
    g.egress = h.egress
      ∨ ∃ p packet, t.job = .pump p ∧ g.egress = (p.forwarder.forward h.egress p.rid packet).1 := by
  have fail : ∀ (k : Hub) (p : Pump) (cause : Error), (k.failPump t p cause).egress = k.egress :=
    fun k p cause => (k.failPump_fields t p cause).2.1
  cases m with
  | @forward p u packet e hj _ _ _ hf => exact .inr ⟨p, packet, hj, by rw [hf]; rfl⟩
  | @refuse p u packet e cause hj _ _ _ hf => exact .inr ⟨p, packet, hj, by rw [fail, hf]⟩
  | fail | unrouted =>
    rw [fail]
    exact .inl rfl
  | announce =>
    left
    unfold Hub.announce
    split
    · rfl
    · rw [((h.dismiss t).rest_startRelay _ _).1]
      rfl
    · dsimp only
      split <;> rfl
  | greet =>
    left
    unfold greeted
    split <;> rfl
  | _ => exact .inl rfl

/-- A move writes one packet at most. -/
theorem Hub.Move.egress {h g : Hub} {t : Task} (m : Hub.Move h t g) :
    g.egress = h.egress ∨ ∃ track q, g.egress = (h.egress.write track q).1 := by
  rcases m.forwards with he | ⟨p, packet, -, he⟩
  · exact .inl he
  · rw [he]
    exact h.egress.forward_cases p.forwarder p.rid packet

/-- No move adds or changes an outbound track. -/
theorem Hub.Move.tracks {h g : Hub} {t : Task} (m : Hub.Move h t g) : g.egress.tracks = h.egress.tracks := by
  rcases m.egress with he | ⟨track, q, he⟩ <;> rw [he]
  exact h.egress.tracks_write track q

namespace Session

variable {v : View} {rid : String} {s s' : Session} {past past' : List Change}

/-- Two sessions that agree in a view, and show the same at one of its layers. -/
structure Twins (v : View) (rid : String) (s : Session) (past : List Change) (s' : Session) (past' : List Change) :
    Prop where
  proper : s.Proper
  proper' : s'.Proper
  tidy : s.hub.Tidy
  tidy' : s'.hub.Tidy
  accounted : s.hub.receiver.Accounted past
  accounted' : s'.hub.receiver.Accounted past'
  agree : ∃ l, s.Agree v l s'
  relayed : ∀ name, MediaRelay.relayed past rid name = MediaRelay.relayed past' rid name
  outcomes : MediaRelay.outcomes past rid = MediaRelay.outcomes past' rid

namespace Twins

theorem symm (h : Twins v rid s past s' past') : Twins v rid s' past' s past :=
  ⟨h.proper', h.proper, h.tidy', h.tidy, h.accounted', h.accounted, h.agree.imp' Links.symm fun _ => Agree.symm,
    fun name => (h.relayed name).symm, h.outcomes.symm⟩

/-- A task moves on one side that is not looked at. -/
theorem move_left (h : Twins v rid s past s' past') (hv : v.rids rid = true) (hf : v.Fits s.hub) {t : Task} {g : Hub}
    (hm : s.hub.mover? = some (t, g)) (hs : t.job.isSeen v = false) :
    Twins v rid (s.setHub g) (past ++ [⟨.move t, s.hub, g⟩]) s' past' := by
  obtain ⟨ht, hmove⟩ := Hub.of_mover? hm
  have m := Hub.move_of_move? hmove
  obtain ⟨l, ha⟩ := h.agree
  obtain ⟨a, o⟩ := h.proper.owned
  have hread : t.job.readsFrom rid = false := by
    cases hr : t.job.readsFrom rid with
    | false => rfl
    | true => exact absurd (Job.isSeen_of_readsFrom hv hr) (by rw [hs]; exact Bool.false_ne_true)
  have hpump : (Change.mk (.move t) s.hub g).isPumpFor rid = false := by
    cases hp : (Change.mk (.move t) s.hub g).isPumpFor rid with
    | false => rfl
    | true => exact absurd (isPumpFor_move t _ _ rid hp) (by rw [hread]; exact Bool.false_ne_true)
  have hunseen := ha.of_hub h.proper.named h.proper'.named (ha.hub.move_left hf o ht hs m) (congrArg _ m.tracks)
    rfl (m.tasksFrom ht).1 (.refl _)
  refine ⟨h.proper.move hm, h.proper', h.tidy.move ht m, h.tidy', accounted_move h.accounted hm, h.accounted',
    ⟨l, hunseen⟩, fun name => ?_, ?_⟩
  · rw [relayed_append, ← h.relayed name]
    simp [MediaRelay.relayed, hpump]
  · rw [outcomes_append, ← h.outcomes]
    simp [MediaRelay.outcomes, Change.outcomes, hread]

/-- Tasks move on both sides that are looked at and agree. -/
theorem move (h : Twins v rid s past s' past') {t u : Task} {g g' : Hub}
    (hm : s.hub.mover? = some (t, g)) (hm' : s'.hub.mover? = some (u, g')) {l : Links} (ha : s.Agree v l s')
    (htu : t.Agree v l u) (hg : Hub.MovedAlike v l s.tokens t.id s.hub s'.hub g g') :
    Twins v rid (s.setHub g) (past ++ [⟨.move t, s.hub, g⟩]) (s'.setHub g') (past' ++ [⟨.move u, s'.hub, g'⟩]) := by
  obtain ⟨ht, hmove⟩ := Hub.of_mover? hm
  obtain ⟨hu, hmove'⟩ := Hub.of_mover? hm'
  have m := Hub.move_of_move? hmove
  have m' := Hub.move_of_move? hmove'
  have hread : t.job.readsFrom rid = u.job.readsFrom rid := by
    have hj := htu.job
    generalize t.job = j at hj
    generalize u.job = k at hj
    cases hj <;> rfl
  have hpump : (Change.mk (.move t) s.hub g).isPumpFor rid = (Change.mk (.move u) s'.hub g').isPumpFor rid := by
    obtain ⟨i, j, st⟩ := t
    obtain ⟨i', k, st'⟩ := u
    have hj : j.Agree v l k := htu.job
    cases hj <;> rfl
  have hwrote : ∀ name, (Change.mk (.move t) s.hub g).wrote name = (Change.mk (.move u) s'.hub g').wrote name := by
    intro name
    obtain ⟨ps, hw, hw'⟩ := hg.left.written name
    unfold Change.wrote
    dsimp only
    rw [hw, hw', List.drop_left, List.drop_left]
  have houtcomes : (Change.mk (.move t) s.hub g).outcomes rid = (Change.mk (.move u) s'.hub g').outcomes rid := by
    obtain ⟨es, he, he'⟩ := hg.left.events
    unfold Change.outcomes
    dsimp only
    rw [← hread, ← htu.id, hg.left.ending, he, he', List.drop_left, List.drop_left]
  refine ⟨h.proper.move hm, h.proper'.move hm', h.tidy.move ht m, h.tidy'.move hu m', accounted_move h.accounted hm,
    accounted_move h.accounted' hm', ⟨l, ?_⟩, fun name => ?_, ?_⟩
  · exact ha.of_hub h.proper.named h.proper'.named hg.agree (congrArg _ m.tracks) (congrArg _ m'.tracks)
      (m.tasksFrom ht).1 (m'.tasksFrom hu).1
  · rw [relayed_append, relayed_append, h.relayed name]
    unfold MediaRelay.relayed
    rw [List.filter_singleton, List.filter_singleton, hpump]
    cases (Change.mk (.move u) s'.hub g').isPumpFor rid with
    | false => rfl
    | true => simp only [cond_true, List.flatMap_singleton, hwrote]
  · rw [outcomes_append, outcomes_append, h.outcomes]
    unfold MediaRelay.outcomes
    rw [List.flatMap_singleton, List.flatMap_singleton, houtcomes]

theorem fits_right (h : Twins v rid s past s' past') (hf : v.Fits s.hub) : v.Fits s'.hub := by
  obtain ⟨l, ha⟩ := h.agree
  exact hf.agree ha.hub

/-- Both sides run until their tasks wait. -/
theorem run (h : Twins v rid s past s' past') (hv : v.rids rid = true) (hf : v.Fits s.hub) {n n' : Nat}
    (hn : s.hub.weight ≤ n) (hn' : s'.hub.weight ≤ n') :
    Twins v rid (s.setHub (Hub.run n s.hub)) (past ++ Hub.runChanges n s.hub) (s'.setHub (Hub.run n' s'.hub))
      (past' ++ Hub.runChanges n' s'.hub) := by
  have framed : ∀ {h g : Hub} {t : Task}, v.Fits h → h.mover? = some (t, g) → v.Fits g := fun hf hm => by
    have m := Hub.move_of_move? (Hub.of_mover? hm).2
    exact hf.of_eq m.framed.held m.framed.receiver
  have hrun := Hub.run_both (R := fun h past g past' => Twins v rid (s.setHub h) past (s'.setHub g) past' ∧ v.Fits h)
    (fun j => !j.isSeen v)
    (fun ⟨h, hf⟩ hm hs => ⟨h.move_left hv hf hm (by simpa using hs), framed hf hm⟩)
    (fun ⟨h, hf⟩ hm hs => ⟨(h.symm.move_left hv (h.fits_right hf) hm (by simpa using hs)).symm, hf⟩)
    (fun ⟨h, hf⟩ hs hs' => by
      obtain ⟨l, ha⟩ := h.agree
      obtain ⟨a, o⟩ := h.proper.owned
      obtain ⟨a', o'⟩ := h.proper'.owned
      rcases rel_cases (ha.hub.mover? hf h.tidy h.tidy' (fun i hi => (o.fresh i hi).2) (fun i hi => (o'.fresh i hi).2)
        (fun m hm => by simpa using hs m hm) fun m hm => by simpa using hs' m hm)
        with ⟨hm, hm'⟩ | ⟨⟨t, g⟩, ⟨u, g'⟩, hm, hm', htu, hg⟩
      · exact .inl ⟨hm, hm'⟩
      · exact .inr ⟨_, _, _, _, hm, hm', h.move hm hm' ha htu hg, framed hf hm⟩)
    past past' ⟨h, hf⟩ hn hn'
  exact hrun.1

theorem settle (h : Twins v rid s past s' past') (hv : v.rids rid = true) (hf : v.Fits s.hub) :
    Twins v rid (s.setHub s.hub.settle) (past ++ s.hub.settleChanges) (s'.setHub s'.hub.settle)
      (past' ++ s'.hub.settleChanges) :=
  h.run hv hf (Nat.le_refl _) (Nat.le_refl _)

/-- Only one side settles, and the other has nothing to do. -/
theorem settle_left (h : Twins v rid s past s' past') (hv : v.rids rid = true) (hf : v.Fits s.hub)
    (hq : s'.hub.step? = none) :
    Twins v rid (s.setHub s.hub.settle) (past ++ s.hub.settleChanges) s' past' := by
  have := h.settle hv hf
  obtain ⟨hr, hc⟩ := Hub.settle_of_quiet hq
  rw [hr, hc, List.append_nil] at this
  exact this

/-- Time passes on both sides. -/
theorem ticks (h : Twins v rid s past s' past') (hv : v.rids rid = true) (hf : v.Fits s.hub) (n : Nat) :
    Twins v rid (s.setHub (Hub.ticks n s.hub)) (past ++ Hub.ticksChanges n s.hub) (s'.setHub (Hub.ticks n s'.hub))
      (past' ++ Hub.ticksChanges n s'.hub) := by
  induction n generalizing s s' past past' with
  | zero =>
    unfold Hub.ticks Hub.ticksChanges
    rw [List.append_nil, List.append_nil]
    exact h
  | succ n ih =>
    have hc : Twins v rid (s.setHub { s.hub with clock := s.hub.clock + 1 }) past
        (s'.setHub { s'.hub with clock := s'.hub.clock + 1 }) past' := by
      obtain ⟨l, ha⟩ := h.agree
      have hub : Hub.Agree v l s.tokens { s.hub with clock := s.hub.clock + 1 }
          { s'.hub with clock := s'.hub.clock + 1 } :=
        { ha.hub with clock := congrArg (· + 1) ha.hub.clock }
      exact { h with
        proper := h.proper.clock _
        proper' := h.proper'.clock _
        tidy := h.tidy.of_eq rfl rfl rfl
        tidy' := h.tidy'.of_eq rfl rfl rfl
        agree := ⟨l, { ha with hub := hub }⟩ }
    have hs := hc.settle hv (hf.of_eq rfl rfl)
    unfold Hub.ticks Hub.ticksChanges
    rw [← List.append_assoc, ← List.append_assoc]
    exact ih hs (hf.of_eq (Hub.framed_settle _).held (Hub.framed_settle _).receiver)

theorem advance (h : Twins v rid s past s' past') (hv : v.rids rid = true) (hf : v.Fits s.hub)
    (hq : s.hub.step? = none) (hq' : s'.hub.step? = none) (n : Nat) :
    Twins v rid (s.setHub (s.hub.advance n)) (past ++ s.hub.advanceChanges n) (s'.setHub (s'.hub.advance n))
      (past' ++ s'.hub.advanceChanges n) := by
  obtain ⟨ht, hc⟩ := Hub.advance_eq_ticks hq h.tidy n
  obtain ⟨ht', hc'⟩ := Hub.advance_eq_ticks hq' h.tidy' n
  rw [ht, hc, ht', hc']
  exact h.ticks hv hf n

end Twins

end Session

end MediaRelay
