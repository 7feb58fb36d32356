import MediaRelay.Proofs.Origins

/-!
# Who owns what in a session

A session has names for tokens and for tasks of its own. In every state that a session comes to all tokens and tasks
have owners, and no name stands for a pump that a relay has started (`proper_after`).
-/

namespace MediaRelay

namespace Job

variable {j : Job}

/-- Whether a job is one that no relay runs: a pump of its own, and a token without ancestors. -/
def IsOwn (j : Job) : Prop :=
  (∀ p, j = .pump p → p.relay = none) ∧ ∀ k, j.token? = some k → k.ids.tail = []

theorem IsOwn.of_token?_eq_none (h : j.token? = none) : j.IsOwn := by
  refine ⟨?_, ?_⟩
  · rintro p rfl
    cases h
  · intro k hk
    rw [h] at hk
    cases hk

theorem token?_of_isPlain (h : j.isPlain = true) : j.token? = none := by
  cases j with
  | read | greet => rfl
  | _ => cases h

end Job

namespace Session

variable {s : Session}

/-- A receiver that has just received has the layers that are to be announced. -/
theorem announced_receive {es : List Encoding} {ls : List (Layer Ssrc)} {r : Receiver Ssrc} {t : QueueTransport}
    (hr : (r.receive t es).2.2 = .ok ls) :
    ls.map Layer.rid ≠ [] ∧ (r.receive t es).1.layers.map Layer.rid = ls.map Layer.rid := by
  rcases r.receive_cases t es with ⟨e, -, he⟩ | ⟨u, e, -, he⟩ | ⟨u, ls', hn, ho, he⟩ <;> rw [he] at hr ⊢
  · cases hr
  · cases hr
  · cases hr
    refine ⟨?_, rfl⟩
    rw [map_rid_opened ho]
    simpa using (Receiver.of_refuseReceive hn).1

theorem Deed.owned {c : Command} {g : Hub} {names : Table String Token} {a : Leases}
    (hs : s.hub.receiver.Sound) (o : Owned s.hub s.tokens a) (d : s.Deed c g names) :
    ∃ b, Owned g names b ∧ a.Grown s.hub.tokens.next b g.tokens.next := by
  cases d with
  | read q =>
    obtain ⟨u, hu, -⟩ := s.hub.read_transport q
    rw [hu]
    exact ⟨a, o.of_eq rfl rfl rfl rfl rfl, .refl _ _⟩
  | spawnRead name q => exact ⟨a, o.spawn_plain rfl, .refl _ _⟩
  | @abort c name id hn =>
    refine ⟨a, o.of_tasks (o.nodup_others id) ?_ ?_ rfl rfl rfl, .refl _ _⟩
    · exact fun u hu => o.next u (Owned.mem_others.mp hu).1
    · exact fun u hu => .inl ⟨u, (Owned.mem_others.mp hu).1, rfl, rfl⟩
  | receiveFailed => exact ⟨a, o.of_receiver (Receiver.onward_receive hs _ _) _, .refl _ _⟩
  | receive _ hr =>
    refine ⟨a, (o.of_receiver (Receiver.onward_receive hs _ _) _).spawn ?_ ?_ ?_ ?_, .refl _ _⟩
    · intro p j hj
      cases hj
    · intro p hj
      cases hj
    · intro q hj
      cases hj
    · intro rids hj
      cases hj
      exact announced_receive hr
  | bind => exact ⟨a, o.of_receiver (Receiver.onward_bind hs _ _ _) _, .refl _ _⟩
  | stop => exact ⟨a, o.of_receiver (Receiver.onward_stop hs _) _, .refl _ _⟩
  | takeToken name =>
    obtain ⟨o', ht⟩ := o.take_free
    exact ⟨a, o'.name name (ht true), .of_le _ (Nat.le_succ _)⟩
  | cancelToken hn => exact ⟨a, o.cancel_rooted (o.named _ _ hn), .refl _ _⟩
  | addRelay =>
    obtain ⟨o', ht⟩ := o.take_free
    refine ⟨a, (o'.of_relays (relaysOnward_append _ [⟨_, s.hub.tokens.ofReceiver.2, false, []⟩]) ?_).of_eq
      rfl rfl rfl rfl rfl, .of_le _ (Nat.le_succ _)⟩
    intro r hr
    rcases List.mem_append.mp hr with hr | hr
    · exact o'.relay r hr
    · rw [List.mem_singleton.mp hr]
      exact ⟨rfl, ht true⟩
  | startRelay => exact o.startRelay _ hs.rids
  | closeRelay _ hr => exact ⟨a, o.cancel_rooted (o.relay _ (List.mem_of_getElem? hr)).2, .refl _ _⟩
  | @startPump name rid forwarder l f =>
    obtain ⟨o', ht⟩ := o.take_free
    refine ⟨a, (o'.spawn ?_ ?_ ?_ ?_).name name (ht false), .of_le _ (Nat.le_succ _)⟩
    · intro p j hj hp
      cases hj
      cases hp
    · intro p hj hp
      cases hj
      exact ht false
    · intro q hj
      cases hj
    · intro rids hj
      cases hj
  | @startScheduler name rid period bitrate l =>
    obtain ⟨o', ht⟩ := o.take_free
    refine ⟨a, (o'.spawn ?_ ?_ ?_ ?_).name name (ht false), .of_le _ (Nat.le_succ _)⟩
    · intro p j hj
      cases hj
    · intro p hj
      cases hj
    · intro q hj
      cases hj
      exact .inl (ht false)
    · intro rids hj
      cases hj
  | _ => exact ⟨a, o.of_eq rfl rfl rfl rfl rfl, .refl _ _⟩

/-! ## Names of tasks -/

/-- A task that has a name is not one that a relay has started. -/
def TasksNamed (s : Session) : Prop :=
  ∀ name id, s.tasks.find? name = some (.running id) → id < s.hub.nextTask
    ∧ ∀ t ∈ s.hub.tasks, t.id = id → t.job.IsOwn

/-- A name for a task is old, or stands for a task that has just been started. -/
def NamesTask (s t : Session) : Prop :=
  ∀ name id, t.tasks.find? name = some (.running id) → s.tasks.find? name = some (.running id)
    ∨ (id = s.hub.nextTask ∧ t.hub.nextTask = s.hub.nextTask + 1
      ∧ ∃ job : Job, job.IsOwn ∧ t.hub.tasks = s.hub.tasks ++ [{ id := s.hub.nextTask, job }])

theorem namesTask_of_eq {t : Session} (h : t.tasks = s.tasks) : NamesTask s t :=
  fun _ _ hn => .inl (h ▸ hn)

theorem namesTask_erase (s : Session) (name : String) (h : Hub) :
    NamesTask s { s with hub := h, tasks := s.tasks.erase name } :=
  fun _ _ hn => .inl (Table.find?_of_erase hn)

theorem namesTask_insert {name : String} {job : Job} (hj : job.IsOwn) {t : Session}
    (ht : t.tasks = s.tasks.insert name (.running s.hub.nextTask))
    (hh : t.hub.tasks = s.hub.tasks ++ [{ id := s.hub.nextTask, job }])
    (hn : t.hub.nextTask = s.hub.nextTask + 1) : NamesTask s t := by
  intro name' id hn
  rw [ht] at hn
  by_cases he : name' = name
  · subst he
    rw [Table.find?_insert_self] at hn
    cases hn
    exact .inr ⟨rfl, hn, job, hj, hh⟩
  · rw [Table.find?_insert_of_ne _ _ he] at hn
    exact .inl hn

theorem namesTask_performRead (c : ReadCommand) : NamesTask s (s.performRead c).1 := by
  cases c with
  | read q =>
    simp only [performRead]
    split <;> exact namesTask_of_eq rfl
  | spawn name q =>
    cases q with
    | none => exact namesTask_of_eq rfl
    | some q =>
      simp only [performRead]
      split
      · exact namesTask_insert (.of_token?_eq_none rfl) rfl rfl rfl
      · intro name' id hn
        dsimp only at hn
        by_cases he : name' = name
        · rw [he, Table.find?_insert_self] at hn
          cases hn
        · rw [Table.find?_insert_of_ne _ _ he] at hn
          exact .inl hn
  | poll name =>
    simp only [performRead]
    split
    · exact namesTask_of_eq rfl
    · exact namesTask_erase s name s.hub
    · split
      · exact namesTask_of_eq rfl
      · exact namesTask_erase s name _
  | abort name =>
    simp only [performRead]
    split
    · exact namesTask_of_eq rfl
    · exact namesTask_erase s name s.hub
    · exact namesTask_erase s name _

theorem tasks_performReceiver (c : ReceiverCommand) : (s.performReceiver c).1.tasks = s.tasks := by
  have held : (s.performHeld c).1.tasks = s.tasks := by
    cases c with
    | receive es =>
      simp only [performHeld, Session.receive]
      split <;> rfl
    | layerOfSsrc ssrc =>
      simp only [performHeld]
      split <;> rfl
    | _ => rfl
  unfold performReceiver
  split
  · exact held
  · cases c with
    | drop | layer rid | describeLayer rid => exact held
    | _ => rfl

theorem tasks_performToken (c : TokenCommand) : (s.performToken c).1.tasks = s.tasks := by
  cases c <;> simp only [performToken] <;> split <;> rfl

theorem tasks_performTransport (c : TransportCommand) : (s.performTransport c).1.tasks = s.tasks := by
  cases c <;> rfl

theorem tasks_writeOutbound (name : String) (p : Rtp.Packet) : (s.writeOutbound name p).1.tasks = s.tasks := by
  unfold writeOutbound
  split <;> rfl

theorem tasks_performOutbound (c : OutboundCommand) : (s.performOutbound c).1.tasks = s.tasks := by
  cases c with
  | info name | bind name writer | unbind name =>
    simp only [performOutbound]
    split <;> rfl
  | write name p => exact tasks_writeOutbound name p
  | writeDatagram name d =>
    simp only [performOutbound]
    split
    · rfl
    · split
      · rfl
      · exact tasks_writeOutbound name _
  | _ => rfl

theorem namesTask_performRelay (c : RelayCommand) : NamesTask s (s.performRelay c).1 := by
  cases c with
  | takeFailures name =>
    simp only [performRelay]
    split
    · exact namesTask_of_eq rfl
    · split <;> exact namesTask_of_eq rfl
  | start name | install name =>
    simp only [performRelay]
    split
    · split <;> exact namesTask_of_eq rfl
    · exact namesTask_of_eq rfl
  | addForwarder name map => exact namesTask_of_eq rfl
  | startPump name rid forwarder =>
    simp only [performRelay]
    split
    · exact namesTask_insert ⟨fun p hj => by cases hj; rfl, fun k hk => by cases hk; rfl⟩ rfl rfl rfl
    · exact namesTask_of_eq rfl
  | startScheduler name rid period bitrate =>
    simp only [performRelay]
    split
    · exact namesTask_insert ⟨fun p hj => (by cases hj), fun k hk => by cases hk; rfl⟩ rfl rfl rfl
    · exact namesTask_of_eq rfl
  | _ =>
    simp only [performRelay]
    split <;> exact namesTask_of_eq rfl

theorem namesTask_perform (c : Command) : NamesTask s (s.perform c).1 := by
  cases c with
  | reading c => exact namesTask_performRead c
  | receiver c => exact namesTask_of_eq (tasks_performReceiver c)
  | token c => exact namesTask_of_eq (tasks_performToken c)
  | transport c => exact namesTask_of_eq (tasks_performTransport c)
  | outbound c => exact namesTask_of_eq (tasks_performOutbound c)
  | relay c => exact namesTask_performRelay c
  | advance n => exact namesTask_of_eq rfl
  | unknown => exact namesTask_of_eq rfl

/-! ## Runs -/

/-- Where tasks come from in a deed, and that those without a name stay. -/
theorem Deed.tasksFrom {c : Command} {g : Hub} {names : Table String Token} (d : s.Deed c g names) :
    s.hub.TasksFrom g
      ∧ ∀ t ∈ s.hub.tasks, (∀ name, s.tasks.find? name ≠ some (.running t.id)) → t ∈ g.tasks := by
  have same : ∀ {k : Hub}, k.tasks = s.hub.tasks → k.nextTask = s.hub.nextTask → s.hub.TasksFrom k
      ∧ ∀ t ∈ s.hub.tasks, (∀ name, s.tasks.find? name ≠ some (.running t.id)) → t ∈ k.tasks :=
    fun hk hn => ⟨.of_tasks_eq hk hn, fun t ht _ => hk ▸ ht⟩
  have spawn : ∀ {k : Hub} {job : Job}, k.tasks = s.hub.tasks → k.nextTask = s.hub.nextTask →
      (∀ p, job = .pump p → p.relay = none) → s.hub.TasksFrom (k.spawn job)
      ∧ ∀ t ∈ s.hub.tasks, (∀ name, s.tasks.find? name ≠ some (.running t.id)) → t ∈ (k.spawn job).tasks :=
    fun hk hn hj => ⟨.spawn hk hn hj, fun t ht _ => List.mem_append_left _ (hk ▸ ht)⟩
  cases d with
  | read q =>
    obtain ⟨u, hu, -⟩ := s.hub.read_transport q
    rw [hu]
    exact same rfl rfl
  | spawnRead name q => exact spawn rfl rfl (by intro p hj; cases hj)
  | receive => exact spawn rfl rfl (by intro p hj; cases hj)
  | startPump => exact spawn rfl rfl (by intro p hj; cases hj; rfl)
  | startScheduler => exact spawn rfl rfl (by intro p hj; cases hj)
  | @abort c name id hn =>
    refine ⟨.of_subset (Nat.le_refl _) fun u hu => ⟨u, (Owned.mem_others.mp hu).1, rfl, .inl rfl⟩, fun t ht hne => ?_⟩
    exact Owned.mem_others.mpr ⟨ht, fun e => hne name (e ▸ hn)⟩
  | startRelay =>
    obtain ⟨hf, hk⟩ := s.hub.tasksFrom_startRelay _ _
    exact ⟨hf, fun t ht _ => hk t ht⟩
  | _ => exact same rfl rfl

/-- A relay that has not been started stays so in a deed, unless it is started for the layers of the track. -/
theorem Deed.starts {c : Command} {g : Hub} {names : Table String Token} {relay : Nat} (d : s.Deed c g names)
    (hu : s.hub.Unstarted relay) :
    g.Unstarted relay ∨ s.hub.receiver.received = true
      ∧ g = (s.hub.startRelay relay (s.hub.receiver.layers.map Layer.rid)).1 := by
  cases d with
  | read q =>
    obtain ⟨u, he, -⟩ := s.hub.read_transport q
    rw [he]
    exact .inl hu
  | addRelay =>
    left
    intro r hr
    have hr : (s.hub.relays ++ [_])[relay]? = some r := hr
    rw [List.getElem?_append] at hr
    split at hr
    · exact hu r hr
    · rw [List.mem_singleton.mp (List.mem_of_getElem? hr)]
  | @startRelay name index _ _ hr =>
    by_cases hi : index = relay
    · exact .inr ⟨hr, by rw [hi]⟩
    · exact .inl (Hub.unstarted_startRelay hi hu _)
  | _ => exact .inl hu

/-- What a session has at any time: a sound receiver, owners for all tokens and tasks, and names for tasks of its
own. -/
structure Proper (s : Session) : Prop where
  sound : s.hub.receiver.Sound
  owned : ∃ a, Owned s.hub s.tokens a
  named : s.TasksNamed

theorem proper_new (settings : Settings) (kind : Kind) : (new settings kind).Proper := by
  refine ⟨Receiver.sound_new kind settings.receiverMtu, ⟨fun _ => none, ?_⟩, fun name id h => by cases h⟩
  refine ⟨List.nodup_nil, ?_, fun n _ => ⟨rfl, List.not_mem_nil⟩, ?_, ?_, ?_, ?_, ?_, ?_, ?_, ?_, ?_⟩
  · exact fun t ht => by cases ht
  · exact fun m n x hm => by cases hm
  · exact fun m j rid hm => by cases hm
  · exact fun r hr => by cases hr
  · exact fun name t ht => by cases ht
  all_goals exact fun t ht => by cases ht

/-- Names that stay the same still stand for tasks that no relay has started. -/
theorem TasksNamed.of_tasksFrom (h : s.TasksNamed) (hlt : ∀ u ∈ s.hub.tasks, u.id < s.hub.nextTask) {t : Session}
    (hf : s.hub.TasksFrom t.hub) (hn : NamesTask s t) : t.TasksNamed := by
  intro name id hid
  rcases hn name id hid with hold | ⟨rfl, hnext, job, hjob, htasks⟩
  · obtain ⟨hid, hp⟩ := h name id hold
    refine ⟨Nat.lt_of_lt_of_le hid hf.next, fun u hu hui => ?_⟩
    rcases hf.origin u hu with ⟨v, hv, hvu, hvj⟩ | ⟨hle, -⟩
    · rcases hvj with hvj | hvj
      · exact hvj ▸ hp v hv (hvu.trans hui)
      · exact .of_token?_eq_none (Job.token?_of_isPlain hvj.1)
    · rw [hui] at hle
      exact absurd hid (Nat.not_lt.mpr hle)
  · refine ⟨hnext ▸ Nat.lt_succ_self _, fun u hu hui => ?_⟩
    rw [htasks] at hu
    rcases List.mem_append.mp hu with hu | hu
    · exact absurd (hlt u hu) (Nat.not_lt.mpr (Nat.le_of_eq hui.symm))
    · rw [List.mem_singleton.mp hu]
      exact hjob

theorem Proper.move (h : s.Proper) {t : Task} {g : Hub} (hm : s.hub.mover? = some (t, g)) : (s.setHub g).Proper := by
  obtain ⟨hs, ⟨a, o⟩, hn⟩ := h
  obtain ⟨ht, hm⟩ := Hub.of_mover? hm
  have m := Hub.move_of_move? hm
  obtain ⟨b, o', -⟩ := o.move hs ht m
  refine ⟨by rw [setHub, m.framed.receiver]; exact hs, ⟨b, o'⟩, ?_⟩
  exact hn.of_tasksFrom o.next (m.tasksFrom ht).1 (namesTask_of_eq rfl)

theorem Proper.perform (h : s.Proper) {c : Command} (hc : ∀ n, c ≠ .advance n) : (s.perform c).1.Proper := by
  obtain ⟨hs, ⟨a, o⟩, hn⟩ := h
  have d := deed_of_perform (s := s) hc
  obtain ⟨b, o', -⟩ := d.owned hs o
  exact ⟨sound_perform hs hc, ⟨b, o'⟩, hn.of_tasksFrom o.next d.tasksFrom.1 (namesTask_perform c)⟩

theorem Proper.clock (h : s.Proper) (time : Nat) : (s.setHub { s.hub with clock := time }).Proper := by
  obtain ⟨hs, ⟨a, o⟩, hn⟩ := h
  exact ⟨hs, ⟨a, o.of_eq rfl rfl rfl rfl rfl⟩, hn⟩

theorem Proper.shown (h : s.Proper) : s.markShown.Proper :=
  ⟨h.sound, h.owned, h.named⟩

theorem proper_invariant : Invariant fun s _ => s.Proper where
  move _ _ _ _ h hm := h.move hm
  clock _ _ time h := h.clock time
  command _ _ _ h hc := h.perform hc
  shown _ _ h := h.shown

/-- In every state that a session comes to everything has its owner. -/
theorem proper_after (settings : Settings) (kind : Kind) (cs : List Command) : ((new settings kind).after cs).Proper :=
  @Invariant.after _ proper_invariant cs _ [] (proper_new settings kind)

end Session

end MediaRelay
