import MediaRelay.Proofs.Ownership

/-!
# Where tasks come from

- `Hub.TasksFrom`: the tasks of a hub are those of an earlier one, and new ones; a relay starts its pumps once;
- `startRelay_cases`: a relay that starts has a pump for every layer, and so never starts again;
- `Move.tasksFrom`: so it is with every move, and no task but the one that moves goes away;
- `Move.starts`: a relay that has not been started stays so in a move, or it starts.
-/

namespace MediaRelay

/-- What an announcement turns into is plain; all other tasks keep their jobs. -/
def Job.KeptBy (j k : Job) : Prop :=
  k = j ∨ k.isPlain = true ∧ ∃ rids, j = .announce rids

/-- Whether a task is the pump of a relay for a layer. -/
def Task.isPumpOf (t : Task) (relay : Nat) (rid : String) : Bool :=
  match t.job with
  | .pump p => p.relay = some relay && p.rid = rid
  | _ => false

namespace Hub

variable {h g : Hub} {t : Task} {relay : Nat} {rid : String}

theorem isPumpOf_iff : t.isPumpOf relay rid = true ↔ ∃ p, t.job = .pump p ∧ p.relay = some relay ∧ p.rid = rid := by
  unfold Task.isPumpOf
  cases hj : t.job with
  | pump p => simp
  | _ => simp

/-- Whether the pump of a relay's layer runs. -/
def HasPump (h : Hub) (relay : Nat) (rid : String) : Prop :=
  ∃ t ∈ h.tasks, t.isPumpOf relay rid = true

/-- A relay has not been started, if there is one of the number. -/
def Unstarted (h : Hub) (relay : Nat) : Prop :=
  ∀ r, h.relays[relay]? = some r → r.started = false

/-- The tasks of a hub are those of an earlier one, and new ones; relays start pumps once. -/
structure TasksFrom (h g : Hub) : Prop where
  next : h.nextTask ≤ g.nextTask
  origin : ∀ u ∈ g.tasks, (∃ v ∈ h.tasks, v.id = u.id ∧ v.job.KeptBy u.job)
    ∨ (h.nextTask ≤ u.id ∧ ∀ p j, u.job = .pump p → p.relay = some j → h.Unstarted j)

theorem TasksFrom.of_subset (hn : h.nextTask ≤ g.nextTask)
    (hs : ∀ u ∈ g.tasks, ∃ v ∈ h.tasks, v.id = u.id ∧ v.job.KeptBy u.job) : h.TasksFrom g :=
  ⟨hn, fun u hu => .inl (hs u hu)⟩

theorem TasksFrom.of_tasks_eq (htasks : g.tasks = h.tasks) (hnext : g.nextTask = h.nextTask) : h.TasksFrom g :=
  .of_subset (Nat.le_of_eq hnext.symm) fun u hu => ⟨u, htasks ▸ hu, rfl, .inl rfl⟩

theorem TasksFrom.refl (h : Hub) : h.TasksFrom h :=
  .of_tasks_eq rfl rfl

/-- A task is started, and no relay started it. -/
theorem TasksFrom.spawn {k : Hub} {job : Job} (htasks : k.tasks = h.tasks) (hnext : k.nextTask = h.nextTask)
    (hj : ∀ p, job = .pump p → p.relay = none) : h.TasksFrom (k.spawn job) := by
  refine ⟨hnext ▸ Nat.le_succ _, fun u hu => ?_⟩
  rcases List.mem_append.mp hu with hu | hu
  · exact .inl ⟨u, htasks ▸ hu, rfl, .inl rfl⟩
  · rw [List.mem_singleton.mp hu]
    refine .inr ⟨Nat.le_of_eq hnext.symm, fun p j hp hr => ?_⟩
    rw [hj p hp] at hr
    cases hr

/-- What the tasks that a relay starts are. -/
structure Starts (h g : Hub) (index : Nat) (rids : List String) (new : List Task) : Prop where
  tasks : g.tasks = h.tasks ++ new
  next : h.nextTask ≤ g.nextTask
  ids : ∀ u ∈ new, h.nextTask ≤ u.id
  pumps : ∀ u ∈ new, ∀ p, u.job = .pump p → p.relay = some index
  each : ∀ rid ∈ rids, ∃ u ∈ new, u.isPumpOf index rid = true
  relays : g.relays = h.relays
  cancelled : g.tokens.cancelled = h.tokens.cancelled

theorem starts_startLayer (h : Hub) (index : Nat) (r : Relay) (rid : String) :
    ∃ new, h.Starts (h.startLayer index r rid) index [rid] new := by
  have each : ∀ {u : Task} {f : Forwarder} {k : Token}, u.job = .pump ⟨rid, f, k, some index⟩ →
      u.isPumpOf index rid = true := by
    intro u f k hj
    exact isPumpOf_iff.mpr ⟨_, hj, rfl, rfl⟩
  unfold startLayer
  dsimp only
  split
  · refine ⟨[_, _], (List.append_assoc _ _ _).trans rfl, ?_, ?_, ?_, ?_, rfl, rfl⟩
    · exact Nat.le_add_right _ 2
    · intro u hu
      rcases List.mem_cons.mp hu with rfl | hu
      · exact Nat.le_refl _
      · rw [List.mem_singleton.mp hu]
        exact Nat.le_succ _
    · intro u hu p hj
      rcases List.mem_cons.mp hu with rfl | hu
      · cases hj
      · rw [List.mem_singleton.mp hu] at hj
        cases hj
        rfl
    · intro rid' hr
      rw [List.mem_singleton.mp hr]
      exact ⟨_, List.mem_cons_of_mem _ (List.mem_singleton.mpr rfl), each rfl⟩
  · refine ⟨[_], rfl, Nat.le_succ _, ?_, ?_, ?_, rfl, rfl⟩
    · intro u hu
      obtain rfl := List.mem_singleton.mp hu
      exact Nat.le_refl _
    · intro u hu p hj
      rw [List.mem_singleton.mp hu] at hj
      cases hj
      rfl
    · intro rid' hr
      rw [List.mem_singleton.mp hr]
      exact ⟨_, List.mem_singleton.mpr rfl, each rfl⟩

theorem starts_startLayers (h : Hub) (index : Nat) (r : Relay) (rids : List String) :
    ∃ new, h.Starts (rids.foldl (fun g rid => g.startLayer index r rid) h) index rids new := by
  induction rids generalizing h with
  | nil =>
    refine ⟨[], (List.append_nil _).symm, Nat.le_refl _, ?_, ?_, ?_, rfl, rfl⟩ <;> intro x hx <;> cases hx
  | cons rid rids ih =>
    obtain ⟨new₁, s₁⟩ := h.starts_startLayer index r rid
    obtain ⟨new₂, s₂⟩ := ih (h.startLayer index r rid)
    refine ⟨new₁ ++ new₂, ?_, Nat.le_trans s₁.next s₂.next, ?_, ?_, ?_, s₂.relays.trans s₁.relays,
      s₂.cancelled.trans s₁.cancelled⟩
    · rw [List.foldl_cons, s₂.tasks, s₁.tasks, List.append_assoc]
    · intro u hu
      rcases List.mem_append.mp hu with hu | hu
      · exact s₁.ids u hu
      · exact Nat.le_trans s₁.next (s₂.ids u hu)
    · intro u hu
      rcases List.mem_append.mp hu with hu | hu
      · exact s₁.pumps u hu
      · exact s₂.pumps u hu
    · intro rid' hr
      rcases List.mem_cons.mp hr with rfl | hr
      · obtain ⟨u, hu, hp⟩ := s₁.each rid' (List.mem_singleton.mpr rfl)
        exact ⟨u, List.mem_append_left _ hu, hp⟩
      · obtain ⟨u, hu, hp⟩ := s₂.each rid' hr
        exact ⟨u, List.mem_append_right _ hu, hp⟩

/-- What starting a relay comes to: nothing, or it counts as started but is cancelled, or its tasks start. -/
theorem startRelay_cases (h : Hub) (index : Nat) (rids : List String) :
    (h.startRelay index rids).1 = h
      ∨ ∃ r, h.relays[index]? = some r ∧ r.started = false
        ∧ (h.startRelay index rids).1.relays = h.relays.modify index (fun r => { r with started := true })
        ∧ (h.startRelay index rids).1.tokens.cancelled = h.tokens.cancelled
        ∧ (h.isCancelled r.token = true ∧ (h.startRelay index rids).1.tasks = h.tasks
            ∧ (h.startRelay index rids).1.nextTask = h.nextTask
          ∨ ∃ new, Starts { h with relays := h.relays.modify index fun r => { r with started := true } }
              (h.startRelay index rids).1 index rids new) := by
  unfold startRelay
  cases hr : h.relays[index]? with
  | none => exact .inl rfl
  | some r =>
    dsimp only
    cases hs : r.started with
    | true => exact .inl rfl
    | false =>
      refine .inr ⟨r, rfl, hs, ?_⟩
      simp only [Bool.false_eq_true, if_false]
      split
      · next hc => exact ⟨rfl, rfl, .inl ⟨hc, rfl, rfl⟩⟩
      · obtain ⟨new, hn⟩ := starts_startLayers
          { h with relays := h.relays.modify index fun r => { r with started := true } } index r rids
        exact ⟨hn.relays, hn.cancelled, .inr ⟨new, hn⟩⟩

theorem tasksFrom_startRelay (h : Hub) (index : Nat) (rids : List String) :
    h.TasksFrom (h.startRelay index rids).1 ∧ ∀ u ∈ h.tasks, u ∈ (h.startRelay index rids).1.tasks := by
  rcases h.startRelay_cases index rids with he | ⟨r, hr, hs, -, -, ⟨-, ht, hn⟩ | ⟨new, hn⟩⟩
  · rw [he]
    exact ⟨.of_subset (Nat.le_refl _) fun u hu => ⟨u, hu, rfl, .inl rfl⟩, fun u hu => hu⟩
  · rw [ht]
    refine ⟨.of_subset (Nat.le_of_eq hn.symm) fun u hu => ?_, fun u hu => hu⟩
    rw [ht] at hu
    exact ⟨u, hu, rfl, .inl rfl⟩
  · have ht := hn.tasks
    refine ⟨⟨hn.next, fun u hu => ?_⟩, fun u hu => ?_⟩
    · rw [ht] at hu
      rcases List.mem_append.mp hu with hu | hu
      · exact .inl ⟨u, hu, rfl, .inl rfl⟩
      · refine .inr ⟨hn.ids u hu, fun p j hj hp r' hr' => ?_⟩
        rw [hn.pumps u hu p hj] at hp
        cases hp
        rw [hr] at hr'
        cases hr'
        exact hs
    · rw [ht]
      exact List.mem_append_left _ hu

/-- Where tasks come from in a move, and which stay. -/
theorem Move.tasksFrom (ht : t ∈ h.tasks) (m : Move h t g) :
    h.TasksFrom g ∧ ∀ u ∈ h.others t.id, u ∈ g.tasks := by
  have old : ∀ u ∈ h.others t.id, ∃ v ∈ h.tasks, v.id = u.id ∧ v.job.KeptBy u.job :=
    fun u hu => ⟨u, (Owned.mem_others.mp hu).1, rfl, .inl rfl⟩
  have gone : ∀ {k : Hub}, k.tasks = h.others t.id → k.nextTask = h.nextTask →
      h.TasksFrom k ∧ ∀ u ∈ h.others t.id, u ∈ k.tasks := by
    intro k hk hn
    refine ⟨.of_subset (Nat.le_of_eq hn.symm) ?_, ?_⟩ <;> rw [hk]
    · exact old
    · exact fun u hu => hu
  have back : ∀ {k : Hub} {v : Task}, k.tasks = h.others t.id ++ [v] → k.nextTask = h.nextTask → v.id = t.id →
      t.job.KeptBy v.job → h.TasksFrom k ∧ ∀ u ∈ h.others t.id, u ∈ k.tasks := by
    intro k v hk hn hv hj
    refine ⟨.of_subset (Nat.le_of_eq hn.symm) ?_, ?_⟩ <;> rw [hk]
    · intro u hu
      rcases List.mem_append.mp hu with hu | hu
      · exact old u hu
      · rw [List.mem_singleton.mp hu]
        exact ⟨t, ht, hv.symm, hj⟩
    · exact fun u hu => List.mem_append_left _ hu
  have front : ∀ {k : Hub} {v : Task}, k.tasks = v :: h.others t.id → k.nextTask = h.nextTask → v.id = t.id →
      t.job.KeptBy v.job → h.TasksFrom k ∧ ∀ u ∈ h.others t.id, u ∈ k.tasks := by
    intro k v hk hn hv hj
    refine ⟨.of_subset (Nat.le_of_eq hn.symm) ?_, ?_⟩ <;> rw [hk]
    · intro u hu
      rcases List.mem_cons.mp hu with rfl | hu
      · exact ⟨t, ht, hv.symm, hj⟩
      · exact old u hu
    · exact fun u hu => List.mem_cons_of_mem _ hu
  have fail : ∀ (k : Hub) (p : Pump) (cause : Error), k.tasks = h.tasks → k.nextTask = h.nextTask →
      h.TasksFrom (k.failPump t p cause) ∧ ∀ u ∈ h.others t.id, u ∈ (k.failPump t p cause).tasks := by
    intro k p cause hk hn
    unfold failPump
    split
    · exact gone (congrArg (List.filter _) hk) hn
    · exact gone (congrArg (List.filter _) hk) hn
  cases m with
  | park | round | begin => exact back rfl rfl rfl (.inl rfl)
  | forward => exact front rfl rfl rfl (.inl rfl)
  | read | cease | expire => exact gone rfl rfl
  | refuse | fail | unrouted => exact fail _ _ _ rfl rfl
  | greet =>
    unfold greeted
    split <;> exact gone rfl rfl
  | announce hj =>
    unfold Hub.announce
    split
    · exact gone rfl rfl
    · next index _ =>
      obtain ⟨hf, hk⟩ := (h.dismiss t).tasksFrom_startRelay index _
      refine ⟨⟨hf.next, fun u hu => ?_⟩, hk⟩
      exact (hf.origin u hu).imp (fun ⟨v, hv, hvu⟩ => ⟨v, (Owned.mem_others.mp hv).1, hvu⟩) id
    · dsimp only
      split
      · exact front rfl rfl rfl (.inr ⟨rfl, _, hj⟩)
      · exact gone rfl rfl

/-! ## Relays that have not been started -/

theorem unstarted_of_modify {rs : List Relay} {index : Nat} {f : Relay → Relay} (hg : g.relays = rs.modify index f)
    (hf : ∀ r, index = relay → (f r).started = r.started) (hu : ∀ r, rs[relay]? = some r → r.started = false) :
    g.Unstarted relay := by
  intro r hr
  rw [hg, List.getElem?_modify] at hr
  obtain ⟨r₀, hr₀, rfl⟩ := Option.map_eq_some_iff.mp hr
  split
  · next he => rw [hf r₀ he, hu r₀ hr₀]
  · exact hu r₀ hr₀

theorem unstarted_startRelay {index : Nat} (hi : index ≠ relay) (hu : h.Unstarted relay) (rids : List String) :
    (h.startRelay index rids).1.Unstarted relay := by
  rcases h.startRelay_cases index rids with he | ⟨r, -, -, hrel, -⟩
  · rw [he]
    exact hu
  · exact unstarted_of_modify hrel (fun _ he => absurd he hi) hu

theorem unstarted_failPump (hu : h.Unstarted relay) (p : Pump) (cause : Error) :
    (h.failPump t p cause).Unstarted relay := by
  unfold failPump
  split
  · exact hu
  · exact unstarted_of_modify rfl (fun _ _ => rfl) hu

/-- A relay that has not been started stays so in a move, unless a track is announced to it. -/
theorem Move.starts (m : Move h t g) (hu : h.Unstarted relay) :
    g.Unstarted relay ∨ ∃ rids, t.job = .announce rids ∧ g = ((h.dismiss t).startRelay relay rids).1 := by
  cases m with
  | refuse | fail | unrouted =>
    refine .inl (unstarted_failPump ?_ _ _)
    exact hu
  | @announce rids hj =>
    unfold Hub.announce
    split
    · exact .inl hu
    · next index _ =>
      by_cases hi : index = relay
      · exact .inr ⟨rids, hj, by rw [hi]⟩
      · refine .inl (unstarted_startRelay hi ?_ rids)
        exact hu
    · dsimp only
      split <;> exact .inl hu
  | greet =>
    unfold greeted
    split <;> exact .inl hu
  | _ => exact .inl hu

end Hub

end MediaRelay
