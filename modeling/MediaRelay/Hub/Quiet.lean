import MediaRelay.Hub.Settle

/-!
# Settled hubs are quiet

Every move lowers the weight of a hub (`weight_of_step?`), so `Hub.settle` makes enough moves: after it no task can
go on (`step?_settle`). The weight counts the datagrams that wait to be read (`Table.sum_insertEntry` and the
lemmas after it) and the ranks of the stages of all tasks.
-/

namespace MediaRelay

/-! ## Datagrams that wait -/

/-- What storing a value does to a sum over a table. -/
theorem Table.sum_insertEntry {κ α : Type} [DecidableEq κ] (f : α → Nat) (k : κ) (a : α) (es : List (κ × α)) :
    (Table.insertEntry k a es).foldr (fun e n => f e.2 + n) 0 + ((es.lookup k).map f).getD 0
      = es.foldr (fun e n => f e.2 + n) 0 + f a := by
  induction es with
  | nil => simp [Table.insertEntry]
  | cons e es ih =>
    obtain ⟨l, b⟩ := e
    by_cases h : l = k
    · subst h
      simp only [Table.insertEntry, if_true, List.foldr_cons, List.lookup_cons, BEq.rfl, Option.map_some,
        Option.getD_some]
      omega
    · simp only [Table.insertEntry, h, if_false, List.foldr_cons, List.lookup_cons,
        beq_false_of_ne (Ne.symm h)]
      omega

theorem QueueChannel.backlog_setStream (c : QueueChannel) (ssrc : Ssrc) (s : QueueStream) :
    (c.setStream ssrc s).backlog + (c.stream ssrc).queued.length = c.backlog + s.queued.length := by
  have h := Table.sum_insertEntry (fun s : QueueStream => s.queued.length) ssrc s c.streams.entries
  have hl : (c.stream ssrc).queued.length
      = ((c.streams.entries.lookup ssrc).map fun s : QueueStream => s.queued.length).getD 0 := by
    unfold QueueChannel.stream Table.find?
    cases c.streams.entries.lookup ssrc <;> rfl
  rw [hl]
  exact h

theorem QueueTransport.backlog_onStream {α : Type} (t : QueueTransport) (ch : Channel) (ssrc : Ssrc)
    (f : QueueStream → QueueStream × α) :
    (t.onStream ch ssrc f).1.backlog + (t.stream ch ssrc).queued.length
      = t.backlog + (f (t.stream ch ssrc)).1.queued.length := by
  have h := QueueChannel.backlog_setStream (t.channel ch) ssrc (f (t.stream ch ssrc)).1
  cases ch <;>
  · simp only [QueueTransport.onStream, QueueTransport.setChannel, QueueTransport.backlog, QueueTransport.channel,
      QueueTransport.stream] at h ⊢
    omega

theorem QueueStream.length_queued_read (s : QueueStream) (n : Nat) :
    (s.read n).1.queued.length ≤ s.queued.length := by
  unfold QueueStream.read
  split
  · exact Nat.le_refl _
  · split
    · exact Nat.le_refl _
    · simp only [QueueStream.queued, List.length_drop]
      omega

/-- A read that gives a datagram takes it. -/
theorem QueueStream.length_queued_read_ok {s : QueueStream} {n : Nat} {d : Datagram}
    (h : (s.read n).2 = .done (.ok d)) : (s.read n).1.queued.length + 1 = s.queued.length := by
  unfold QueueStream.read at h ⊢
  split at h
  · cases h
  · next hc =>
    rw [if_neg hc]
    split at h
    · cases h
    · next hq =>
      have hl := congrArg List.length hq
      simp only [QueueStream.queued, List.length_drop, List.length_cons] at hl ⊢
      omega

theorem QueueTransport.backlog_readStream (t : QueueTransport) (ch : Channel) (ssrc : Ssrc) (n : Nat) :
    (t.readStream ch ssrc n).1.backlog ≤ t.backlog := by
  have h := t.backlog_onStream ch ssrc fun s => s.read n
  have hl := (t.stream ch ssrc).length_queued_read n
  simp only [QueueTransport.readStream]
  omega

theorem QueueTransport.backlog_readStream_ok {t : QueueTransport} {ch : Channel} {ssrc : Ssrc} {n : Nat}
    {d : Datagram} (h : (t.readStream ch ssrc n).2 = .done (.ok d)) :
    (t.readStream ch ssrc n).1.backlog + 1 = t.backlog := by
  have hb := t.backlog_onStream ch ssrc fun s => s.read n
  have hl := QueueStream.length_queued_read_ok (s := t.stream ch ssrc) (n := n) (d := d) h
  simp only [QueueTransport.readStream]
  omega

/-- What a read does to the backlog of the transport. -/
theorem Receiver.backlog_read (r : Receiver Ssrc) (t : QueueTransport) (q : Read) :
    (r.read t q).1.backlog ≤ t.backlog
      ∧ ∀ d, (r.read t q).2 = .done (.ok d) → (r.read t q).1.backlog + 1 ≤ t.backlog := by
  unfold Receiver.read
  split
  · exact ⟨Nat.le_refl _, fun _ h => by cases h⟩
  · exact ⟨Nat.le_refl _, fun _ h => by cases h⟩
  · exact ⟨Nat.le_refl _, fun _ h => by cases h⟩
  · next ch s _ =>
    have hle := t.backlog_readStream ch s (q.buffer r.mtu)
    have hok := @QueueTransport.backlog_readStream_ok t ch s (q.buffer r.mtu)
    change _ ∧ _
    split <;> next hr =>
      have hr' : t.readStream ch s (q.buffer r.mtu) = _ := hr
      rw [hr'] at hle hok
      first
        | exact ⟨hle, fun _ h => by cases h⟩
        | exact ⟨hle, fun _ _ => Nat.le_of_eq (hok rfl)⟩

namespace Hub

/-- A read changes nothing but the transport. -/
theorem read_transport (h : Hub) (q : Read) :
    ∃ t, (h.read q).1 = { h with transport := t } ∧ t.backlog ≤ h.transport.backlog
      ∧ ∀ d, (h.read q).2 = .done (.ok d) → t.backlog + 1 ≤ h.transport.backlog := by
  unfold Hub.read
  split
  · exact ⟨h.transport, rfl, Nat.le_refl _, fun _ hd => by cases hd⟩
  · exact ⟨_, rfl, (h.receiver.backlog_read h.transport q)⟩

/-! ## Weights -/

theorem rank_le_stageWeight (clock : Nat) (s : Stage) : s.rank ≤ stageWeight clock s := by
  unfold stageWeight
  split
  · simp only [Stage.rank]
    split <;> omega
  · exact Nat.le_refl _

theorem one_le_rank (s : Stage) : 1 ≤ s.rank := by
  unfold Stage.rank
  split <;> omega

theorem one_le_taskWeight (clock : Nat) (t : Task) : 1 ≤ taskWeight clock t := by
  unfold taskWeight
  split
  · omega
  · exact Nat.le_trans (one_le_rank _) (rank_le_stageWeight clock _)

/-- Outside of announcements only the stage counts. -/
theorem taskWeight_eq {t : Task} (hj : ∀ rids, t.job ≠ .announce rids) (clock : Nat) :
    taskWeight clock t = stageWeight clock t.stage := by
  unfold taskWeight
  split
  · next hr => exact absurd hr (hj _)
  · rfl

theorem tasksWeight_nil (clock : Nat) : tasksWeight clock [] = 0 := rfl

theorem tasksWeight_cons (clock : Nat) (t : Task) (ts : List Task) :
    tasksWeight clock (t :: ts) = taskWeight clock t + tasksWeight clock ts := rfl

theorem tasksWeight_append (clock : Nat) (ts us : List Task) :
    tasksWeight clock (ts ++ us) = tasksWeight clock ts + tasksWeight clock us := by
  induction ts with
  | nil => exact (Nat.zero_add _).symm
  | cons t ts ih => rw [List.cons_append, tasksWeight_cons, tasksWeight_cons, ih, Nat.add_assoc]

theorem tasksWeight_filter (clock : Nat) (p : Task → Bool) (ts : List Task) :
    tasksWeight clock (ts.filter p) ≤ tasksWeight clock ts := by
  induction ts with
  | nil => exact Nat.le_refl _
  | cons t ts ih =>
    rw [List.filter_cons]
    split <;> rw [tasksWeight_cons] <;> try rw [tasksWeight_cons]
    all_goals omega

theorem tasksWeight_filter_ne {t : Task} {ts : List Task} (ht : t ∈ ts) (clock : Nat) :
    tasksWeight clock (ts.filter fun u => u.id ≠ t.id) + taskWeight clock t ≤ tasksWeight clock ts := by
  induction ts with
  | nil => cases ht
  | cons u us ih =>
    rw [List.filter_cons, tasksWeight_cons]
    rcases List.mem_cons.mp ht with rfl | ht
    · have := tasksWeight_filter clock (fun u => u.id ≠ t.id) us
      simp only [ne_eq, not_true_eq_false, decide_false, Bool.false_eq_true, if_false] at this ⊢
      omega
    · have := ih ht
      split
      · rw [tasksWeight_cons]
        omega
      · omega

/-- All other tasks weigh less by at least the weight of the task. -/
theorem tasksWeight_others {h : Hub} {t : Task} (ht : t ∈ h.tasks) (clock : Nat) :
    tasksWeight clock (h.others t.id) + taskWeight clock t ≤ tasksWeight clock h.tasks :=
  tasksWeight_filter_ne ht clock

theorem weight_eq (h : Hub) : h.weight = 5 * h.transport.backlog + tasksWeight h.clock h.tasks := rfl

/-! ## Relays that start -/

/-- What starting the tasks of one layer adds. -/
theorem startLayer_weight (g : Hub) (index : Nat) (r : Relay) (rid : String) :
    (g.startLayer index r rid).weight ≤ g.weight + 8 := by
  unfold Hub.startLayer
  dsimp only
  split <;>
  · simp only [weight_eq, Hub.spawn, tasksWeight_append, tasksWeight_cons, tasksWeight_nil]
    simp only [taskWeight, stageWeight, Stage.rank]
    omega

theorem startLayers_weight (g : Hub) (index : Nat) (r : Relay) (rids : List String) :
    (rids.foldl (fun g rid => g.startLayer index r rid) g).weight ≤ g.weight + 8 * rids.length := by
  induction rids generalizing g with
  | nil => exact Nat.le_refl _
  | cons rid rids ih =>
    have := ih (g.startLayer index r rid)
    have := g.startLayer_weight index r rid
    simp only [List.foldl_cons, List.length_cons] at *
    omega

theorem startRelay_weight (g : Hub) (index : Nat) (rids : List String) :
    (g.startRelay index rids).1.weight ≤ g.weight + 8 * rids.length := by
  unfold Hub.startRelay
  split
  · exact Nat.le_add_right _ _
  · next r _ =>
    split
    · exact Nat.le_add_right _ _
    · dsimp only
      split
      · exact Nat.le_add_right _ _
      · exact startLayers_weight _ index r rids

/-! ## Moves lower the weight -/

section Moves

variable {h h' : Hub} {t : Task} (ht : t ∈ h.tasks)

include ht

/-- Ending a task lowers the weight, whatever else happens to what has no weight. -/
theorem weight_lt_of_tasks_eq_others (hb : h'.transport.backlog ≤ h.transport.backlog) (hc : h'.clock = h.clock)
    (htasks : h'.tasks = h.others t.id) : h'.weight < h.weight := by
  have ho := tasksWeight_others ht h.clock
  have := one_le_taskWeight h.clock t
  rw [weight_eq, weight_eq, htasks, hc]
  omega

theorem weight_park? {g : Gate} (hj : ∀ rids, t.job ≠ .announce rids) (hg : ∀ time, g ≠ .deadline time)
    (hp : h.park? t g = some h') : h'.weight < h.weight := by
  unfold Hub.park? at hp
  split at hp
  · next hr =>
    cases hp
    have ho := tasksWeight_others ht h.clock
    have hw := rank_le_stageWeight h.clock t.stage
    rw [← taskWeight_eq hj] at hw
    have hn : taskWeight h.clock { t with stage := .waiting g } = (Stage.waiting g).rank := by
      rw [taskWeight_eq (t := { t with stage := .waiting g }) hj]
      cases g with
      | deadline time => exact absurd rfl (hg time)
      | _ => rfl
    rw [weight_eq, weight_eq]
    simp only [Hub.park, tasksWeight_append, tasksWeight_cons, tasksWeight_nil, hn]
    omega
  · cases hp

theorem weight_goOn? {q : Read} {finish : Hub → Except Error Data → Hub} (hj : ∀ rids, t.job ≠ .announce rids)
    (hf : ∀ u x, u.backlog ≤ h.transport.backlog → (∀ d, x = .ok d → u.backlog + 1 ≤ h.transport.backlog) →
      (finish { h with transport := u } x).weight < h.weight)
    (hm : h.goOn? t q finish = some h') : h'.weight < h.weight := by
  obtain ⟨u, hu, hle, hok⟩ := h.read_transport q
  unfold Hub.goOn? at hm
  split at hm
  · next h₁ x hr =>
    cases hm
    rw [hr] at hu hok
    cases hu
    exact hf u x hle fun d hd => hok d (by rw [hd])
  · exact weight_park? ht hj (by intro _ hc; cases hc) hm
  · exact weight_park? ht hj (by intro _ hc; cases hc) hm
  · exact weight_park? ht hj (by intro _ hc; cases hc) hm

theorem weight_failPump {u : QueueTransport} {e : Egress} {p : Pump} {c : Error}
    (hb : u.backlog ≤ h.transport.backlog) :
    (failPump { h with transport := u, egress := e } t p c).weight < h.weight := by
  unfold Hub.failPump
  split <;> exact weight_lt_of_tasks_eq_others ht hb rfl rfl

theorem weight_pumped {u : QueueTransport} {p : Pump} {x : Except Error Data} (hj : ∀ rids, t.job ≠ .announce rids)
    (hb : u.backlog ≤ h.transport.backlog) (hok : ∀ d, x = .ok d → u.backlog + 1 ≤ h.transport.backlog) :
    (pumped t p { h with transport := u } x).weight < h.weight := by
  unfold Hub.pumped
  split
  · next packet =>
    split
    · have ho := tasksWeight_others ht h.clock
      have := hok _ rfl
      have hn : taskWeight h.clock { id := t.id, job := t.job } = 4 := taskWeight_eq (t := ⟨t.id, t.job, .ready⟩) hj _
      rw [weight_eq, weight_eq]
      simp only [Hub.resume, tasksWeight_cons, hn]
      change 5 * u.backlog + (4 + tasksWeight h.clock (h.others t.id)) < _
      omega
    · exact weight_failPump ht hb
  · exact weight_failPump ht hb
  · exact weight_failPump ht hb

theorem weight_greeted {u : QueueTransport} {name : String} {x : Except Error Data}
    (hb : u.backlog ≤ h.transport.backlog) : (greeted t name { h with transport := u } x).weight < h.weight := by
  unfold Hub.greeted
  split <;> exact weight_lt_of_tasks_eq_others ht hb rfl rfl

theorem weight_movePump? {p : Pump} (hj : ∀ rids, t.job ≠ .announce rids) (hm : h.movePump? t p = some h') :
    h'.weight < h.weight := by
  unfold Hub.movePump? at hm
  split at hm
  · cases hm
    exact weight_failPump (u := h.transport) (e := h.egress) ht (Nat.le_refl _)
  · split at hm
    · cases hm
      exact weight_lt_of_tasks_eq_others ht (Nat.le_refl _) rfl rfl
    · exact weight_goOn? ht hj (fun _ _ => weight_pumped ht hj) hm

/-- A scheduler that waits for a later deadline has the least weight. -/
theorem weight_park_deadline {s : Scheduler} {f : ControlWriter} (hj : t.job = .feedback s) (hp : s.period ≠ 0)
    (hw : 2 ≤ taskWeight h.clock t) :
    (park { h with feedback := f } t (.deadline (h.clock + s.period))).weight < h.weight := by
  have ho := tasksWeight_others ht h.clock
  have hn : taskWeight h.clock { t with stage := .waiting (.deadline (h.clock + s.period)) } = 1 := by
    rw [taskWeight_eq (by intro _ hr; rw [hj] at hr; cases hr)]
    simp only [stageWeight]
    rw [if_neg (by omega)]
  rw [weight_eq, weight_eq]
  simp only [Hub.park, tasksWeight_append, tasksWeight_cons, tasksWeight_nil, hn]
  change 5 * h.transport.backlog + (tasksWeight h.clock (h.others t.id) + (1 + 0)) < _
  omega

theorem weight_moveScheduler? {s : Scheduler} (hj : t.job = .feedback s) (hm : h.moveScheduler? t s = some h') :
    h'.weight < h.weight := by
  have hw := taskWeight_eq (t := t) (by rw [hj]; intro _ hr; cases hr) h.clock
  unfold Hub.moveScheduler? at hm
  split at hm
  · cases hm
    exact weight_lt_of_tasks_eq_others ht (Nat.le_refl _) rfl rfl
  · next hc =>
    have hp : s.period ≠ 0 := fun e => hc (Or.inr e)
    split at hm
    · next time hs =>
      split at hm
      · next hd =>
        cases hm
        refine weight_park_deadline ht hj hp ?_
        exact Nat.le_of_eq (by rw [hw, hs, stageWeight, if_pos hd])
      · cases hm
    · cases hm
    · next hs =>
      cases hm
      refine weight_park_deadline (f := h.feedback) ht hj hp ?_
      rw [hw, hs]
      exact Nat.le_add_left 2 2

theorem weight_announce {rids : List String} (hj : t.job = .announce rids) :
    (h.announce t rids).weight < h.weight := by
  have ho := tasksWeight_others ht h.clock
  have hw : taskWeight h.clock t = 5 + 8 * rids.length := by simp only [taskWeight, hj]
  unfold Hub.announce
  split
  · exact weight_lt_of_tasks_eq_others ht (Nat.le_refl _) rfl rfl
  · next index _ =>
    have hs := startRelay_weight (h.dismiss t) index rids
    have hd : (h.dismiss t).weight = 5 * h.transport.backlog + tasksWeight h.clock (h.others t.id) := rfl
    rw [weight_eq h]
    omega
  · dsimp only
    split
    · rw [weight_eq, weight_eq]
      simp only [Hub.resume, tasksWeight_cons]
      change 5 * h.transport.backlog + (4 + tasksWeight h.clock (h.others t.id)) < _
      omega
    · exact weight_lt_of_tasks_eq_others ht (Nat.le_refl _) rfl rfl

theorem weight_move? (hm : h.move? t = some h') : h'.weight < h.weight := by
  unfold Hub.move? at hm
  split at hm
  · next hj =>
    refine weight_goOn? ht (by rw [hj]; intro _ hr; cases hr) (fun u x hb _ => ?_) hm
    exact weight_lt_of_tasks_eq_others ht hb rfl rfl
  · next hj => exact weight_movePump? ht (by rw [hj]; intro _ hr; cases hr) hm
  · next hj => exact weight_moveScheduler? ht hj hm
  · next hj => cases hm; exact weight_announce ht hj
  · next hj => exact weight_goOn? ht (by rw [hj]; intro _ hr; cases hr) (fun _ _ hb _ => weight_greeted ht hb) hm

end Moves

/-! ## Settled hubs are quiet -/

/-- Every move lowers the weight. -/
theorem weight_of_step? {h h' : Hub} (hs : h.step? = some h') : h'.weight < h.weight := by
  obtain ⟨t, ht, hm⟩ := List.exists_of_findSome?_eq_some hs
  exact weight_move? ht hm

/-- A hub without weight has no tasks. -/
theorem step?_of_weight_eq_zero {h : Hub} (hw : h.weight = 0) : h.step? = none := by
  cases hs : h.step? with
  | none => rfl
  | some h' =>
    have := weight_of_step? hs
    omega

theorem step?_run {n : Nat} {h : Hub} (hn : h.weight ≤ n) : (run n h).step? = none := by
  induction n generalizing h with
  | zero => exact step?_of_weight_eq_zero (Nat.le_zero.mp hn)
  | succ n ih =>
    unfold Hub.run
    split
    · next hs => exact hs
    · next h' hs => exact ih (by have := weight_of_step? hs; omega)

/-- After settling no task can go on. -/
theorem step?_settle (h : Hub) : h.settle.step? = none :=
  step?_run (Nat.le_refl _)

/-- Settling changes nothing once it has been done. -/
theorem settle_settle (h : Hub) : h.settle.settle = h.settle := by
  have hs := h.step?_settle
  generalize h.settle = g at hs
  unfold Hub.settle
  cases g.weight with
  | zero => rfl
  | succ n => simp only [Hub.run, hs]

end Hub

end MediaRelay
