import MediaRelay.Proofs.Ownership

/-!
# How time passes

- `Hub.Tidy`: only schedulers wait for deadlines, and a task that has ended is not among the tasks; every state that a
  session comes to is tidy (`tidy_after`);
- `advance_eq_ticks`: to let time pass is to let one nanosecond after the other pass, and to settle after each.
-/

namespace MediaRelay

namespace Hub

variable {h g : Hub} {t : Task}

/-! ## Tidy hubs -/

/-- Tasks are numbered as they start, only schedulers wait for deadlines, and what has ended does not run. -/
structure Tidy (h : Hub) : Prop where
  next : ∀ t ∈ h.tasks, t.id < h.nextTask
  timed : ∀ t ∈ h.tasks, ∀ time, t.stage = .waiting (.deadline time) → ∃ s, t.job = .feedback s
  ended : ∀ id e, h.endings.find? id = some e → id < h.nextTask ∧ ∀ t ∈ h.tasks, t.id ≠ id

namespace Tidy

theorem of_eq (hd : h.Tidy) (htasks : g.tasks = h.tasks) (hnext : g.nextTask = h.nextTask)
    (hendings : g.endings = h.endings) : g.Tidy := by
  obtain ⟨h₁, h₂, h₃⟩ := hd
  refine ⟨?_, ?_, ?_⟩
  · rw [htasks, hnext]
    exact h₁
  · rw [htasks]
    exact h₂
  · rw [htasks, hnext, hendings]
    exact h₃

theorem spawn (hd : h.Tidy) (job : Job) : (h.spawn job).Tidy := by
  refine ⟨fun u hu => ?_, fun u hu time hs => ?_, fun id e he => ?_⟩
  · rcases List.mem_append.mp hu with hu | hu
    · exact Nat.lt_succ_of_lt (hd.next u hu)
    · rw [List.mem_singleton.mp hu]
      exact Nat.lt_succ_self _
  · rcases List.mem_append.mp hu with hu | hu
    · exact hd.timed u hu time hs
    · rw [List.mem_singleton.mp hu] at hs
      cases hs
  · obtain ⟨hlt, hne⟩ := hd.ended id e he
    refine ⟨Nat.lt_succ_of_lt hlt, fun u hu => ?_⟩
    rcases List.mem_append.mp hu with hu | hu
    · exact hne u hu
    · rw [List.mem_singleton.mp hu]
      exact Nat.ne_of_gt hlt

/-- Tasks may go, or go on at another place. -/
theorem of_tasks (hd : h.Tidy) (ht : t ∈ h.tasks) (hnext : g.nextTask = h.nextTask)
    (hendings : g.endings = h.endings)
    (htasks : ∀ u ∈ g.tasks, u ∈ h.tasks
      ∨ u.id = t.id ∧ ∀ time, u.stage = .waiting (.deadline time) → ∃ s, u.job = .feedback s) : g.Tidy := by
  refine ⟨fun u hu => ?_, fun u hu time hs => ?_, fun id e he => ?_⟩
  · rw [hnext]
    rcases htasks u hu with hu | ⟨hu, -⟩
    · exact hd.next u hu
    · exact hu ▸ hd.next t ht
  · rcases htasks u hu with hu | ⟨-, hu⟩
    · exact hd.timed u hu time hs
    · exact hu time hs
  · rw [hendings] at he
    obtain ⟨hlt, hne⟩ := hd.ended id e he
    refine ⟨hnext ▸ hlt, fun u hu => ?_⟩
    rcases htasks u hu with hu | ⟨hu, -⟩
    · exact hne u hu
    · exact hu ▸ hne t ht

theorem dismiss (hd : h.Tidy) (t : Task) : (h.dismiss t).Tidy := by
  refine ⟨fun u hu => hd.next u (Owned.mem_others.mp hu).1, fun u hu => hd.timed u (Owned.mem_others.mp hu).1,
    fun id e he => ?_⟩
  obtain ⟨hlt, hne⟩ := hd.ended id e he
  exact ⟨hlt, fun u hu => hne u (Owned.mem_others.mp hu).1⟩

theorem retire (hd : h.Tidy) (ht : t ∈ h.tasks) (e : Ending) : (h.retire t e).Tidy := by
  refine ⟨fun u hu => hd.next u (Owned.mem_others.mp hu).1, fun u hu => hd.timed u (Owned.mem_others.mp hu).1,
    fun id e' he => ?_⟩
  have he : (h.endings.insert t.id e).find? id = some e' := he
  by_cases hi : id = t.id
  · rw [hi]
    exact ⟨hd.next t ht, fun u hu => (Owned.mem_others.mp hu).2⟩
  · rw [Table.find?_insert_of_ne _ _ hi] at he
    obtain ⟨hlt, hne⟩ := hd.ended id e' he
    exact ⟨hlt, fun u hu => hne u (Owned.mem_others.mp hu).1⟩

theorem park (hd : h.Tidy) (ht : t ∈ h.tasks) {gate : Gate}
    (hg : ∀ time, gate = .deadline time → ∃ s, t.job = .feedback s) : (h.park t gate).Tidy := by
  refine hd.of_tasks ht rfl rfl fun u hu => ?_
  rcases List.mem_append.mp hu with hu | hu
  · exact .inl (Owned.mem_others.mp hu).1
  · rw [List.mem_singleton.mp hu]
    refine .inr ⟨rfl, fun time hs => ?_⟩
    cases hs
    exact hg time rfl

theorem resume (hd : h.Tidy) (ht : t ∈ h.tasks) (job : Job) : (h.resume t job).Tidy := by
  refine hd.of_tasks ht rfl rfl fun u hu => ?_
  rcases List.mem_cons.mp hu with rfl | hu
  · exact .inr ⟨rfl, by intro time hs; cases hs⟩
  · exact .inl (Owned.mem_others.mp hu).1

theorem abort (hd : h.Tidy) (id : Nat) : (h.abort id).Tidy := by
  refine ⟨fun u hu => hd.next u (Owned.mem_others.mp hu).1, fun u hu => hd.timed u (Owned.mem_others.mp hu).1,
    fun k e he => ?_⟩
  obtain ⟨hlt, hne⟩ := hd.ended k e (Table.find?_of_erase he)
  exact ⟨hlt, fun u hu => hne u (Owned.mem_others.mp hu).1⟩

theorem startLayer (hd : h.Tidy) (index : Nat) (r : Relay) (rid : String) : (h.startLayer index r rid).Tidy := by
  have hd' : Tidy { h with tokens := (h.tokens.child r.token).1 } := hd.of_eq rfl rfl rfl
  unfold Hub.startLayer
  dsimp only
  split
  · exact (hd'.spawn _).spawn _
  · exact hd'.spawn _

theorem startRelay (hd : h.Tidy) (index : Nat) (rids : List String) : (h.startRelay index rids).1.Tidy := by
  refine startRelay_keeps hd ?_ (fun g r rid hg => hg.startLayer index r rid) rids
  exact hd.of_eq rfl rfl rfl

theorem failPump (hd : h.Tidy) (ht : t ∈ h.tasks) (p : Pump) (cause : Error) :
    (h.failPump t p cause).Tidy := by
  unfold Hub.failPump
  split
  · exact hd.retire ht _
  · exact (hd.dismiss t).of_eq rfl rfl rfl

theorem announce (hd : h.Tidy) (ht : t ∈ h.tasks) (rids : List String) : (h.announce t rids).Tidy := by
  unfold Hub.announce
  split
  · exact hd.dismiss t
  · exact (hd.dismiss t).startRelay _ rids
  · dsimp only
    split
    · exact (hd.resume ht _).of_eq rfl rfl rfl
    · exact (hd.dismiss t).of_eq rfl rfl rfl

/-- No move makes a hub untidy. -/
theorem move (hd : h.Tidy) (ht : t ∈ h.tasks) (m : Move h t g) : g.Tidy := by
  cases m with
  | park _ hg => exact hd.park ht fun time he => absurd he (hg time)
  | begin hj => exact hd.park ht fun _ _ => ⟨_, hj⟩
  | round hj => exact (hd.park ht fun _ _ => ⟨_, hj⟩).of_eq rfl rfl rfl
  | read => exact (hd.retire ht _).of_eq rfl rfl rfl
  | forward => exact (hd.resume ht _).of_eq rfl rfl rfl
  | refuse | fail =>
    refine Tidy.failPump ?_ ?_ _ _
    · exact hd.of_eq rfl rfl rfl
    · exact ht
  | unrouted => exact hd.failPump ht _ _
  | cease | expire => exact hd.retire ht _
  | announce => exact hd.announce ht _
  | greet =>
    unfold greeted
    split <;> exact (hd.dismiss t).of_eq rfl rfl rfl

theorem run (hd : h.Tidy) (n : Nat) : (Hub.run n h).Tidy := by
  induction n generalizing h with
  | zero => exact hd
  | succ n ih =>
    unfold Hub.run
    split
    · exact hd
    · next g hs =>
      obtain ⟨t, ht, hm⟩ := List.exists_of_findSome?_eq_some hs
      exact ih (hd.move ht (move_of_move? hm))

theorem settle (hd : h.Tidy) : h.settle.Tidy :=
  hd.run _

end Tidy

end Hub

namespace Session

/-- No command makes a hub untidy. -/
theorem Deed.tidy {s : Session} {c : Command} {g : Hub} {names : Table String Token} (hd : s.hub.Tidy)
    (d : s.Deed c g names) : g.Tidy := by
  cases d with
  | read q =>
    obtain ⟨u, hu, -⟩ := s.hub.read_transport q
    rw [hu]
    exact hd.of_eq rfl rfl rfl
  | spawnRead name q => exact hd.spawn _
  | abort => exact hd.abort _
  | receive | startPump | startScheduler => exact (hd.spawn _).of_eq rfl rfl rfl
  | startRelay => exact hd.startRelay _ _
  | _ => exact hd.of_eq rfl rfl rfl

theorem tidy_new (settings : Settings) (kind : Kind) : (new settings kind).hub.Tidy :=
  ⟨fun t ht => (by cases ht), fun t ht => (by cases ht), fun id e he => (by cases he)⟩

theorem tidy_invariant : Invariant fun s _ => s.hub.Tidy where
  move _ _ _ _ h hm := by
    obtain ⟨ht, hm⟩ := Hub.of_mover? hm
    exact h.move ht (Hub.move_of_move? hm)
  clock _ _ _ h := h.of_eq rfl rfl rfl
  command _ _ _ h hc := (deed_of_perform hc).tidy h
  shown _ _ h := h

/-- In every state that a session comes to the hub is tidy. -/
theorem tidy_after (settings : Settings) (kind : Kind) (cs : List Command) :
    ((new settings kind).after cs).hub.Tidy :=
  @Invariant.after _ tidy_invariant cs _ [] (tidy_new settings kind)

end Session

/-! ## Nanoseconds -/

namespace Hub

variable {h : Hub}

/-- The hub a nanosecond later. -/
def tick (h : Hub) : Hub :=
  settle { h with clock := h.clock + 1 }

/-- The hub some nanoseconds later. -/
def ticks : Nat → Hub → Hub
  | 0, h => h
  | n + 1, h => ticks n h.tick

/-- The changes of some nanoseconds. -/
def ticksChanges : Nat → Hub → List Change
  | 0, _ => []
  | n + 1, h => settleChanges { h with clock := h.clock + 1 } ++ ticksChanges n h.tick

theorem Tidy.tick (hd : h.Tidy) : h.tick.Tidy :=
  (hd.of_eq (g := { h with clock := h.clock + 1 }) rfl rfl rfl).settle

theorem Tidy.ticks (hd : h.Tidy) (n : Nat) : (ticks n h).Tidy := by
  induction n generalizing h with
  | zero => exact hd
  | succ n ih => exact ih hd.tick

/-- A hub that waits makes no move. -/
theorem run_of_quiet (hq : h.step? = none) (n : Nat) : run n h = h ∧ runChanges n h = [] := by
  cases n with
  | zero => exact ⟨rfl, rfl⟩
  | succ n =>
    have hm : h.mover? = none := by
      rw [step?_eq_mover?] at hq
      exact Option.map_eq_none_iff.mp hq
    constructor
    · simp only [run, hq]
    · simp only [runChanges, hm]

theorem settle_of_quiet (hq : h.step? = none) : h.settle = h ∧ h.settleChanges = [] :=
  run_of_quiet hq _

/-- Whether a read goes on does not depend on the time. -/
theorem goOn?_clock {t : Task} {q : Read} {finish : Hub → Except Error Data → Hub} (time : Nat)
    (hg : h.goOn? t q finish = none) : goOn? { h with clock := time } t q finish = none := by
  have hr : Hub.read { h with clock := time } q = ({ (h.read q).1 with clock := time }, (h.read q).2) := by
    unfold Hub.read isAlive
    dsimp only
    split <;> rfl
  unfold goOn? at hg ⊢
  rw [hr]
  cases hp : h.read q with
  | mk u p =>
    rw [hp] at hg
    cases p with
    | done r => cases hg
    | awaitsTrack | awaitsLayer | awaitsDatagram =>
      dsimp only [park?] at hg ⊢
      split at hg
      · cases hg
      · next hlt => rw [if_neg hlt]

/-- A task that waits goes on waiting until its deadline. -/
theorem move?_clock {t : Task} {time : Nat} (hd : ∀ d, deadline? t = some d → time < d) (hm : h.move? t = none) :
    move? { h with clock := time } t = none := by
  unfold move? at hm ⊢
  cases hj : t.job with
  | read q =>
    rw [hj] at hm
    exact goOn?_clock time hm
  | greet name rid =>
    rw [hj] at hm
    exact goOn?_clock time hm
  | announce rids =>
    rw [hj] at hm
    cases hm
  | pump p =>
    rw [hj] at hm
    dsimp only [movePump?] at hm ⊢
    split at hm
    · cases hm
    · next hh =>
      rw [if_neg hh]
      split at hm
      · cases hm
      · next hc => exact (if_neg hc).trans (goOn?_clock time hm)
  | feedback s =>
    rw [hj] at hm
    dsimp only [moveScheduler?] at hm ⊢
    split at hm
    · cases hm
    · next hc =>
      apply (if_neg hc).trans
      cases hs : t.stage with
      | ready => rw [hs] at hm; cases hm
      | waiting gate =>
        cases gate with
        | deadline d =>
          have := hd d (by rw [deadline?, hs])
          dsimp only
          rw [if_neg (Nat.not_le.mpr this)]
        | _ => rfl

/-- The deadlines of a hub that waits are still to come. -/
theorem lt_deadline {t : Task} {time : Nat} (hq : h.step? = none) (hd : h.Tidy) (ht : t ∈ h.tasks)
    (ht' : deadline? t = some time) : h.clock < time := by
  have hs : t.stage = .waiting (.deadline time) := by
    unfold deadline? at ht'
    split at ht'
    · next hs =>
      cases ht'
      exact hs
    · cases ht'
  obtain ⟨s, hj⟩ := hd.timed t ht time hs
  have hm : h.move? t = none := List.findSome?_eq_none_iff.mp hq t ht
  unfold move? at hm
  rw [hj] at hm
  dsimp only [moveScheduler?] at hm
  split at hm
  · cases hm
  · rw [hs] at hm
    dsimp only at hm
    split at hm
    · cases hm
    · next hlt => exact Nat.not_le.mp hlt

theorem lt_nextDeadline {time : Nat} (hq : h.step? = none) (hd : h.Tidy) (hn : h.nextDeadline? = some time) :
    h.clock < time := by
  obtain ⟨t, ht, hdt⟩ := List.mem_filterMap.mp (List.min?_mem hn)
  exact lt_deadline hq hd ht hdt

/-- A hub that waits goes on waiting up to its first deadline. -/
theorem step?_clock {time : Nat} (hq : h.step? = none) (hd : ∀ d, h.nextDeadline? = some d → time < d) :
    step? { h with clock := time } = none := by
  refine List.findSome?_eq_none_iff.mpr fun t ht => ?_
  refine move?_clock (fun d hdt => ?_) (List.findSome?_eq_none_iff.mp hq t ht)
  have hmem : d ∈ h.tasks.filterMap deadline? := List.mem_filterMap.mpr ⟨t, ht, hdt⟩
  cases hn : h.nextDeadline? with
  | none =>
    rw [nextDeadline?, List.min?_eq_none_iff] at hn
    rw [hn] at hmem
    cases hmem
  | some first =>
    exact Nat.lt_of_lt_of_le (hd first hn) ((List.min?_eq_some_iff.mp hn).2 d hmem)

/-- Settling leaves the receiver, its handler and the clock alone. -/
theorem framed_settle (h : Hub) : h.Framed h.settle := by
  have run : ∀ (n : Nat) (h : Hub), h.Framed (Hub.run n h) := by
    intro n
    induction n with
    | zero => exact fun h => .refl h
    | succ n ih =>
      intro h
      unfold Hub.run
      split
      · exact .refl h
      · next g hs =>
        obtain ⟨t, -, hm⟩ := List.exists_of_findSome?_eq_some hs
        exact (move_of_move? hm).framed.trans (ih g)
  exact run _ h

/-- To pass on to a time does not depend on the time that it is. -/
theorem pass_clock (n target : Nat) (h : Hub) (time : Nat) :
    pass n target { h with clock := time } = pass n target h
      ∧ passChanges n target { h with clock := time } = passChanges n target h := by
  cases n with
  | zero => exact ⟨rfl, rfl⟩
  | succ n => exact ⟨rfl, rfl⟩

/-- To pass on to a time is to pass on by a nanosecond at a time. -/
theorem pass_eq_ticks (k : Nat) {n : Nat} (hn : k ≤ n) (hq : h.step? = none) (hd : h.Tidy) :
    pass n (h.clock + k) h = ticks k h ∧ passChanges n (h.clock + k) h = ticksChanges k h := by
  induction k generalizing n h with
  | zero =>
    cases n with
    | zero => exact ⟨rfl, rfl⟩
    | succ n =>
      unfold pass passChanges
      cases hnext : h.nextDeadline? with
      | none => exact ⟨rfl, rfl⟩
      | some time =>
        have hlt := Nat.not_le.mpr (lt_nextDeadline hq hd hnext)
        dsimp only [Nat.add_zero]
        rw [if_neg hlt, if_neg hlt]
        exact ⟨rfl, rfl⟩
  | succ k ih =>
    have hsum : h.clock + (k + 1) = h.clock + 1 + k := by omega
    by_cases hnow : h.nextDeadline? = some (h.clock + 1)
    · obtain ⟨n, rfl⟩ : ∃ m, n = m + 1 := ⟨n - 1, by omega⟩
      have hc : h.tick.clock = h.clock + 1 := (framed_settle _).clock
      obtain ⟨hp, hx⟩ := ih (n := n) (by omega) (h := h.tick) (step?_settle _) hd.tick
      rw [hc, ← hsum] at hp hx
      unfold pass passChanges
      rw [hnow]
      dsimp only
      rw [if_pos (by omega), if_pos (by omega)]
      exact ⟨hp, congrArg _ hx⟩
    · -- nothing happens in this nanosecond
      have hq' : step? { h with clock := h.clock + 1 } = none :=
        step?_clock hq fun d hdl => Nat.lt_of_le_of_ne (lt_nextDeadline hq hd hdl) fun e => hnow (e ▸ hdl)
      obtain ⟨hs, hsx⟩ := settle_of_quiet hq'
      have hd' : Tidy { h with clock := h.clock + 1 } := hd.of_eq rfl rfl rfl
      obtain ⟨hp, hx⟩ := ih (n := n) (by omega) hq' hd'
      obtain ⟨hpc, hxc⟩ := pass_clock n (h.clock + (k + 1)) h (h.clock + 1)
      unfold ticks ticksChanges tick
      rw [← hpc, ← hxc, hsum, hs, hsx]
      exact ⟨hp, hx⟩

/-- To let time pass is to let nanoseconds pass. -/
theorem advance_eq_ticks (hq : h.step? = none) (hd : h.Tidy) (nanoseconds : Nat) :
    h.advance nanoseconds = ticks nanoseconds h ∧ h.advanceChanges nanoseconds = ticksChanges nanoseconds h :=
  pass_eq_ticks nanoseconds (Nat.le_refl _) hq hd

theorem ticks_add (m n : Nat) (h : Hub) :
    ticks (m + n) h = ticks n (ticks m h)
      ∧ ticksChanges (m + n) h = ticksChanges m h ++ ticksChanges n (ticks m h) := by
  induction m generalizing h with
  | zero => exact ⟨congrArg (ticks · h) (Nat.zero_add n), congrArg (ticksChanges · h) (Nat.zero_add n)⟩
  | succ m ih =>
    obtain ⟨ht, hx⟩ := ih h.tick
    rw [Nat.add_right_comm m 1 n]
    exact ⟨ht, by rw [ticksChanges, hx, ← List.append_assoc]; rfl⟩

theorem step?_ticks (hq : h.step? = none) (n : Nat) : (ticks n h).step? = none := by
  induction n generalizing h with
  | zero => exact hq
  | succ n ih => exact ih (step?_settle _)

end Hub

/-- A step that lets time pass lets nanoseconds pass. -/
theorem Session.step_advance {s : Session} (hq : s.hub.step? = none) (hd : s.hub.Tidy) (milliseconds : Nat) :
    (s.step (.advance milliseconds)).1
        = (s.setHub (Hub.ticks (nanosecondsPerMillisecond * milliseconds) s.hub)).markShown
      ∧ s.changes (.advance milliseconds)
        = Hub.ticksChanges (nanosecondsPerMillisecond * milliseconds) s.hub := by
  obtain ⟨he, hx⟩ := Hub.advance_eq_ticks hq hd (nanosecondsPerMillisecond * milliseconds)
  obtain ⟨hs, hsx⟩ := Hub.settle_of_quiet (Hub.step?_ticks hq (nanosecondsPerMillisecond * milliseconds))
  rw [← he] at hs hsx
  constructor
  · show ((s.setHub _).setHub (Hub.settle (s.hub.advance _))).markShown = _
    rw [hs, he]
    rfl
  · show s.hub.advanceChanges _ ++ (s.hub.advance _).settleChanges = _
    rw [hsx, hx, List.append_nil]

end MediaRelay
