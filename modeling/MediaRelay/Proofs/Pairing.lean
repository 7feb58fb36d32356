import MediaRelay.Proofs.Lasting
import MediaRelay.Proofs.Twins

/-!
# Hubs that differ in feedback

Two hubs are a pair (`Hub.Paired`) if what forwards is the same in both: the receiver, the transport, outbound tracks
and writers, tokens, relays and the tasks that give no feedback. Schedulers, the feedback they have given, the settings and
the clock may differ. Tasks may have other numbers in the one hub than in the other (`Links`), since schedulers are
numbered as well. What can be asked about a task by its number is the same (`Hub.Follows`).

- `Paired.atLinked`, `Paired.change`: what happens to linked tasks, and to no task;
- `Paired.spawn`, `Paired.park`, `Paired.resume`, `Paired.retire`, `Paired.dismiss`, `Paired.abort`: tasks come and go;
- `Paired.move_left`: what a scheduler does in one of the hubs is of no concern to the other.
-/

namespace MediaRelay

open List (Forall₂)

theorem Links.le_refl (l : Links) : l.Le l :=
  fun _ _ h => h

theorem Links.Le.trans {l l' l'' : Links} (h : l.Le l') (h' : l'.Le l'') : l.Le l'' :=
  fun i j hl => h' i j (h i j hl)

theorem Links.le_add (l : Links) {m n : Nat} (hm : ∀ j, ¬ l.Rel m j) (hn : ∀ i, ¬ l.Rel i n) : l.Le (l.add hm hn) :=
  fun _ _ h => .inl h

/-! ## Tasks -/

/-- Whether a job gives feedback. -/
def Job.isScheduler : Job → Bool
  | .feedback _ => true
  | _ => false

theorem Job.isScheduler_iff {j : Job} : j.isScheduler = true ↔ ∃ s, j = .feedback s := by
  cases j <;> simp [isScheduler]

/-- Tasks whose numbers are linked, with the same job at the same stage. -/
structure Task.Paired (l : Links) (t u : Task) : Prop where
  id : l.Rel t.id u.id
  job : t.job = u.job
  stage : t.stage = u.stage

/-- The tasks that give no feedback are paired, in their order. -/
def TasksPaired (l : Links) (ts us : List Task) : Prop :=
  Forall₂ (Task.Paired l) (ts.filter fun t => !t.job.isScheduler) (us.filter fun u => !u.job.isScheduler)

namespace TasksPaired

variable {l : Links} {ts us ts' us' : List Task} {t u : Task}

theorem symm (h : TasksPaired l ts us) : TasksPaired l.symm us ts :=
  h.flip.imp fun _ _ htu => ⟨htu.id, htu.job.symm, htu.stage.symm⟩

theorem mono (h : TasksPaired l ts us) {l' : Links} (hl : l.Le l') : TasksPaired l' ts us :=
  h.imp fun _ _ htu => { htu with id := hl _ _ htu.id }

theorem append (h : TasksPaired l ts us) (h' : TasksPaired l ts' us') : TasksPaired l (ts ++ ts') (us ++ us') := by
  unfold TasksPaired
  rw [List.filter_append, List.filter_append]
  exact List.rel_append h h'

theorem singleton (h : t.Paired l u) : TasksPaired l [t] [u] := by
  unfold TasksPaired
  rw [List.filter_singleton, List.filter_singleton, ← h.job]
  cases t.job.isScheduler with
  | true => exact .nil
  | false => exact .cons h .nil

/-- Schedulers do not count. -/
theorem append_left (h : TasksPaired l ts us) (ht : t.job.isScheduler = true) : TasksPaired l (ts ++ [t]) us := by
  unfold TasksPaired at h ⊢
  rwa [List.filter_append, List.filter_singleton, ht, Bool.not_true, cond_false, List.append_nil]

/-- The tasks of linked numbers go. -/
theorem others (h : TasksPaired l ts us) {i j : Nat} (hij : l.Rel i j) :
    TasksPaired l (ts.filter fun t => t.id ≠ i) (us.filter fun u => u.id ≠ j) := by
  unfold TasksPaired at h ⊢
  rw [List.filter_comm, List.filter_comm (p := fun u : Task => !u.job.isScheduler)]
  refine List.rel_filter ?_ h
  intro t u htu
  have hid : t.id = i ↔ u.id = j := by
    constructor
    · rintro rfl
      exact l.functional htu.id hij
    · rintro rfl
      exact l.injective htu.id hij
  simp [hid]

/-- A scheduler goes. -/
theorem others_left (h : TasksPaired l ts us) {i : Nat} (hi : ∀ t ∈ ts, t.id = i → t.job.isScheduler = true) :
    TasksPaired l (ts.filter fun t => t.id ≠ i) us := by
  unfold TasksPaired at h ⊢
  rw [List.filter_filter]
  have : (ts.filter fun t => !t.job.isScheduler && decide (t.id ≠ i)) = ts.filter fun t => !t.job.isScheduler := by
    apply List.filter_congr
    intro t ht
    cases hs : t.job.isScheduler with
    | true => rfl
    | false =>
      have hne : t.id ≠ i := fun he => by
        rw [hi t ht he] at hs
        cases hs
      simp [hne]
  rw [this]
  exact h

/-- Whether some task holds on to the receiver is the same, for schedulers do not. -/
theorem any_holdsReceiver (h : TasksPaired l ts us) : ts.any Task.holdsReceiver = us.any Task.holdsReceiver := by
  have working : ∀ ts : List Task, ts.any Task.holdsReceiver
      = (ts.filter fun t => !t.job.isScheduler).any Task.holdsReceiver := by
    intro ts
    rw [List.any_filter]
    refine List.any_congr rfl fun t => ?_
    obtain ⟨id, job, stage⟩ := t
    cases job <;> rfl
  rw [working ts, working us]
  unfold TasksPaired at h
  generalize (ts.filter fun t => !t.job.isScheduler) = ts, (us.filter fun u => !u.job.isScheduler) = us at h
  induction h with
  | nil => rfl
  | cons htu _ ih => rw [List.any_cons, List.any_cons, ih, Task.holdsReceiver, Task.holdsReceiver, htu.job, htu.stage]

end TasksPaired

/-! ## What is asked about tasks -/

/-- What can be seen of a task by its number: how it has ended, if it has; or that it is a scheduler, which ends when
its token is cancelled, or at once if it is idle. -/
inductive Course where
  | plain (ending : Option Ending)
  | scheduler (token : Token) (idle : Bool)

namespace Hub

/-- A scheduler runs under a number. -/
def Runs (h : Hub) (id : Nat) (s : Scheduler) : Prop :=
  ∃ t ∈ h.tasks, t.id = id ∧ t.job = .feedback s

/-- What is to be seen of the task of a number. -/
def Follows (h : Hub) (id : Nat) : Course → Prop
  | .plain e => h.endings.find? id = e ∧ ∀ s, ¬ h.Runs id s
  | .scheduler k idle =>
    (∃ s, h.Runs id s ∧ s.token = k ∧ (s.period = 0 ↔ idle = true))
      ∨ h.endings.find? id = some .feedback ∧ (h.isCancelled k = true ∨ idle = true)

/-- What happens between two hubs does not concern the task of a number. -/
structure Leaves (h : Hub) (id : Nat) (g : Hub) : Prop where
  ending : g.endings.find? id = h.endings.find? id
  runs : ∀ s, g.Runs id s ↔ h.Runs id s
  cancelled : ∀ k, h.isCancelled k = true → g.isCancelled k = true

variable {h g k : Hub} {id : Nat} {c : Course}

theorem Follows.of_leaves (hc : h.Follows id c) (hl : h.Leaves id g) : g.Follows id c := by
  cases c with
  | plain e => exact ⟨hl.ending.trans hc.1, fun s hs => hc.2 s ((hl.runs s).mp hs)⟩
  | scheduler k idle =>
    rcases hc with ⟨s, hs, hk, hp⟩ | ⟨he, hk⟩
    · exact .inl ⟨s, (hl.runs s).mpr hs, hk, hp⟩
    · exact .inr ⟨hl.ending.trans he, hk.imp (hl.cancelled k) fun hi => hi⟩

/-- Only tasks of another number come and go. -/
theorem leaves_of_ne {i : Nat} (hi : i ≠ id) (htasks : ∀ u, u.id ≠ id → (u ∈ g.tasks ↔ u ∈ h.tasks))
    (hending : g.endings.find? i = h.endings.find? i)
    (hcancelled : ∀ k, h.isCancelled k = true → g.isCancelled k = true) : h.Leaves i g := by
  refine ⟨hending, fun s => exists_congr fun u => ?_, hcancelled⟩
  constructor
  · rintro ⟨hu, rfl, hj⟩
    exact ⟨(htasks u hi).mp hu, rfl, hj⟩
  · rintro ⟨hu, rfl, hj⟩
    exact ⟨(htasks u hi).mpr hu, rfl, hj⟩

/-- Under a number no scheduler runs. -/
theorem follows_plain (hid : ∀ t ∈ h.tasks, t.id = id → t.job.isScheduler = false) :
    h.Follows id (.plain (h.endings.find? id)) := by
  refine ⟨rfl, ?_⟩
  rintro s ⟨t, ht, rfl, hj⟩
  have := hid t ht rfl
  rw [hj] at this
  cases this

/-- The next number has not been given to a task that has ended. -/
theorem Tidy.ending_next (hd : h.Tidy) : h.endings.find? h.nextTask = none := by
  cases he : h.endings.find? h.nextTask with
  | none => rfl
  | some e => exact absurd (hd.ended _ e he).1 (Nat.lt_irrefl _)

/-- When all tasks wait, what can be seen of a task is how it has ended. -/
theorem Follows.ending (hc : h.Follows id c) (hq : h.step? = none) (hd : h.Tidy) :
    h.endings.find? id = match c with
      | .plain e => e
      | .scheduler k idle => if h.isCancelled k = true ∨ idle = true then some .feedback else none := by
  cases c with
  | plain e => exact hc.1
  | scheduler k idle =>
    rcases hc with ⟨s, ⟨t, ht, rfl, hj⟩, rfl, hp⟩ | ⟨he, hk⟩
    · have hm : h.move? t = none := List.findSome?_eq_none_iff.mp hq t ht
      have hwait : ¬ (h.isCancelled s.token = true ∨ s.period = 0) := fun hc => by
        simp only [move?, hj, moveScheduler?, if_pos hc] at hm
        cases hm
      rw [hp] at hwait
      exact (hd.ending ht).trans (if_neg hwait).symm
    · exact he.trans (if_pos hk).symm

/-! ## Pairs -/

/-- What forwards is the same in two hubs. -/
structure ForwardsAs (h g : Hub) : Prop where
  receiver : h.receiver = g.receiver
  transport : h.transport = g.transport
  held : h.held = g.held
  handler : h.handler = g.handler
  egress : h.egress = g.egress
  tokens : h.tokens = g.tokens
  relays : h.relays = g.relays
  events : h.events = g.events

theorem ForwardsAs.symm (hf : h.ForwardsAs g) : g.ForwardsAs h :=
  ⟨hf.1.symm, hf.2.symm, hf.3.symm, hf.4.symm, hf.5.symm, hf.6.symm, hf.7.symm, hf.8.symm⟩

theorem ForwardsAs.trans (hf : h.ForwardsAs g) (hg : g.ForwardsAs k) : h.ForwardsAs k :=
  ⟨hf.1.trans hg.1, hf.2.trans hg.2, hf.3.trans hg.3, hf.4.trans hg.4, hf.5.trans hg.5, hf.6.trans hg.6,
    hf.7.trans hg.7, hf.8.trans hg.8⟩

/-- Hubs that differ in feedback only. -/
structure Paired (l : Links) (h g : Hub) : Prop where
  alike : h.ForwardsAs g
  tasks : TasksPaired l h.tasks g.tasks
  courses : ∀ i j, l.Rel i j → i < h.nextTask ∧ j < g.nextTask ∧ ∃ c, h.Follows i c ∧ g.Follows j c

/-- Hubs that differ in feedback only, with more links than before. -/
def PairedFrom (l : Links) (h g : Hub) : Prop :=
  ∃ l', l.Le l' ∧ h.Paired l' g

/-- What is cancelled stays cancelled when another token is cancelled. -/
theorem isCancelled_cancel (t : Token) {k : Token} (hk : h.isCancelled k = true) :
    isCancelled { h with tokens := h.tokens.cancel t } k = true := by
  have ho : h.Onward { h with tokens := h.tokens.cancel t } :=
    { Onward.refl h with cancelled := fun _ hn => List.mem_append_right _ hn }
  exact ho.isCancelled hk

namespace Paired

variable {l : Links} {h g h' g' : Hub}

theorem symm (m : h.Paired l g) : g.Paired l.symm h where
  alike := m.alike.symm
  tasks := m.tasks.symm
  courses i j hij := by
    obtain ⟨hi, hj, c, hc, hc'⟩ := m.courses j i hij
    exact ⟨hj, hi, c, hc', hc⟩

theorem isCancelled (m : h.Paired l g) (k : Token) : h.isCancelled k = g.isCancelled k := by
  unfold Hub.isCancelled
  rw [m.alike.tokens, m.alike.receiver]

theorem ssrcOf (m : h.Paired l g) (rid : String) : h.ssrcOf rid = g.ssrcOf rid := by
  unfold Hub.ssrcOf
  rw [m.alike.receiver]

theorem isAlive (m : h.Paired l g) : h.isAlive = g.isAlive := by
  unfold Hub.isAlive
  rw [m.alike.held, m.tasks.any_holdsReceiver]

/-- A read comes to the same. -/
theorem read (m : h.Paired l g) (q : Read) :
    ∃ u p, h.read q = ({ h with transport := u }, p) ∧ g.read q = ({ g with transport := u }, p) := by
  unfold Hub.read
  rw [← m.isAlive]
  split
  · exact ⟨h.transport, _, rfl, by rw [m.alike.transport]⟩
  · refine ⟨(h.receiver.read h.transport q).1, (h.receiver.read h.transport q).2, rfl, ?_⟩
    rw [m.alike.receiver, m.alike.transport]

/-! ## Changes on both sides -/

/-- What happens concerns linked tasks only. -/
theorem atLinked (m : h.Paired l g) {i j : Nat} (hij : l.Rel i j) (alike : h'.ForwardsAs g')
    (tasks : TasksPaired l h'.tasks g'.tasks) (next : h.nextTask ≤ h'.nextTask) (next' : g.nextTask ≤ g'.nextTask)
    (leaves : ∀ k, k ≠ i → h.Leaves k h') (leaves' : ∀ k, k ≠ j → g.Leaves k g')
    (course : ∃ c, h'.Follows i c ∧ g'.Follows j c) : h'.Paired l g' := by
  refine ⟨alike, tasks, fun i' j' hij' => ?_⟩
  obtain ⟨hi, hj, c, hc, hc'⟩ := m.courses i' j' hij'
  refine ⟨Nat.lt_of_lt_of_le hi next, Nat.lt_of_lt_of_le hj next', ?_⟩
  by_cases he : i' = i
  · subst he
    rwa [l.functional hij' hij]
  · have he' : j' ≠ j := fun he' => he (l.injective hij' (he' ▸ hij))
    exact ⟨c, hc.of_leaves (leaves i' he), hc'.of_leaves (leaves' j' he')⟩

/-- What happens concerns no task. -/
theorem change (m : h.Paired l g) (alike : h'.ForwardsAs g') (tasks : h'.tasks = h.tasks) (tasks' : g'.tasks = g.tasks)
    (next : h'.nextTask = h.nextTask) (next' : g'.nextTask = g.nextTask) (endings : h'.endings = h.endings)
    (endings' : g'.endings = g.endings) (cancelled : ∀ k, h.isCancelled k = true → h'.isCancelled k = true) :
    h'.Paired l g' := by
  refine ⟨alike, by rw [tasks, tasks']; exact m.tasks, fun i j hij => ?_⟩
  obtain ⟨hi, hj, c, hc, hc'⟩ := m.courses i j hij
  have cancelled' : ∀ k, g.isCancelled k = true → g'.isCancelled k = true := by
    intro k hk
    have := cancelled k (by rw [m.isCancelled]; exact hk)
    unfold Hub.isCancelled at this ⊢
    rwa [← alike.tokens, ← alike.receiver]
  refine ⟨next ▸ hi, next' ▸ hj, c, hc.of_leaves ⟨by rw [endings], fun s => ?_, cancelled⟩,
    hc'.of_leaves ⟨by rw [endings'], fun s => ?_, cancelled'⟩⟩
  · rw [Runs, tasks, Runs]
  · rw [Runs, tasks', Runs]

/-! ## Tasks come and go -/

theorem next_left (m : h.Paired l g) (j : Nat) : ¬ l.Rel h.nextTask j :=
  fun hl => Nat.lt_irrefl _ (m.courses _ _ hl).1

theorem next_right (m : h.Paired l g) (i : Nat) : ¬ l.Rel i g.nextTask :=
  m.symm.next_left i

theorem leaves_spawn {h : Hub} (job : Job) {i : Nat} (hi : i < h.nextTask) : h.Leaves i (h.spawn job) := by
  refine leaves_of_ne (Nat.ne_of_lt hi) (fun u hu => ?_) rfl fun _ hk => hk
  have hne : u ≠ { id := h.nextTask, job } := fun he => hu (by rw [he])
  simp [Hub.spawn, hne]

/-- A scheduler is started on one side. -/
theorem spawn_left (m : h.Paired l g) (s : Scheduler) : (h.spawn (.feedback s)).Paired l g := by
  refine ⟨⟨m.alike.1, m.alike.2, m.alike.3, m.alike.4, m.alike.5, m.alike.6, m.alike.7, m.alike.8⟩,
    m.tasks.append_left rfl, fun i j hij => ?_⟩
  obtain ⟨hi, hj, c, hc, hc'⟩ := m.courses i j hij
  exact ⟨Nat.lt_succ_of_lt hi, hj, c, hc.of_leaves (leaves_spawn _ hi), hc'⟩

/-- Tasks are started on both sides. -/
theorem spawn_of_course (m : h.Paired l g) {job job' : Job}
    (tasks : TasksPaired (l.add m.next_left m.next_right) [{ id := h.nextTask, job }]
      [{ id := g.nextTask, job := job' }])
    (course : ∃ c, (h.spawn job).Follows h.nextTask c ∧ (g.spawn job').Follows g.nextTask c) :
    (h.spawn job).Paired (l.add m.next_left m.next_right) (g.spawn job') := by
  refine ⟨⟨m.alike.1, m.alike.2, m.alike.3, m.alike.4, m.alike.5, m.alike.6, m.alike.7, m.alike.8⟩,
    (m.tasks.mono (l.le_add _ _)).append tasks, fun i j hij => ?_⟩
  rcases hij with hij | ⟨rfl, rfl⟩
  · obtain ⟨hi, hj, c, hc, hc'⟩ := m.courses i j hij
    exact ⟨Nat.lt_succ_of_lt hi, Nat.lt_succ_of_lt hj, c, hc.of_leaves (leaves_spawn _ hi),
      hc'.of_leaves (leaves_spawn _ hj)⟩
  · exact ⟨Nat.lt_succ_self _, Nat.lt_succ_self _, course⟩

/-- No task has had the next number. -/
theorem runs_spawn {h : Hub} (hd : h.Tidy) (job : Job) (s : Scheduler) :
    (h.spawn job).Runs h.nextTask s ↔ job = .feedback s := by
  constructor
  · rintro ⟨t, ht, hid, hj⟩
    rcases List.mem_append.mp ht with ht | ht
    · exact absurd hid (Nat.ne_of_lt (hd.next t ht))
    · rw [List.mem_singleton.mp ht] at hj
      exact hj
  · intro hj
    exact ⟨_, List.mem_append_right _ (List.mem_singleton_self _), rfl, hj⟩

/-- The same task is started on both sides. -/
theorem spawn (m : h.Paired l g) (hd : h.Tidy) (hd' : g.Tidy) {job : Job} (hj : job.isScheduler = false) :
    (h.spawn job).Paired (l.add m.next_left m.next_right) (g.spawn job) := by
  refine m.spawn_of_course (.singleton ⟨.inr ⟨rfl, rfl⟩, rfl, rfl⟩)
    ⟨.plain none, ⟨?_, fun s hs => ?_⟩, ?_, fun s hs => ?_⟩
  · exact hd.ending_next
  · rw [(runs_spawn hd job s).mp hs] at hj
    cases hj
  · exact hd'.ending_next
  · rw [(runs_spawn hd' job s).mp hs] at hj
    cases hj

/-- Schedulers are started on both sides, under the same token; both are idle or neither. -/
theorem spawn_schedulers (m : h.Paired l g) (hd : h.Tidy) (hd' : g.Tidy) {s s' : Scheduler} (hk : s.token = s'.token)
    (hp : s.period = 0 ↔ s'.period = 0) :
    (h.spawn (.feedback s)).Paired (l.add m.next_left m.next_right) (g.spawn (.feedback s')) := by
  refine m.spawn_of_course .nil
    ⟨.scheduler s.token (decide (s.period = 0)), .inl ⟨s, ?_, rfl, ?_⟩, .inl ⟨s', ?_, ?_, ?_⟩⟩
  · exact (runs_spawn hd _ s).mpr rfl
  · exact decide_eq_true_iff.symm
  · exact (runs_spawn hd' _ s').mpr rfl
  · exact hk.symm
  · exact hp.symm.trans decide_eq_true_iff.symm

section Tasks

variable {t u : Task}

/-- Tasks of a number went, or went on at other places and give no feedback; all others are still there. -/
structure Requeued (h : Hub) (id : Nat) (ts : List Task) : Prop where
  others : ∀ t, t.id ≠ id → (t ∈ ts ↔ t ∈ h.tasks)
  own : ∀ t ∈ ts, t.id = id → t.job.isScheduler = false

theorem requeued_others (h : Hub) (id : Nat) : Requeued h id (h.others id) where
  others t ht := by simp [Hub.others, ht]
  own t ht he := absurd he (Owned.mem_others.mp ht).2

theorem requeued_append (h : Hub) (hj : t.job.isScheduler = false) : Requeued h t.id (h.others t.id ++ [t]) where
  others v hv := by
    have hne : v ≠ t := fun he => hv (by rw [he])
    simp [Hub.others, hv, hne]
  own v hv he := by
    rcases List.mem_append.mp hv with hv | hv
    · exact absurd he (Owned.mem_others.mp hv).2
    · rwa [List.mem_singleton.mp hv]

theorem requeued_cons (h : Hub) (hj : t.job.isScheduler = false) : Requeued h t.id (t :: h.others t.id) where
  others v hv := by
    have hne : v ≠ t := fun he => hv (by rw [he])
    simp [Hub.others, hv, hne]
  own v hv he := by
    rcases List.mem_cons.mp hv with rfl | hv
    · exact hj
    · exact absurd he (Owned.mem_others.mp hv).2

/-- Linked tasks go, and perhaps go on at other places. -/
theorem requeue (m : h.Paired l g) {i j : Nat} (hij : l.Rel i j) {ts us : List Task} {es fs : Table Nat Ending}
    (tasks : TasksPaired l ts us) (hts : Requeued h i ts) (hus : Requeued g j us)
    (hes : ∀ k, k ≠ i → es.find? k = h.endings.find? k) (hfs : ∀ k, k ≠ j → fs.find? k = g.endings.find? k)
    (hending : es.find? i = fs.find? j) :
    Hub.Paired l { h with tasks := ts, endings := es } { g with tasks := us, endings := fs } := by
  refine m.atLinked hij ⟨m.alike.1, m.alike.2, m.alike.3, m.alike.4, m.alike.5, m.alike.6, m.alike.7, m.alike.8⟩ tasks
    (Nat.le_refl _) (Nat.le_refl _) (fun k hk => ?_) (fun k hk => ?_) ⟨.plain (es.find? i), ?_, ?_⟩
  · exact leaves_of_ne hk hts.others (hes k hk) fun _ hc => hc
  · exact leaves_of_ne hk hus.others (hfs k hk) fun _ hc => hc
  · exact follows_plain hts.own
  · rw [hending]
    exact follows_plain hus.own

theorem retire (m : h.Paired l g) (htu : t.Paired l u) (e : Ending) : (h.retire t e).Paired l (g.retire u e) :=
  m.requeue htu.id (m.tasks.others htu.id) (requeued_others h _) (requeued_others g _)
    (fun _ hk => Table.find?_insert_of_ne _ _ hk) (fun _ hk => Table.find?_insert_of_ne _ _ hk)
    (by rw [Table.find?_insert_self, Table.find?_insert_self])

/-- A task is dropped by its number. -/
theorem abort (m : h.Paired l g) {i j : Nat} (hij : l.Rel i j) : (h.abort i).Paired l (g.abort j) :=
  m.requeue hij (m.tasks.others hij) (requeued_others h i) (requeued_others g j)
    (fun _ hk => Table.find?_erase_of_ne _ hk) (fun _ hk => Table.find?_erase_of_ne _ hk)
    (by rw [Table.find?_erase_self, Table.find?_erase_self])

section Running

variable (hd : h.Tidy) (hd' : g.Tidy) (ht : t ∈ h.tasks) (hu : u ∈ g.tasks)

include hd hd' ht hu

theorem dismiss (m : h.Paired l g) (htu : t.Paired l u) : (h.dismiss t).Paired l (g.dismiss u) :=
  m.requeue htu.id (m.tasks.others htu.id) (requeued_others h _) (requeued_others g _) (fun _ _ => rfl) (fun _ _ => rfl)
    (by rw [hd.ending ht, hd'.ending hu])

theorem park (m : h.Paired l g) (htu : t.Paired l u) (hj : t.job.isScheduler = false) (gate : Gate) :
    (h.park t gate).Paired l (g.park u gate) := by
  have htu' : Task.Paired l { t with stage := .waiting gate } { u with stage := .waiting gate } :=
    ⟨htu.id, htu.job, rfl⟩
  have hj' : u.job.isScheduler = false := htu.job ▸ hj
  exact m.requeue htu.id ((m.tasks.others htu.id).append (.singleton htu'))
    (requeued_append (t := { t with stage := .waiting gate }) h hj)
    (requeued_append (t := { u with stage := .waiting gate }) g hj') (fun _ _ => rfl) (fun _ _ => rfl)
    (by rw [hd.ending ht, hd'.ending hu])

theorem resume (m : h.Paired l g) (htu : t.Paired l u) {job : Job} (hj : job.isScheduler = false) :
    (h.resume t job).Paired l (g.resume u job) := by
  have htu' : Task.Paired l { id := t.id, job } { id := u.id, job } := ⟨htu.id, rfl, rfl⟩
  exact m.requeue htu.id ((TasksPaired.singleton htu').append (m.tasks.others htu.id))
    (requeued_cons (t := { id := t.id, job }) h hj) (requeued_cons (t := { id := u.id, job }) g hj) (fun _ _ => rfl)
    (fun _ _ => rfl) (by rw [hd.ending ht, hd'.ending hu])

/-- A pump gives up. -/
theorem failPump (m : h.Paired l g) (htu : t.Paired l u) (p : Pump) (cause : Error) :
    (h.failPump t p cause).Paired l (g.failPump u p cause) := by
  unfold Hub.failPump
  rw [← m.ssrcOf]
  split
  · exact m.retire htu _
  · next index _ =>
    have hk := m.dismiss hd hd' ht hu htu
    refine hk.change ?_ rfl rfl rfl rfl rfl rfl fun k hc => isCancelled_cancel p.token hc
    exact { hk.alike with
      tokens := congrArg (·.cancel p.token) m.alike.tokens
      relays := congrArg (fun rs : List Relay => rs.modify index _) m.alike.relays }

end Running

end Tasks

/-! ## Relays that start -/

theorem startLayer (m : h.Paired l g) (hd : h.Tidy) (hd' : g.Tidy) (index : Nat) (r : Relay) (rid : String) :
    PairedFrom l (h.startLayer index r rid) (g.startLayer index r rid) := by
  have child : Hub.Paired l { h with tokens := (h.tokens.child r.token).1 }
      { g with tokens := (g.tokens.child r.token).1 } :=
    m.change { m.alike with tokens := congrArg (fun p => (p.child r.token).1) m.alike.tokens } rfl rfl rfl rfl rfl rfl
      fun _ hk => hk
  have hd₁ : Tidy { h with tokens := (h.tokens.child r.token).1 } := hd.of_eq rfl rfl rfl
  have hd₁' : Tidy { g with tokens := (g.tokens.child r.token).1 } := hd'.of_eq rfl rfl rfl
  unfold Hub.startLayer
  dsimp only
  rw [← m.alike.tokens] at child hd₁' ⊢
  split <;> split
  · exact ⟨_, Links.le_add _ _ _, ((child.spawn_left _).symm.spawn_left _).symm.spawn (hd₁.spawn _) (hd₁'.spawn _) rfl⟩
  · exact ⟨_, Links.le_add _ _ _, (child.spawn_left _).spawn (hd₁.spawn _) hd₁' rfl⟩
  · exact ⟨_, Links.le_add _ _ _, (child.symm.spawn_left _).symm.spawn hd₁ (hd₁'.spawn _) rfl⟩
  · exact ⟨_, Links.le_add _ _ _, child.spawn hd₁ hd₁' rfl⟩

theorem startLayers (m : h.Paired l g) (hd : h.Tidy) (hd' : g.Tidy) (index : Nat) (r : Relay) (rids : List String) :
    PairedFrom l (rids.foldl (fun h rid => h.startLayer index r rid) h)
      (rids.foldl (fun h rid => h.startLayer index r rid) g) := by
  induction rids generalizing l h g with
  | nil => exact ⟨l, l.le_refl, m⟩
  | cons rid rids ih =>
    obtain ⟨l', hl, m'⟩ := m.startLayer hd hd' index r rid
    obtain ⟨l'', hl', m''⟩ := ih m' (hd.startLayer index r rid) (hd'.startLayer index r rid)
    exact ⟨l'', hl.trans hl', m''⟩

/-- A relay is started. -/
theorem startRelay (m : h.Paired l g) (hd : h.Tidy) (hd' : g.Tidy) (index : Nat) (rids : List String) :
    PairedFrom l (h.startRelay index rids).1 (g.startRelay index rids).1
      ∧ (h.startRelay index rids).2 = (g.startRelay index rids).2 := by
  unfold Hub.startRelay
  rw [← m.alike.relays]
  cases h.relays[index]? with
  | none => exact ⟨⟨l, l.le_refl, m⟩, rfl⟩
  | some r =>
    dsimp only
    have mark : Hub.Paired l { h with relays := h.relays.modify index fun r => { r with started := true } }
        { g with relays := h.relays.modify index fun r => { r with started := true } } :=
      m.change { m.alike with relays := rfl } rfl rfl rfl rfl rfl rfl fun _ hk => hk
    rw [← mark.isCancelled]
    split
    · exact ⟨⟨l, l.le_refl, m⟩, rfl⟩
    · split
      · exact ⟨⟨l, l.le_refl, mark⟩, rfl⟩
      · exact ⟨mark.startLayers (hd.of_eq rfl rfl rfl) (hd'.of_eq rfl rfl rfl) index r rids, rfl⟩

/-! ## Schedulers -/

section Schedulers

variable {t : Task} {s : Scheduler} (hd : h.Tidy) (ids : (h.tasks.map Task.id).Nodup) (ht : t ∈ h.tasks)
  (hj : t.job = .feedback s)

include ids ht hj

/-- Under the number of a scheduler nothing else runs. -/
theorem runs_iff (s' : Scheduler) : h.Runs t.id s' ↔ s' = s := by
  constructor
  · rintro ⟨u, hu, hid, hj'⟩
    obtain rfl := List.inj_on_of_nodup_map ids hu ht hid
    exact Job.feedback.inj (hj'.symm.trans hj)
  · rintro rfl
    exact ⟨t, ht, rfl, hj⟩

theorem isScheduler_of_id {u : Task} (hu : u ∈ h.tasks) (hid : u.id = t.id) : u.job.isScheduler = true := by
  obtain rfl := List.inj_on_of_nodup_map ids hu ht hid
  exact Job.isScheduler_iff.mpr ⟨s, hj⟩

/-- A scheduler waits for its next round. -/
theorem park_left (m : h.Paired l g) (f : ControlWriter) (gate : Gate) :
    (Hub.park { h with feedback := f } t gate).Paired l g := by
  have hsched : Job.isScheduler { t with stage := .waiting gate }.job = true := Job.isScheduler_iff.mpr ⟨s, hj⟩
  refine ⟨{ m.alike with }, (m.tasks.others_left fun u => isScheduler_of_id ids ht hj).append_left hsched,
    fun i j hij => ?_⟩
  obtain ⟨hi, hj', c, hc, hc'⟩ := m.courses i j hij
  refine ⟨hi, hj', c, hc.of_leaves ?_, hc'⟩
  by_cases he : i = t.id
  · subst he
    refine ⟨rfl, fun s' => ?_, fun _ hk => hk⟩
    rw [runs_iff ids ht hj]
    constructor
    · rintro ⟨u, hu, hid, hj'⟩
      rcases List.mem_append.mp hu with hu | hu
      · exact absurd hid (Owned.mem_others.mp hu).2
      · rw [List.mem_singleton.mp hu] at hj'
        exact Job.feedback.inj (hj'.symm.trans hj)
    · rintro rfl
      exact ⟨_, List.mem_append_right _ (List.mem_singleton_self _), rfl, hj⟩
  · refine leaves_of_ne he (fun u hu => ?_) rfl fun _ hk => hk
    have hne : u ≠ { t with stage := .waiting gate } := fun hu' => hu (by rw [hu'])
    simp [Hub.park, Hub.others, hu, hne]

include hd

/-- A scheduler ends. -/
theorem retire_left (m : h.Paired l g) (hc : h.isCancelled s.token = true ∨ s.period = 0) :
    (h.retire t .feedback).Paired l g := by
  refine ⟨{ m.alike with }, m.tasks.others_left fun u => isScheduler_of_id ids ht hj, fun i j hij => ?_⟩
  obtain ⟨hi, hj', c, hci, hc'⟩ := m.courses i j hij
  refine ⟨hi, hj', c, ?_, hc'⟩
  by_cases he : i = t.id
  · subst he
    cases c with
    | plain e => exact absurd ((runs_iff ids ht hj s).mpr rfl) (hci.2 s)
    | scheduler k idle =>
      rcases hci with ⟨s', hs, rfl, hp⟩ | ⟨he, -⟩
      · obtain rfl := (runs_iff ids ht hj s').mp hs
        exact .inr ⟨Table.find?_insert_self _ _ _, hc.imp id hp.mp⟩
      · rw [hd.ending ht] at he
        cases he
  · refine hci.of_leaves (leaves_of_ne he (fun u hu => ?_) (Table.find?_insert_of_ne _ _ he) fun _ hk => hk)
    simp [Hub.retire, Hub.others, hu]

/-- What a scheduler does is of no concern to the other hub. -/
theorem move_left (m : h.Paired l g) (mv : Move h t h') : h'.Paired l g := by
  cases mv with
  | round hj' => exact m.park_left ids ht hj _ _
  | begin hj' => exact m.park_left ids ht hj h.feedback _
  | expire hj' hc =>
    obtain rfl := Job.feedback.inj (hj'.symm.trans hj)
    exact m.retire_left hd ids ht hj hc
  | park hr =>
    rw [hj] at hr
    cases hr
  | _ hj' =>
    rw [hj] at hj'
    cases hj'

end Schedulers

end Paired

end Hub

end MediaRelay
