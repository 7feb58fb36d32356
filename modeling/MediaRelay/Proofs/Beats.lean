import MediaRelay.Proofs.Rounds
import Mathlib.Algebra.GroupWithZero.Nat

/-!
# Keeping time

- `beats` are the times at the multiples of a period after a start, `beatAfter` is the first of them after a time;
- `Session.OnTime`: the scheduler of a layer is going to give feedback at a time that is still to come, which neither
  commands nor tasks change;
- `Session.OnBeat`: that time is the next beat. So it stays when a nanosecond passes (`OnBeat.tick`), when many do
  (`OnBeat.ticks`), in a step (`OnBeat.step`) and in a run (`OnBeat.after`), and feedback is given at the beats that
  have passed.
-/

namespace MediaRelay

/-! ## Beats -/

/-- The times at a multiple of a period after a start that come in the nanoseconds after some time. -/
def beats (start period time nanoseconds : Nat) : List Nat :=
  (List.range' (time + 1) nanoseconds).filter fun t => period ∣ t - start

/-- The first beat after a time. -/
def beatAfter (start period time : Nat) : Nat :=
  start + ((time - start) / period + 1) * period

section Beats

variable {start period time m n t : Nat}

theorem beats_add : beats start period time (m + n) = beats start period time m ++ beats start period (time + m) n := by
  unfold beats
  rw [← List.range'_append_1, List.filter_append, Nat.add_right_comm time 1 m]

theorem beats_one : beats start period time 1 = if period ∣ time + 1 - start then [time + 1] else [] := by
  unfold beats
  rw [List.range'_one, List.filter_singleton]
  by_cases hd : period ∣ time + 1 - start <;> simp [hd]

theorem mem_beats (h : t ∈ beats start period time n) : time < t ∧ t ≤ time + n := by
  have hr := List.mem_range'_1.mp (List.mem_filter.mp h).1
  omega

/-- The beats from the start on. -/
theorem beats_start (start period n : Nat) :
    beats start period start n = (List.range (n / period)).map fun i => start + (i + 1) * period := by
  induction n with
  | zero => simp [beats]
  | succ n ih =>
    have hs : start + n + 1 - start = n + 1 := by omega
    rw [beats_add, ih, beats_one, hs, Nat.succ_div]
    by_cases hd : period ∣ n + 1
    · have hm := Nat.div_mul_cancel hd
      rw [Nat.succ_div, if_pos hd] at hm
      rw [if_pos hd, if_pos hd, List.range_succ, List.map_append, List.map_singleton, hm, Nat.add_assoc]
    · rw [if_neg hd, if_neg hd, List.append_nil, Nat.add_zero]

theorem beatAfter_start (start period : Nat) : beatAfter start period start = start + period := by
  simp [beatAfter]

/-- The next nanosecond is a beat, which is then the first. -/
theorem beatAfter_eq_iff (hs : start ≤ time) :
    time + 1 = beatAfter start period time ↔ period ∣ time + 1 - start := by
  have he : time + 1 - start = time - start + 1 := by omega
  unfold beatAfter
  rw [he]
  constructor
  · intro hb
    exact ⟨(time - start) / period + 1, by rw [Nat.mul_comm]; omega⟩
  · intro hd
    have hm := Nat.div_mul_cancel hd
    rw [Nat.succ_div, if_pos hd] at hm
    omega

theorem beatAfter_succ (hs : start ≤ time) : beatAfter start period (time + 1)
    = if period ∣ time + 1 - start then beatAfter start period time + period else beatAfter start period time := by
  have he : time + 1 - start = time - start + 1 := by omega
  unfold beatAfter
  rw [he, Nat.succ_div]
  split
  · rw [Nat.add_mul ((time - start) / period + 1), Nat.one_mul, Nat.add_assoc]
  · rw [Nat.add_zero]

end Beats

/-! ## The feedback of a run -/

/-- The batches that the tasks of a relay's layer leave at the writer of feedback in a run, and when. -/
def feedbackOf (xs : List Change) (k : Token) (rid : String) : List (Nat × List Rtcp.Packet) :=
  xs.flatMap (·.feedbackBy k rid)

@[simp] theorem feedbackOf_append (xs ys : List Change) (k : Token) (rid : String) :
    feedbackOf (xs ++ ys) k rid = feedbackOf xs k rid ++ feedbackOf ys k rid :=
  List.flatMap_append

@[simp] theorem feedbackOf_singleton (x : Change) (k : Token) (rid : String) :
    feedbackOf [x] k rid = x.feedbackBy k rid :=
  List.flatMap_singleton _ _

/-! ## The time of the next round -/

/-- A stage from which a scheduler gives feedback at a time: it waits for it, or is about to wait a period. -/
def Stage.Until (st : Stage) (clock period time : Nat) : Prop :=
  st = .waiting (.deadline time) ∨ st = .ready ∧ time = clock + period

namespace Session

variable {s : Session} {c : Command} {g : Hub} {names : Table String Token} {t : Task} {k : Token} {q : Scheduler}
  {id time start : Nat}

/-- Time passes in no deed, and none changes the settings. -/
theorem Deed.clock (d : s.Deed c g names) : g.clock = s.hub.clock ∧ g.settings = s.hub.settings := by
  cases d with
  | read q =>
    obtain ⟨u, hu, -⟩ := s.hub.read_transport q
    rw [hu]
    exact ⟨rfl, rfl⟩
  | startRelay => exact ⟨(s.hub.framed_startRelay _ _).clock, (s.hub.framed_startRelay _ _).settings⟩
  | _ => exact ⟨rfl, rfl⟩

/-- The scheduler of a relay's layer is going to give feedback at a time that is still to come. -/
structure OnTime (s : Session) (k : Token) (q : Scheduler) (id time : Nat) : Prop where
  proper : s.Proper
  apart : s.hub.Apart
  duty : s.hub.OnDuty k q id fun st => st.Until s.hub.clock q.period time
  ahead : s.hub.clock < time

namespace OnTime

/-- Moves do not change the time at which feedback will be given, and give none before. -/
theorem move (h : s.OnTime k q id time) (hp : q.period ≠ 0) (hm : s.hub.mover? = some (t, g)) :
    (s.setHub g).OnTime k q id time ∧ (Change.mk (.move t) s.hub g).feedbackBy k q.rid = [] := by
  obtain ⟨ht, hmove⟩ := Hub.of_mover? hm
  obtain ⟨hp', ha'⟩ := apart_invariant.move s [] t g ⟨h.proper, h.apart⟩ hm
  obtain ⟨a, o⟩ := h.proper.owned
  obtain ⟨b, o'⟩ := hp'.owned
  have hc : g.clock = s.hub.clock := (Hub.move_of_move? hmove).framed.clock
  have next : (g.OnDuty k q id fun st => st.Until s.hub.clock q.period time) → (s.setHub g).OnTime k q id time := by
    intro hd
    refine ⟨hp', ha', ?_, ?_⟩
    · show g.OnDuty k q id fun st => st.Until g.clock q.period time
      rw [hc]
      exact hd
    · show g.clock < time
      rw [hc]
      exact h.ahead
  by_cases hj : t.job = .feedback q
  · rcases h.duty.move_own o h.apart o'.ids hp ht hmove hj with ⟨-, hd, hf⟩ | ⟨-, hd, ⟨hst, hf⟩ | ⟨⟨d, hd', hst⟩, -⟩⟩
    · exact ⟨next (hd _), hf⟩
    · -- it begins, and waits until then
      rcases (h.duty.stage ht hj).2 with hs | ⟨-, rfl⟩
      · rw [hst] at hs
        cases hs
      · exact ⟨next (hd.mono fun _ _ _ hs => .inl hs), hf⟩
    · -- its time has not come
      rcases (h.duty.stage ht hj).2 with hs | ⟨hs, -⟩ <;> rw [hst] at hs <;> cases hs
      exact absurd hd' (Nat.not_le.mpr h.ahead)
  · obtain ⟨hd, hf⟩ := h.duty.move_other o h.apart o'.ids ht hmove hj
    exact ⟨next hd, hf⟩

theorem settle (h : s.OnTime k q id time) (hp : q.period ≠ 0) :
    (s.setHub s.hub.settle).OnTime k q id time ∧ feedbackOf s.hub.settleChanges k q.rid = [] := by
  let P : Hub → List Change → Prop := fun g past => (s.setHub g).OnTime k q id time ∧ feedbackOf past k q.rid = []
  refine Hub.settle_keeps (P := P) (fun g past t g' hg hm => ?_) ⟨h, rfl⟩
  obtain ⟨hg', hf⟩ := hg.1.move hp hm
  refine ⟨hg', ?_⟩
  rw [feedbackOf_append, hg.2, feedbackOf_singleton]
  exact hf

/-- Commands do not change the time at which feedback will be given. -/
theorem perform (h : s.OnTime k q id time) (hc : ∀ n, c ≠ .advance n) : (s.perform c).1.OnTime k q id time := by
  obtain ⟨hp', ha'⟩ := apart_invariant.command s [] c ⟨h.proper, h.apart⟩ hc
  have hd := onDuty_perform h.duty h.proper h.apart hc
  have ha := h.ahead
  rw [← (deed_of_perform hc).clock.1] at hd ha
  exact ⟨hp', ha', hd, ha⟩

theorem shown (h : s.OnTime k q id time) : s.markShown.OnTime k q id time :=
  ⟨h.proper.shown, h.apart, h.duty, h.ahead⟩

/-- Once the hub has settled the scheduler waits. -/
theorem waits (h : s.OnTime k q id time) (hp : q.period ≠ 0) (hq : s.hub.step? = none) :
    s.hub.OnDuty k q id (· = .waiting (.deadline time)) := by
  refine h.duty.mono fun u hu hj hst => hst.resolve_right fun hr => ?_
  have hm : s.hub.move? u = none := List.findSome?_eq_none_iff.mp hq u hu
  have hc := (Hub.of_settled hq hu).2 q.token (by rw [hj]; rfl)
  simp [Hub.move?, Hub.moveScheduler?, hj, hc, hp, hr.1] at hm

end OnTime

/-! ## One nanosecond -/

/-- Where a session stands while the tasks run for which a beat has come. -/
structure Beating (s : Session) (k : Token) (q : Scheduler) (id : Nat) (g : Hub) (past : List Change) : Prop where
  proper : (s.setHub g).Proper
  apart : g.Apart
  ticked : s.hub.Ticked g
  duty : g.OnDuty k q id (· = .waiting (.deadline g.clock)) ∧ feedbackOf past k q.rid = []
    ∨ g.OnDuty k q id (· = .waiting (.deadline (g.clock + q.period)))
      ∧ feedbackOf past k q.rid = s.hub.roundAt q g.clock

theorem Beating.move {past : List Change} {g' : Hub} (h : s.Beating k q id g past) (hp : q.period ≠ 0)
    (hq : s.hub.step? = none) (hd : s.hub.Tidy) (hm : g.mover? = some (t, g')) :
    s.Beating k q id g' (past ++ [⟨.move t, g, g'⟩]) := by
  obtain ⟨ht, hmove⟩ := Hub.of_mover? hm
  obtain ⟨hp', ha'⟩ := apart_invariant.move (s.setHub g) past t g' ⟨h.proper, h.apart⟩ hm
  obtain ⟨⟨q', hj', hst⟩, hk⟩ := h.ticked.move hq hd hm
  obtain ⟨a, o⟩ := h.proper.owned
  obtain ⟨b, o'⟩ := hp'.owned
  have hc : g'.clock = g.clock := (Hub.move_of_move? hmove).framed.clock
  refine ⟨hp', ha', hk, ?_⟩
  rw [hc, feedbackOf_append, feedbackOf_singleton]
  by_cases hj : t.job = .feedback q
  · rcases h.duty with ⟨hd, hf⟩ | ⟨hd, -⟩
    · right
      rcases hd.move_own (g := g') o h.apart o'.ids hp ht hmove hj with ⟨hx, hd', hf'⟩ | ⟨-, hd', ⟨hr, -⟩ | ⟨-, hf'⟩⟩
      · refine ⟨hd' _, ?_⟩
        rw [hf, hf', ← h.ticked.roundAt, Hub.roundAt, if_pos (.inl hx)]
        rfl
      · rw [hst] at hr
        cases hr
      · refine ⟨hd', ?_⟩
        rw [hf, hf', h.ticked.roundAt]
        rfl
    · -- it has given feedback already
      have he := (hd.stage ht hj).2
      rw [hst] at he
      simp [hp] at he
  · rcases h.duty with ⟨hd, hf⟩ | ⟨hd, hf⟩
    · obtain ⟨hd', hf'⟩ := hd.move_other (g := g') o h.apart o'.ids ht hmove hj
      exact .inl ⟨hd', by rw [hf, hf']; rfl⟩
    · obtain ⟨hd', hf'⟩ := hd.move_other (g := g') o h.apart o'.ids ht hmove hj
      exact .inr ⟨hd', by rw [hf, hf', List.append_nil]⟩

/-- Once all tasks have run for which a beat has come, feedback has been given. -/
theorem Beating.over {past : List Change} (h : s.Beating k q id g past) (hp : q.period ≠ 0) (hq : g.step? = none) :
    g.OnDuty k q id (· = .waiting (.deadline (g.clock + q.period)))
      ∧ feedbackOf past k q.rid = s.hub.roundAt q g.clock := by
  rcases h.duty with ⟨hd, hf⟩ | hd
  · -- the scheduler has gone, as it would give feedback otherwise
    have none : ∀ u ∈ g.tasks, u.job ≠ .feedback q := by
      intro u hu hj
      have hm : g.move? u = none := List.findSome?_eq_none_iff.mp hq u hu
      have hc := (Hub.of_settled hq hu).2 q.token (by rw [hj]; rfl)
      simp [Hub.move?, Hub.moveScheduler?, hj, hc, hp, (hd.stage hu hj).2] at hm
    refine ⟨hd.mono fun u hu hj => absurd hj (none u hu), ?_⟩
    have hc : g.isCancelled q.token = true := by
      by_contra hn
      obtain ⟨u, hu, hj⟩ := hd.there (by simpa using hn)
      exact none u hu hj
    rw [hf, ← h.ticked.roundAt, Hub.roundAt, if_pos (.inl hc)]
  · exact hd

/-- When a nanosecond passes that is not the time for feedback none is given. -/
theorem OnTime.rest (h : s.OnTime k q id time) (hp : q.period ≠ 0) (hq : s.hub.step? = none)
    (hn : s.hub.clock + 1 ≠ time) : (s.setHub s.hub.tick).OnTime k q id time
      ∧ feedbackOf (Hub.settleChanges { s.hub with clock := s.hub.clock + 1 }) k q.rid = [] := by
  obtain ⟨hp', ha'⟩ := apart_invariant.clock s [] (s.hub.clock + 1) ⟨h.proper, h.apart⟩
  have hd := h.waits hp hq
  have later : (s.setHub { s.hub with clock := s.hub.clock + 1 }).OnTime k q id time :=
    ⟨hp', ha', ⟨hd.kin, hd.relay, hd.token, fun u hu hs q' hj => ?_, hd.there⟩, Nat.lt_of_le_of_ne h.ahead hn⟩
  · exact later.settle hp
  · obtain ⟨hq', hi, hs⟩ := hd.only u hu hs q' hj
    exact ⟨hq', hi, .inl hs⟩

/-- When the nanosecond passes that is the time for feedback it is given, and then again a period later. -/
theorem OnTime.beat (h : s.OnTime k q id time) (hp : q.period ≠ 0) (hq : s.hub.step? = none) (hd : s.hub.Tidy)
    (hn : s.hub.clock + 1 = time) : (s.setHub s.hub.tick).OnTime k q id (time + q.period)
      ∧ feedbackOf (Hub.settleChanges { s.hub with clock := s.hub.clock + 1 }) k q.rid = s.hub.roundAt q time := by
  subst hn
  obtain ⟨hp', ha'⟩ := apart_invariant.clock s [] (s.hub.clock + 1) ⟨h.proper, h.apart⟩
  have hw := h.waits hp hq
  have first : s.Beating k q id { s.hub with clock := s.hub.clock + 1 } [] :=
    ⟨hp', ha', s.hub.ticked_clock, .inl ⟨⟨hw.kin, hw.relay, hw.token, hw.only, hw.there⟩, rfl⟩⟩
  have last := Hub.settle_keeps (P := s.Beating k q id) (fun _ _ _ _ hg hm => hg.move hp hq hd hm) first
  obtain ⟨hd', hf⟩ := last.over hp (Hub.step?_settle _)
  have hc : s.hub.tick.clock = s.hub.clock + 1 := last.ticked.clock
  refine ⟨⟨last.proper, last.apart, hd'.mono fun _ _ _ hs => .inl (hs.trans ?_), ?_⟩, hf.trans ?_⟩
  · exact congrArg (fun c => Stage.waiting (.deadline (c + q.period))) hc
  · show s.hub.tick.clock < _
    omega
  · exact congrArg _ hc

/-! ## The next beat -/

/-- The scheduler of a relay's layer is going to give feedback at the next beat, in a session that has settled. -/
structure OnBeat (s : Session) (k : Token) (q : Scheduler) (id start : Nat) : Prop where
  time : s.OnTime k q id (beatAfter start q.period s.hub.clock)
  tidy : s.hub.Tidy
  quiet : s.hub.step? = none
  start : start ≤ s.hub.clock

namespace OnBeat

/-- A nanosecond later the scheduler is still on the beat, and has given feedback if this was one. -/
theorem tick (h : s.OnBeat k q id start) (hp : q.period ≠ 0) :
    (s.setHub s.hub.tick).OnBeat k q id start
      ∧ feedbackOf (Hub.settleChanges { s.hub with clock := s.hub.clock + 1 }) k q.rid
        = (beats start q.period s.hub.clock 1).flatMap (s.hub.roundAt q) := by
  have hc : s.hub.tick.clock = s.hub.clock + 1 := (Hub.framed_settle { s.hub with clock := s.hub.clock + 1 }).clock
  have next : (s.setHub s.hub.tick).OnTime k q id (if q.period ∣ s.hub.clock + 1 - start
      then beatAfter start q.period s.hub.clock + q.period else beatAfter start q.period s.hub.clock) →
      (s.setHub s.hub.tick).OnBeat k q id start := by
    intro ht
    rw [← beatAfter_succ h.start, ← hc] at ht
    exact ⟨ht, h.tidy.tick, Hub.step?_settle _, hc ▸ Nat.le_succ_of_le h.start⟩
  rw [beats_one]
  by_cases hnow : q.period ∣ s.hub.clock + 1 - start
  · have he := (beatAfter_eq_iff h.start).mpr hnow
    obtain ⟨ht, hf⟩ := h.time.beat hp h.quiet h.tidy he
    rw [if_pos hnow] at next ⊢
    refine ⟨next ht, hf.trans ?_⟩
    rw [he, List.flatMap_singleton]
  · obtain ⟨ht, hf⟩ := h.time.rest hp h.quiet fun e => hnow ((beatAfter_eq_iff h.start).mp e)
    rw [if_neg hnow] at next ⊢
    exact ⟨next ht, hf⟩

/-- So it is after any number of nanoseconds, and feedback has been given at each beat among them. -/
theorem ticks (n : Nat) (h : s.OnBeat k q id start) (hp : q.period ≠ 0) :
    (s.setHub (Hub.ticks n s.hub)).OnBeat k q id start ∧ (Hub.ticks n s.hub).clock = s.hub.clock + n
      ∧ feedbackOf (Hub.ticksChanges n s.hub) k q.rid
        = (beats start q.period s.hub.clock n).flatMap fun t =>
          (Hub.ticks (t - 1 - s.hub.clock) s.hub).roundAt q t := by
  induction n generalizing s with
  | zero => exact ⟨h, rfl, rfl⟩
  | succ n ih =>
    obtain ⟨h₁, hf₁⟩ := h.tick hp
    obtain ⟨h₂, hc₂, hf₂⟩ := ih h₁
    have hc : (s.setHub s.hub.tick).hub.clock = s.hub.clock + 1 :=
      (Hub.framed_settle { s.hub with clock := s.hub.clock + 1 }).clock
    rw [hc] at hc₂ hf₂
    refine ⟨h₂, hc₂.trans (Nat.add_right_comm _ 1 n), ?_⟩
    rw [Nat.add_comm n 1, beats_add, List.flatMap_append, Nat.add_comm 1 n, Hub.ticksChanges, feedbackOf_append, hf₁]
    refine congrArg₂ _ (List.flatMap_congr fun t ht => ?_) (hf₂.trans (List.flatMap_congr fun t ht => ?_))
    · obtain rfl : t = s.hub.clock + 1 := by
        have := mem_beats ht
        omega
      rw [Nat.add_sub_cancel, Nat.sub_self]
      rfl
    · have ht := mem_beats ht
      obtain ⟨m, rfl⟩ : ∃ m, t = s.hub.clock + 1 + 1 + m := ⟨t - (s.hub.clock + 1 + 1), by omega⟩
      rw [show s.hub.clock + 1 + 1 + m - 1 - (s.hub.clock + 1) = m by omega,
        show s.hub.clock + 1 + 1 + m - 1 - s.hub.clock = m + 1 by omega]
      rfl

end OnBeat

/-! ## Steps and runs -/

/-- The hub a nanosecond before a time that has been reached, after all that was done until then. -/
def justBefore (s : Session) : List Command → Nat → Hub
  | [], _ => s.hub
  | c :: cs, time =>
    if time ≤ (s.step c).1.hub.clock then s.hub.advance (time - 1 - s.hub.clock) else (s.step c).1.justBefore cs time

namespace OnBeat

theorem shown (h : s.OnBeat k q id start) : s.markShown.OnBeat k q id start :=
  ⟨h.time.shown, h.tidy, h.quiet, h.start⟩

/-- A step keeps the scheduler on the beat, and feedback is given at the beats that it passes. -/
theorem step (h : s.OnBeat k q id start) (hp : q.period ≠ 0) (c : Command) :
    (s.step c).1.OnBeat k q id start ∧ ∃ n, (s.step c).1.hub.clock = s.hub.clock + n
      ∧ feedbackOf (s.changes c) k q.rid
        = (beats start q.period s.hub.clock n).flatMap fun t => (s.hub.advance (t - 1 - s.hub.clock)).roundAt q t := by
  by_cases hc : ∀ n, c ≠ .advance n
  · have clock : (s.perform c).1.hub.clock = s.hub.clock := (deed_of_perform hc).clock.1
    obtain ⟨ht, hf⟩ := (h.time.perform hc).settle hp
    have hs : (s.perform c).1.hub.settle.clock = s.hub.clock := (Hub.framed_settle _).clock.trans clock
    refine ⟨?_, 0, hs, ?_⟩
    · refine (OnBeat.mk ?_ (((deed_of_perform hc).tidy h.tidy).settle) (Hub.step?_settle _) (hs ▸ h.start)).shown
      show ((s.perform c).1.setHub _).OnTime k q id (beatAfter start q.period (s.perform c).1.hub.settle.clock)
      rw [hs]
      exact ht
    · rw [changes, performChanges_of_ne hc, feedbackOf_append, hf]
      rfl
  · obtain ⟨ms, rfl⟩ := not_forall_not.mp hc
    obtain ⟨hs, hx⟩ := step_advance h.quiet h.tidy ms
    obtain ⟨h', hclock, hf⟩ := h.ticks (nanosecondsPerMillisecond * ms) hp
    rw [hs, hx]
    refine ⟨h'.shown, _, hclock, hf.trans (List.flatMap_congr fun t _ => ?_)⟩
    rw [(Hub.advance_eq_ticks h.quiet h.tidy _).1]

/-- A run keeps the scheduler on the beat, and feedback is given at the beats that it passes, as each finds the hub. -/
theorem after (cs : List Command) (h : s.OnBeat k q id start) (hp : q.period ≠ 0) :
    (s.after cs).OnBeat k q id start ∧ ∃ n, (s.after cs).hub.clock = s.hub.clock + n
      ∧ feedbackOf (s.history cs) k q.rid
        = (beats start q.period s.hub.clock n).flatMap fun t => (s.justBefore cs t).roundAt q t := by
  induction cs generalizing s with
  | nil => exact ⟨h, 0, rfl, rfl⟩
  | cons c cs ih =>
    obtain ⟨h₁, m, hc₁, hf₁⟩ := h.step hp c
    obtain ⟨h₂, n, hc₂, hf₂⟩ := ih h₁
    rw [hc₁] at hc₂ hf₂
    refine ⟨h₂, m + n, hc₂.trans (Nat.add_assoc _ m n), ?_⟩
    rw [history, feedbackOf_append, hf₁, hf₂, beats_add, List.flatMap_append]
    refine congrArg₂ _ (List.flatMap_congr fun t ht => ?_) (List.flatMap_congr fun t ht => ?_)
    · rw [justBefore, hc₁, if_pos (mem_beats ht).2]
    · rw [justBefore, hc₁, if_neg (Nat.not_le.mpr (mem_beats ht).1)]

end OnBeat

end Session

/-! ## Time that is split -/

namespace Hub

variable {h : Hub}

theorem ticked_tick (hq : h.step? = none) (hd : h.Tidy) : h.Ticked h.tick :=
  settle_keeps (P := fun g _ => h.Ticked g) (fun _ _ _ _ hg hm => (hg.move hq hd hm).2) h.ticked_clock

/-- Relays are as they were while time passes. -/
theorem relays_ticks (hq : h.step? = none) (hd : h.Tidy) (n : Nat) : (ticks n h).relays = h.relays := by
  induction n generalizing h with
  | zero => rfl
  | succ n ih =>
    have hr : h.tick.relays = h.relays := by rw [(ticked_tick hq hd).rest]
    exact (ih (step?_settle _) hd.tick).trans hr

end Hub

namespace Session

variable {s : Session}

/-- What is to be shown is a matter of the relays. -/
theorem markShown_setHub {h : Hub} (hr : h.relays = s.hub.relays) :
    (s.setHub h).markShown = s.markShown.setHub h := by
  have hu : (s.setHub h).unshown = s.unshown := by
    funext c
    unfold unshown setHub
    rw [hr]
  unfold markShown
  rw [hu]
  rfl

/-- What was shown need not be shown again. -/
theorem markShown_markShown (s : Session) : s.markShown.markShown = s.markShown := by
  have hu : ∀ c : FailureChannel, s.markShown.unshown { c with shown := c.shown + (s.unshown c).length } = [] := by
    intro c
    unfold unshown
    cases hr : s.hub.relays[c.relay]? with
    | none => simp [markShown, hr]
    | some r =>
      simp only [markShown, hr]
      apply List.drop_eq_nil_of_le
      rw [List.length_drop]
      omega
  have hc : s.markShown.markShown.channels = s.markShown.channels := by
    refine congrArg Table.mk ?_
    show List.map _ (List.map _ s.channels.entries) = _
    rw [List.map_map]
    refine List.map_congr_left fun e _ => ?_
    exact congrArg (fun us : List Failure => (e.1, ({ e.2 with shown := _ + us.length } : FailureChannel))) (hu e.2)
  exact congrArg (fun channels => ({ s with channels } : Session)) hc

/-- To let time pass in several steps is to let it pass in one. -/
theorem after_advances (hq : s.hub.step? = none) (hd : s.hub.Tidy) {ms : List Nat} (hm : ms ≠ []) :
    s.after (ms.map .advance) = (s.step (.advance ms.sum)).1
      ∧ s.history (ms.map .advance) = s.changes (.advance ms.sum) := by
  induction ms generalizing s with
  | nil => exact absurd rfl hm
  | cons m ms ih =>
    obtain ⟨he, hx⟩ := step_advance hq hd m
    have hq' := Hub.step?_ticks hq (nanosecondsPerMillisecond * m)
    have hd' := hd.ticks (nanosecondsPerMillisecond * m)
    rw [List.map_cons, after_cons, history, List.sum_cons]
    by_cases hms : ms = []
    · subst hms
      exact ⟨rfl, List.append_nil _⟩
    · obtain ⟨ih₁, ih₂⟩ := ih (s := (s.step (.advance m)).1) (he ▸ hq') (he ▸ hd') hms
      obtain ⟨he', hx'⟩ := step_advance (s := (s.step (.advance m)).1) (he ▸ hq') (he ▸ hd') ms.sum
      obtain ⟨he'', hx''⟩ := step_advance hq hd (m + ms.sum)
      obtain ⟨ht, htx⟩ := Hub.ticks_add (nanosecondsPerMillisecond * m) (nanosecondsPerMillisecond * ms.sum) s.hub
      rw [ih₁, ih₂, he', hx', he'', hx'', hx, he, Nat.mul_add, ht, htx]
      have hr := Hub.relays_ticks hq' hd' (nanosecondsPerMillisecond * ms.sum)
      refine ⟨?_, rfl⟩
      refine .trans ?_ (markShown_setHub (s := s.setHub _) hr).symm
      exact (markShown_setHub (s := (s.setHub _).markShown) hr).trans (congrArg (setHub · _) (markShown_markShown _))

/-- A run in which time is split does what a run does in which it is not. -/
theorem history_split (hq : s.hub.step? = none) (hd : s.hub.Tidy) (before after : List Command) {ms : List Nat}
    (hm : ms ≠ []) :
    s.history (before ++ ms.map .advance ++ after) = s.history (before ++ .advance ms.sum :: after) := by
  obtain ⟨he, hx⟩ := after_advances (s := s.after before) (step?_after hq before)
    (@Invariant.after _ tidy_invariant before s [] hd) hm
  rw [List.append_assoc, history_append, history_append, history_append, he, hx]
  rfl

end Session

end MediaRelay
