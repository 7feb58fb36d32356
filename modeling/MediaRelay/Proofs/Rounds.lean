import MediaRelay.Proofs.Ending

/-!
# Rounds of feedback

- `Change.feedbackBy` is the feedback that a task of a relay's layer gives in a change, and `Hub.roundAt` the feedback
  that is due for a layer at a time;
- `Hub.OnDuty`: a layer of a relay has one scheduler, which is there as long as its token is not cancelled; tasks other
  than the scheduler keep it as it is and give no feedback (`OnDuty.move_other`), and so do commands (`OnDuty.perform`);
  what the scheduler itself can do is said by `OnDuty.move_own`;
- `Hub.Ticked`: when a nanosecond passes nobody moves but schedulers whose deadline has come, once each
  (`Ticked.move`).
-/

namespace MediaRelay

/-! ## Feedback -/

/-- The batches that a change leaves at the writer of feedback, and when, if a task of a relay's layer makes it. -/
def Change.feedbackBy (x : Change) (k : Token) (rid : String) : List (Nat × List Rtcp.Packet) :=
  match x.cause with
  | .move t =>
    if t.serves k rid then
      (x.after.feedback.written.drop x.before.feedback.written.length).map fun batch => (x.before.clock, batch)
    else []
  | .command _ _ => []

/-- The feedback that is due for a layer at a time: none if the token is cancelled, the layer has no SSRC yet or the
writer is failing, and otherwise a request for a keyframe and then the target bitrate. -/
def Hub.roundAt (h : Hub) (q : Scheduler) (time : Nat) : List (Nat × List Rtcp.Packet) :=
  if h.isCancelled q.token ∨ h.ssrcOf q.rid = 0 ∨ h.feedback.failing then []
  else [(time, [.pictureLoss 0 (h.ssrcOf q.rid)]),
    (time, [.maximumBitrate 0 (Rtcp.singlePrecision q.bitrate) [h.ssrcOf q.rid]])]

/-- Writing a round leaves all its batches, or none if the writer is failing. -/
theorem ControlWriter.writeRound_eq (w : ControlWriter) (ssrc : Ssrc) (bitrate : Nat) :
    w.writeRound ssrc bitrate
      = { w with written := w.written ++ if w.failing then [] else feedbackRound ssrc bitrate } := by
  unfold writeRound
  induction feedbackRound ssrc bitrate generalizing w with
  | nil => simp
  | cons batch batches ih =>
    rw [List.foldl_cons, ih, write]
    cases hf : w.failing <;> simp [hf]

theorem Change.feedbackBy_eq_nil {t : Task} {h g : Hub} (hf : g.feedback = h.feedback) (k : Token) (rid : String) :
    (Change.mk (.move t) h g).feedbackBy k rid = [] := by
  unfold feedbackBy
  dsimp only
  split
  · rw [hf, List.drop_length, List.map_nil]
  · rfl

/-- A round of a layer's scheduler hands out the feedback that is due. -/
theorem Change.feedbackBy_round {t : Task} {h g : Hub} {k : Token} {q : Scheduler} (hs : t.serves k q.rid = true)
    (hc : h.isCancelled q.token = false) (hg : g.feedback = h.feedback.writeRound (h.ssrcOf q.rid) q.bitrate) :
    (Change.mk (.move t) h g).feedbackBy k q.rid = h.roundAt q h.clock := by
  unfold feedbackBy Hub.roundAt
  dsimp only
  rw [if_pos hs, hc, hg, ControlWriter.writeRound_eq]
  dsimp only
  rw [List.drop_left]
  unfold feedbackRound
  cases hf : h.feedback.failing with
  | true => simp
  | false => by_cases hz : h.ssrcOf q.rid = 0 <;> simp [hz]

namespace Hub

variable {h g : Hub} {t u : Task}

theorem feedback_startRelay (h : Hub) (index : Nat) (rids : List String) :
    (h.startRelay index rids).1.feedback = h.feedback := by
  refine startRelay_keeps (P := fun g => g.feedback = h.feedback) rfl rfl (fun g r rid hg => ?_) rids
  unfold startLayer
  dsimp only
  split <;> exact hg

theorem feedback_failPump (h : Hub) (t : Task) (p : Pump) (cause : Error) :
    (h.failPump t p cause).feedback = h.feedback := by
  unfold failPump
  split <;> rfl

/-- What a scheduler does: it ends, begins, or gives feedback. -/
theorem scheduler_move {q : Scheduler} (hj : t.job = .feedback q) (hm : h.move? t = some g) :
    (h.isCancelled q.token = true ∨ q.period = 0) ∧ g = h.retire t .feedback
      ∨ t.stage = .ready ∧ h.isCancelled q.token = false ∧ g = h.park t (.deadline (h.clock + q.period))
      ∨ h.isCancelled q.token = false ∧ ∃ time, t.stage = .waiting (.deadline time) ∧ time ≤ h.clock
        ∧ g = park { h with feedback := h.feedback.writeRound (h.ssrcOf q.rid) q.bitrate } t
          (.deadline (h.clock + q.period)) := by
  cases move_of_move? hm with
  | expire hj' hc =>
    cases hj.symm.trans hj'
    exact .inl ⟨hc, rfl⟩
  | begin hj' hc _ hs =>
    cases hj.symm.trans hj'
    exact .inr (.inl ⟨hs, hc, rfl⟩)
  | @round _ time hj' hc _ hs hd =>
    cases hj.symm.trans hj'
    exact .inr (.inr ⟨hc, time, hs, hd, rfl⟩)
  | park hjr => simp [hj, Job.isReading] at hjr
  | read hj' | forward hj' | refuse hj' | fail hj' | unrouted hj' | cease hj' | announce hj' | greet hj' =>
    cases hj.symm.trans hj'

/-- In a hub that has settled all schedulers have a period. -/
theorem period_ne_zero_of_settled {q : Scheduler} (hq : h.step? = none) (hu : u ∈ h.tasks) (hj : u.job = .feedback q) :
    q.period ≠ 0 := by
  intro hp
  have hm : h.move? u = none := List.findSome?_eq_none_iff.mp hq u hu
  simp [move?, moveScheduler?, hj, hp] at hm

/-- Only schedulers give feedback. -/
theorem Move.feedback (m : Move h t g) (hj : ∀ q, t.job ≠ .feedback q) : g.feedback = h.feedback := by
  cases m with
  | round hq => exact absurd hq (hj _)
  | refuse | fail | unrouted => exact feedback_failPump _ t _ _
  | announce =>
    unfold Hub.announce
    split
    · rfl
    · exact (h.dismiss t).feedback_startRelay _ _
    · dsimp only
      split <;> rfl
  | greet =>
    unfold greeted
    split <;> rfl
  | _ => rfl

/-! ## The scheduler of a layer -/

/-- A relay that was started has one scheduler for a layer at most, which is at some stage and is there unless its token
is cancelled; all tasks of the layer have that token. -/
structure OnDuty (h : Hub) (k : Token) (q : Scheduler) (id : Nat) (P : Stage → Prop) : Prop where
  kin : q.token.ids.tail = k.ids
  relay : ∃ (j : Nat) (r : Relay), h.relays[j]? = some r ∧ r.token = k ∧ r.started = true
  token : ∀ u ∈ h.tasks, u.serves k q.rid = true → u.job.token? = some q.token
  only : ∀ u ∈ h.tasks, u.serves k q.rid = true → ∀ q', u.job = .feedback q' → q' = q ∧ u.id = id ∧ P u.stage
  there : h.isCancelled q.token = false → ∃ u ∈ h.tasks, u.job = .feedback q

namespace OnDuty

variable {k : Token} {q : Scheduler} {id : Nat} {P P' : Stage → Prop} {names : Table String Token} {a : Leases}

theorem serves (hk : h.OnDuty k q id P) (hj : u.job = .feedback q) : u.serves k q.rid = true := by
  simp [Task.serves, hj, hk.kin]

/-- The scheduler is at a stage of the kind that is known. -/
theorem stage (hk : h.OnDuty k q id P) (hu : u ∈ h.tasks) (hj : u.job = .feedback q) : u.id = id ∧ P u.stage :=
  (hk.only u hu (hk.serves hj) q hj).2

theorem mono (hk : h.OnDuty k q id P) (hP : ∀ u ∈ h.tasks, u.job = .feedback q → P u.stage → P' u.stage) :
    h.OnDuty k q id P' := by
  refine ⟨hk.kin, hk.relay, hk.token, fun u hu hs q' hj => ?_, hk.there⟩
  obtain ⟨rfl, hi, hp⟩ := hk.only u hu hs q' hj
  exact ⟨rfl, hi, hP u hu hj hp⟩

/-- A relay that was started starts no more tasks. -/
theorem old (hk : h.OnDuty k q id P) (o : Owned h names a) (ha : h.Apart) (hb : h.Begets u)
    (hs : u.serves k q.rid = true) : ∃ v ∈ h.tasks, v.id = u.id ∧ v.job = u.job := by
  obtain ⟨j, r, hr, rfl, hst⟩ := hk.relay
  exact o.old_of_belongsTo ha hr hst hb (Task.belongsTo_iff_serves.mpr ⟨_, hs⟩)

/-- The layer keeps its scheduler if all its tasks are old and the scheduler stays. -/
theorem next (hk : h.OnDuty k q id P) (o : Owned h names a) (ha : h.Apart) (ho : h.Onward g)
    (hb : ∀ u ∈ g.tasks, h.Begets u)
    (hst : ∀ u ∈ g.tasks, u.job = .feedback q → u.id = id → P' u.stage)
    (hth : ∀ u ∈ h.tasks, u.job = .feedback q → g.isCancelled q.token = false → ∃ v ∈ g.tasks, v.job = .feedback q) :
    g.OnDuty k q id P' := by
  refine ⟨hk.kin, ?_, fun u hu hs => ?_, fun u hu hs q' hj => ?_, fun hc => ?_⟩
  · obtain ⟨j, r, hr, ht, hs⟩ := hk.relay
    obtain ⟨r', hr', hon⟩ := ho.relays j r hr
    exact ⟨j, r', hr', hon.token.trans ht, hon.started hs⟩
  · obtain ⟨v, hv, -, hvj⟩ := hk.old o ha (hb u hu) hs
    rw [← hvj]
    exact hk.token v hv (Task.serves_congr hvj k q.rid ▸ hs)
  · obtain ⟨v, hv, hvi, hvj⟩ := hk.old o ha (hb u hu) hs
    obtain ⟨rfl, hi, -⟩ := hk.only v hv (Task.serves_congr hvj k q.rid ▸ hs) q' (hvj.trans hj)
    exact ⟨rfl, hvi ▸ hi, hst u hu hj (hvi ▸ hi)⟩
  · have hc' : h.isCancelled q.token = false := by
      by_contra hn
      rw [ho.isCancelled (by simpa using hn)] at hc
      cases hc
    obtain ⟨u, hu, hj⟩ := hk.there hc'
    exact hth u hu hj hc

/-- A task that was there and is not the one that moves is as it was. -/
theorem unmoved (hk : h.OnDuty k q id P) (o : Owned h names a) (ha : h.Apart) (hids : (g.tasks.map Task.id).Nodup)
    (ht : t ∈ h.tasks) (hm : h.move? t = some g) (hu : u ∈ g.tasks) (hj : u.job = .feedback q) (hne : u.id ≠ t.id) :
    u ∈ h.tasks := by
  have hr := retasked hm
  obtain ⟨v, hv, hvi, -⟩ := hk.old o ha (hr.begets ht hu) (hk.serves hj)
  have hvg := hr.others (Owned.mem_others.mpr ⟨hv, hvi ▸ hne⟩)
  rw [← List.inj_on_of_nodup_map hids hvg hu hvi]
  exact hv

/-- Other tasks keep the scheduler as it is, and give no feedback for its layer. -/
theorem move_other (hk : h.OnDuty k q id P) (o : Owned h names a) (ha : h.Apart) (hids : (g.tasks.map Task.id).Nodup)
    (ht : t ∈ h.tasks) (hm : h.move? t = some g) (hj : t.job ≠ .feedback q) :
    g.OnDuty k q id P ∧ (Change.mk (.move t) h g).feedbackBy k q.rid = [] := by
  have m := move_of_move? hm
  have hr := retasked hm
  refine ⟨hk.next o ha m.onward (fun u hu => hr.begets ht hu) (fun u hu hju _ => ?_) (fun u hu hju _ => ?_), ?_⟩
  · obtain ⟨v, hv, hvi, hvj⟩ := hk.old o ha (hr.begets ht hu) (hk.serves hju)
    have hne : u.id ≠ t.id := fun e => by
      rw [List.inj_on_of_nodup_map o.ids hv ht (hvi.trans e)] at hvj
      exact hj (hvj.trans hju)
    exact (hk.stage (hk.unmoved o ha hids ht hm hu hju hne) hju).2
  · refine ⟨u, hr.others (Owned.mem_others.mpr ⟨hu, fun e => ?_⟩), hju⟩
    rw [List.inj_on_of_nodup_map o.ids hu ht e] at hju
    exact hj hju
  · by_cases hs : t.serves k q.rid = true
    · refine Change.feedbackBy_eq_nil (m.feedback fun q' hq' => ?_) k q.rid
      obtain ⟨rfl, -⟩ := hk.only t ht hs q' hq'
      exact hj hq'
    · simp [Change.feedbackBy, hs]

/-- What the scheduler does: it ends if its token is cancelled, begins, or gives feedback if its deadline has come, and
then waits for a period. -/
theorem move_own (hk : h.OnDuty k q id P) (o : Owned h names a) (ha : h.Apart) (hids : (g.tasks.map Task.id).Nodup)
    (hp : q.period ≠ 0) (ht : t ∈ h.tasks) (hm : h.move? t = some g) (hj : t.job = .feedback q) :
    (h.isCancelled q.token = true ∧ (∀ P', g.OnDuty k q id P')
        ∧ (Change.mk (.move t) h g).feedbackBy k q.rid = [])
      ∨ h.isCancelled q.token = false ∧ g.OnDuty k q id (· = .waiting (.deadline (h.clock + q.period)))
        ∧ (t.stage = .ready ∧ (Change.mk (.move t) h g).feedbackBy k q.rid = []
          ∨ (∃ time ≤ h.clock, t.stage = .waiting (.deadline time))
            ∧ (Change.mk (.move t) h g).feedbackBy k q.rid = h.roundAt q h.clock) := by
  have hr := retasked hm
  have ho := (move_of_move? hm).onward
  have hid := (hk.stage ht hj).1
  have next : ∀ P' : Stage → Prop, (∀ u ∈ g.tasks, u.id = t.id → P' u.stage) →
      (g.isCancelled q.token = false → ∃ v ∈ g.tasks, v.job = .feedback q) → g.OnDuty k q id P' := by
    intro P' hst hth
    refine hk.next o ha ho (fun u hu => hr.begets ht hu) (fun u hu hju hi => ?_) (fun _ _ _ hc => hth hc)
    exact hst u hu (hi.trans hid.symm)
  have gone : ∀ {u : Task}, u ∈ h.others t.id → u.id ≠ t.id := fun hu => (Owned.mem_others.mp hu).2
  have parked : ∀ {u : Task} {time : Nat}, u ∈ h.others t.id ++ [t.at (.deadline time)] → u.id = t.id →
      u.stage = .waiting (.deadline time) := by
    intro u time hu hi
    rcases List.mem_append.mp hu with hu | hu
    · exact absurd hi (gone hu)
    · rw [List.mem_singleton.mp hu]
      rfl
  have last : ∀ {time : Nat}, ∃ v ∈ h.others t.id ++ [t.at (.deadline time)], v.job = .feedback q :=
    ⟨_, List.mem_append_right _ (List.mem_singleton_self _), hj⟩
  have hs := hk.serves hj
  rcases scheduler_move hj hm with ⟨hc, rfl⟩ | ⟨hst, hc, rfl⟩ | ⟨hc, time, hst, hd, rfl⟩
  · have hc := hc.resolve_right hp
    refine .inl ⟨hc, fun P' => next P' (fun u hu hi => absurd hi (gone hu)) fun hc' => ?_, ?_⟩
    · have hc' : h.isCancelled q.token = false := hc'
      rw [hc] at hc'
      cases hc'
    · exact Change.feedbackBy_eq_nil rfl _ _
  · exact .inr ⟨hc, next _ (fun u hu hi => parked hu hi) fun _ => last, .inl ⟨hst, Change.feedbackBy_eq_nil rfl _ _⟩⟩
  · refine .inr ⟨hc, next _ (fun u hu hi => parked hu hi) fun _ => last, .inr ⟨⟨time, hd, hst⟩, ?_⟩⟩
    exact Change.feedbackBy_round hs hc rfl

end OnDuty

end Hub

namespace Session

variable {s : Session} {k : Token} {q : Scheduler} {id : Nat} {P : Stage → Prop}

/-- Commands keep the scheduler of a layer as it is. -/
theorem onDuty_perform (hk : s.hub.OnDuty k q id P) (hp : s.Proper) (ha : s.hub.Apart) {c : Command}
    (hc : ∀ n, c ≠ .advance n) : (s.perform c).1.hub.OnDuty k q id P := by
  have d := deed_of_perform (s := s) hc
  obtain ⟨b, o'⟩ := (hp.perform hc).owned
  obtain ⟨a, o⟩ := hp.owned
  -- a task of a relay has no name by which it could be dropped
  have stays : ∀ u ∈ s.hub.tasks, u.job = .feedback q → u ∈ (s.perform c).1.hub.tasks := by
    intro u hu hj
    refine d.tasksFrom.2 u hu fun name hn => ?_
    have ho := ((hp.named name u.id hn).2 u hu rfl).2 q.token (by rw [hj]; rfl)
    obtain ⟨j, r, hr, hrk, -⟩ := hk.relay
    rw [hk.kin, ← hrk] at ho
    exact o.ids_ne_nil (List.mem_of_getElem? hr) ho
  refine hk.next o ha (d.onward hp.sound) (fun u hu => d.begets hu) (fun u hu hj _ => ?_)
    fun u hu hj _ => ⟨u, stays u hu hj, hj⟩
  obtain ⟨v, hv, hvi, hvj⟩ := hk.old o ha (d.begets hu) (hk.serves hj)
  have huv := List.inj_on_of_nodup_map o'.ids (stays v hv (hvj.trans hj)) hu hvi
  rw [← huv]
  exact (hk.stage hv (hvj.trans hj)).2

end Session

/-! ## One nanosecond -/

namespace Hub

variable {h g k : Hub} {t u : Task}

/-- A hub in which a nanosecond has passed and some schedulers have given feedback. -/
structure Ticked (h g : Hub) : Prop where
  rest : g = { h with clock := h.clock + 1, feedback := g.feedback, tasks := g.tasks }
  failing : g.feedback.failing = h.feedback.failing
  tasks : ∀ u ∈ g.tasks, u ∈ h.tasks ∨ ∃ q, u.job = .feedback q ∧ h.isCancelled q.token = false ∧ q.period ≠ 0
    ∧ u.stage = .waiting (.deadline (g.clock + q.period))

theorem ticked_clock (h : Hub) : h.Ticked { h with clock := h.clock + 1 } :=
  ⟨rfl, rfl, fun _ hu => .inl hu⟩

namespace Ticked

theorem isCancelled (hg : h.Ticked g) (x : Token) : g.isCancelled x = h.isCancelled x := by
  rw [hg.rest]
  rfl

theorem clock (hg : h.Ticked g) : g.clock = h.clock + 1 := by
  rw [hg.rest]

/-- What is due in the nanosecond does not depend on who has moved already. -/
theorem roundAt (hg : h.Ticked g) (q : Scheduler) (time : Nat) : g.roundAt q time = h.roundAt q time := by
  have hs : g.ssrcOf q.rid = h.ssrcOf q.rid := by
    rw [hg.rest]
    rfl
  unfold Hub.roundAt
  rw [hg.isCancelled, hs, hg.failing]

/-- Who has not moved in the nanosecond, and can, has waited for it. -/
theorem stage_of_move (hq : h.step? = none) (hd : h.Tidy) (hg : h.Ticked g) (hu : t ∈ h.tasks) (ht : t ∈ g.tasks)
    (hm : g.move? t = some k) : t.stage = .waiting (.deadline g.clock) := by
  have hwait : h.move? t = none := List.findSome?_eq_none_iff.mp hq t hu
  have due : ∃ d, deadline? t = some d ∧ d ≤ g.clock := by
    by_contra hn
    have still : g.move? t = none := by
      refine move?_still hu ht (by rw [hg.rest]) (by rw [hg.rest]) (fun x _ => hg.isCancelled x) (fun d hdl => ?_) hwait
      exact Nat.not_le.mp fun hle => hn ⟨d, hdl, hle⟩
    rw [still] at hm
    cases hm
  obtain ⟨d, hdl, hle⟩ := due
  have hlt := lt_deadline hq hd hu hdl
  have hclock := hg.clock
  obtain rfl : d = g.clock := by omega
  unfold deadline? at hdl
  split at hdl
  · next hs =>
    cases hdl
    exact hs
  · cases hdl

/-- A scheduler gives its feedback in the nanosecond and waits for a period. -/
theorem round (hg : h.Ticked g) {q : Scheduler} (hj : t.job = .feedback q) (hc : h.isCancelled q.token = false)
    (hp : q.period ≠ 0) (ssrc : Ssrc) :
    h.Ticked (park { g with feedback := g.feedback.writeRound ssrc q.bitrate } t (.deadline (g.clock + q.period))) := by
  refine ⟨by rw [Hub.park, hg.rest], ?_, fun u hu => ?_⟩
  · show (g.feedback.writeRound ssrc q.bitrate).failing = _
    rw [ControlWriter.writeRound_eq]
    exact hg.failing
  · rcases List.mem_append.mp hu with hu | hu
    · exact hg.tasks u (Owned.mem_others.mp hu).1
    · rw [List.mem_singleton.mp hu]
      exact .inr ⟨q, hj, hc, hp, rfl⟩

/-- Whoever moves is a scheduler that has waited for this nanosecond. -/
theorem move (hq : h.step? = none) (hd : h.Tidy) (hg : h.Ticked g) (hm : g.mover? = some (t, k)) :
    (∃ q, t.job = .feedback q ∧ t.stage = .waiting (.deadline g.clock)) ∧ h.Ticked k := by
  obtain ⟨ht, hmove⟩ := of_mover? hm
  rcases hg.tasks t ht with hth | ⟨q, hj, hc, hp, hs⟩
  · -- it has not moved yet
    have hst := stage_of_move hq hd hg hth ht hmove
    obtain ⟨q, hj⟩ := hd.timed t hth _ hst
    refine ⟨⟨q, hj, hst⟩, ?_⟩
    have hc := (of_settled hq hth).2 q.token (by rw [hj]; rfl)
    have hp := period_ne_zero_of_settled hq hth hj
    rcases scheduler_move hj hmove with ⟨he, -⟩ | ⟨hs, -⟩ | ⟨-, -, -, -, rfl⟩
    · rw [hg.isCancelled, hc] at he
      exact absurd he (by simp [hp])
    · rw [hst] at hs
      cases hs
    · exact hg.round hj hc hp _
  · -- it has given its feedback, and a period is not over
    rcases scheduler_move hj hmove with ⟨he, -⟩ | ⟨hs', -⟩ | ⟨-, time, hs', hle, -⟩
    · rw [hg.isCancelled, hc] at he
      exact absurd he (by simp [hp])
    · rw [hs] at hs'
      cases hs'
    · rw [hs] at hs'
      cases hs'
      omega

end Ticked

end Hub

end MediaRelay
