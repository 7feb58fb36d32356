import MediaRelay.Proofs.Names

/-!
# The tasks of a relay

- `Task.serves` tells the tasks that a relay has started for a layer, and `Task.belongsTo` those that it has started for
  any, by the tokens that they run under;
- `Hub.tasks_startRelay`: a relay that starts leaves such tasks behind all others.
-/

namespace MediaRelay

/-! ## Whose task it is -/

/-- Whether a job is a new one that no relay runs: its token, if it needs one, has not been taken before. -/
def Job.IsNew (j : Job) (next : Nat) : Prop :=
  (∀ p, j = .pump p → p.relay = none) ∧ ∀ k, j.token? = some k → k.ids = [next]

theorem Job.IsNew.isOwn {j : Job} {next : Nat} (h : j.IsNew next) : j.IsOwn :=
  ⟨h.1, fun k hk => congrArg List.tail (h.2 k hk)⟩

theorem Job.IsNew.of_token?_eq_none {j : Job} (h : j.token? = none) (next : Nat) : j.IsNew next :=
  ⟨(IsOwn.of_token?_eq_none h).1, fun k hk => by rw [h] at hk; cases hk⟩

namespace Task

variable {t u : Task} {k : Token} {rid rid' : String}

/-- Whether a task runs for a layer, under a token that was made from another one. -/
def serves (t : Task) (k : Token) (rid : String) : Bool :=
  match t.job with
  | .pump p => p.token.ids.tail = k.ids && p.rid = rid
  | .feedback s => s.token.ids.tail = k.ids && s.rid = rid
  | _ => false

/-- Whether a task runs under a token that was made from another one. -/
def belongsTo (t : Task) (k : Token) : Bool :=
  t.job.token?.any fun u => u.ids.tail = k.ids

theorem serves_congr (hj : t.job = u.job) (k : Token) (rid : String) : t.serves k rid = u.serves k rid := by
  unfold serves
  rw [hj]

theorem belongsTo_congr (hj : t.job = u.job) (k : Token) : t.belongsTo k = u.belongsTo k := by
  unfold belongsTo
  rw [hj]

theorem belongsTo_iff : t.belongsTo k = true ↔ ∃ u, t.job.token? = some u ∧ u.ids.tail = k.ids := by
  unfold belongsTo
  cases t.job.token? <;> simp

/-- What belongs to a relay serves one of its layers. -/
theorem belongsTo_iff_serves : t.belongsTo k = true ↔ ∃ rid, t.serves k rid = true := by
  unfold belongsTo serves
  cases t.job <;> simp [Job.token?]

theorem serves_unique (h : t.serves k rid = true) (h' : t.serves k rid' = true) : rid = rid' := by
  unfold serves at h h'
  cases hj : t.job with
  | pump | feedback =>
    simp only [hj, Bool.and_eq_true, decide_eq_true_eq] at h h'
    exact h.2.symm.trans h'.2
  | _ =>
    rw [hj] at h
    cases h

/-- A task that no relay runs belongs to none. -/
theorem belongsTo_of_isOwn (ho : t.job.IsOwn) (hk : k.ids ≠ []) : t.belongsTo k = false := by
  cases hb : t.belongsTo k with
  | false => rfl
  | true =>
    obtain ⟨u, hu, hi⟩ := belongsTo_iff.mp hb
    rw [ho.2 u hu] at hi
    exact absurd hi.symm hk

end Task

/-! ## Relays that start -/

namespace Hub

variable {h g : Hub} {t u : Task}

/-- Whether a task is one that a relay starts, which has not been started before and is not cancelled. -/
def Launches (h : Hub) (u : Task) : Prop :=
  ∃ (i : Nat) (r : Relay) (rid : String), h.relays[i]? = some r ∧ r.started = false ∧ h.isCancelled r.token = false
    ∧ u.serves r.token rid = true

/-- The tasks of a layer come behind all others and are ready to run. -/
theorem tasks_startLayer (h : Hub) (index : Nat) (r : Relay) (rid : String) :
    ∃ new, (h.startLayer index r rid).tasks = h.tasks ++ new
      ∧ ∀ u ∈ new, u.stage = .ready ∧ u.serves r.token rid = true := by
  unfold startLayer
  dsimp only
  split
  · exact ⟨[_, _], List.append_assoc _ _ _, by simp [TokenPool.child, Task.serves]⟩
  · exact ⟨[_], rfl, by simp [TokenPool.child, Task.serves]⟩

theorem tasks_startLayers (h : Hub) (index : Nat) (r : Relay) (rids : List String) :
    ∃ new, (rids.foldl (fun g rid => g.startLayer index r rid) h).tasks = h.tasks ++ new
      ∧ ∀ u ∈ new, u.stage = .ready ∧ ∃ rid ∈ rids, u.serves r.token rid = true := by
  induction rids generalizing h with
  | nil => exact ⟨[], (List.append_nil _).symm, by simp⟩
  | cons rid rids ih =>
    obtain ⟨new₁, ht₁, hn₁⟩ := h.tasks_startLayer index r rid
    obtain ⟨new₂, ht₂, hn₂⟩ := ih (h.startLayer index r rid)
    refine ⟨new₁ ++ new₂, by rw [List.foldl_cons, ht₂, ht₁, List.append_assoc], fun u hu => ?_⟩
    rcases List.mem_append.mp hu with hu | hu
    · exact ⟨(hn₁ u hu).1, rid, List.mem_cons_self, (hn₁ u hu).2⟩
    · obtain ⟨hs, rid', hr, hu⟩ := hn₂ u hu
      exact ⟨hs, rid', List.mem_cons_of_mem _ hr, hu⟩

/-- The tasks that a relay starts come behind all others and are ready to run. -/
theorem tasks_startRelay (h : Hub) (index : Nat) (rids : List String) :
    ∃ new, (h.startRelay index rids).1.tasks = h.tasks ++ new ∧ ∀ u ∈ new, u.stage = .ready ∧ h.Launches u := by
  have none : ∃ new, h.tasks = h.tasks ++ new ∧ ∀ u ∈ new, u.stage = .ready ∧ h.Launches u :=
    ⟨[], (List.append_nil _).symm, by simp⟩
  unfold startRelay
  split
  · exact none
  · next r hr =>
    split
    · exact none
    · next hs =>
      dsimp only
      split
      · exact none
      · next hc =>
        obtain ⟨new, ht, hn⟩ := tasks_startLayers
          { h with relays := h.relays.modify index fun r => { r with started := true } } index r rids
        refine ⟨new, ht, fun u hu => ?_⟩
        obtain ⟨hst, rid, -, hu⟩ := hn u hu
        have hc : h.isCancelled r.token = false := by simpa [isCancelled] using hc
        exact ⟨hst, index, r, rid, hr, by simpa using hs, hc, hu⟩

end Hub

end MediaRelay
