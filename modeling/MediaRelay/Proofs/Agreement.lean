import MediaRelay.Proofs.Views

/-!
# Hubs that agree

`Hub.Agree` relates two hubs that look the same in a view. What is done to both alike keeps them in agreement: starting
and ending tasks (`Agree.spawn`, `Agree.retask`), starting a relay (`Agree.startRelay`), giving up a pump
(`Agree.failPump`), reading (`Agree.read`).
-/

namespace MediaRelay

open List (Forall₂)

/-! ## Forwarders and relays -/

/-- What it means for two options to be related. -/
theorem rel_cases {α β : Type} {R : α → β → Prop} {a : Option α} {b : Option β} (h : Option.Rel R a b) :
    (a = none ∧ b = none) ∨ ∃ x y, a = some x ∧ b = some y ∧ R x y := by
  cases h with
  | none => exact .inl ⟨rfl, rfl⟩
  | some h => exact .inr ⟨_, _, rfl, rfl, h⟩

/-- Layers that are looked at are forwarded to linked tracks. -/
def Forwarder.Agree (v : View) (l : Links) (f g : Forwarder) : Prop :=
  ∀ rid, v.rids rid = true → Option.Rel l.Rel (f.routes.find? rid) (g.routes.find? rid)

/-- The same has been left at the writers of both sides. -/
def Egress.LeftAlike (e e' f f' : Egress) : Prop :=
  ∀ name, ∃ ps, (e'.writer name).written = (e.writer name).written ++ ps
    ∧ (f'.writer name).written = (f.writer name).written ++ ps

theorem Egress.LeftAlike.refl (e f : Egress) : LeftAlike e e f f :=
  fun _ => ⟨[], (List.append_nil _).symm, (List.append_nil _).symm⟩

namespace Forwarder.Agree

variable {v : View} {l : Links} {f g : Forwarder} {rid : String}

theorem symm (h : f.Agree v l g) : g.Agree v l.symm f := by
  intro rid hr
  rcases rel_cases (h rid hr) with ⟨hf, hg⟩ | ⟨i, j, hf, hg, hl⟩ <;> rw [hf, hg]
  · exact .none
  · exact .some hl

theorem mono (h : f.Agree v l g) {l' : Links} (hl : l.Le l') : f.Agree v l' g := by
  intro rid hr
  rcases rel_cases (h rid hr) with ⟨hf, hg⟩ | ⟨i, j, hf, hg, hij⟩ <;> rw [hf, hg]
  · exact .none
  · exact .some (hl i j hij)

theorem has (h : f.Agree v l g) (hr : v.rids rid = true) : f.has rid = g.has rid := by
  unfold Forwarder.has
  rcases rel_cases (h rid hr) with ⟨hf, hg⟩ | ⟨i, j, hf, hg, -⟩
  · rw [hf, hg]
  · rw [hf, hg]
    rfl

/-- Forwarding a packet of a layer that is looked at comes to the same. -/
theorem forward (h : f.Agree v l g) {e e' : Egress} (he : e.Agree v l e') (hr : v.rids rid = true) (p : Rtp.Packet) :
    (f.forward e rid p).2 = (g.forward e' rid p).2
      ∧ Egress.LeftAlike e (f.forward e rid p).1 e' (g.forward e' rid p).1 := by
  rcases rel_cases (h rid hr) with ⟨hf, hg⟩ | ⟨i, j, hf, hg, hl⟩
  · unfold Forwarder.forward
    rw [hf, hg]
    exact ⟨rfl, .refl e e'⟩
  · obtain ⟨hw, ho⟩ := e.forward_fate hf p
    obtain ⟨hw', ho'⟩ := e'.forward_fate hg p
    rw [← he.fate hl p] at hw' ho'
    exact ⟨ho.trans ho'.symm, fun name => ⟨_, hw name, hw' name⟩⟩

end Forwarder.Agree

/-- Relays with the same token that are started or not and forward alike; failures of other layers may differ. -/
structure Relay.Agree (v : View) (l : Links) (r r' : Relay) : Prop where
  forwarder : r.forwarder.Agree v l r'.forwarder
  token : r.token = r'.token
  started : r.started = r'.started
  failures : r.failures.filter (fun f => v.rids f.rid) = r'.failures.filter fun f => v.rids f.rid

theorem Relay.Agree.symm {v : View} {l : Links} {r r' : Relay} (h : r.Agree v l r') : r'.Agree v l.symm r :=
  ⟨h.forwarder.symm, h.token.symm, h.started.symm, h.failures.symm⟩

theorem Relay.Agree.mono {v : View} {l l' : Links} {r r' : Relay} (h : r.Agree v l r') (hl : l.Le l') :
    r.Agree v l' r' :=
  { h with forwarder := h.forwarder.mono hl }

/-! ## Tasks -/

/-- Whether a read is looked at: it reads control data, or media of a layer that is looked at. -/
def Read.isSeen (v : View) (q : Read) : Bool :=
  match q.source with
  | .media rid => v.rids rid
  | _ => true

/-- Whether a job is looked at. -/
def Job.isSeen (v : View) : Job → Bool
  | .read q => q.isSeen v
  | .pump p => v.rids p.rid
  | .feedback s => v.rids s.rid
  | .announce _ => true
  | .greet _ rid => v.rids rid

/-- Jobs that are the same, but for the numbers of outbound tracks. -/
inductive Job.Agree (v : View) (l : Links) : Job → Job → Prop
  | read (q : Read) : Agree v l (.read q) (.read q)
  | pump (rid : String) (token : Token) (relay : Option Nat) {f g : Forwarder} (hf : f.Agree v l g) :
      Agree v l (.pump ⟨rid, f, token, relay⟩) (.pump ⟨rid, g, token, relay⟩)
  | feedback (s : Scheduler) : Agree v l (.feedback s) (.feedback s)
  | announce (rids : List String) : Agree v l (.announce rids) (.announce rids)
  | greet (name rid : String) : Agree v l (.greet name rid) (.greet name rid)

/-- Tasks with the same number, at the same stage, whose jobs agree. -/
structure Task.Agree (v : View) (l : Links) (t u : Task) : Prop where
  id : t.id = u.id
  stage : t.stage = u.stage
  job : t.job.Agree v l u.job

namespace Job.Agree

variable {v : View} {l : Links} {j k : Job}

theorem symm (h : j.Agree v l k) : k.Agree v l.symm j := by
  cases h with
  | pump rid token relay hf => exact .pump rid token relay hf.symm
  | read q => exact .read q
  | feedback s => exact .feedback s
  | announce rids => exact .announce rids
  | greet name rid => exact .greet name rid

theorem mono (h : j.Agree v l k) {l' : Links} (hl : l.Le l') : j.Agree v l' k := by
  cases h with
  | pump rid token relay hf => exact .pump rid token relay (hf.mono hl)
  | read q => exact .read q
  | feedback s => exact .feedback s
  | announce rids => exact .announce rids
  | greet name rid => exact .greet name rid

theorem isSeen (h : j.Agree v l k) : j.isSeen v = k.isSeen v := by
  cases h <;> rfl

theorem token (h : j.Agree v l k) : j.token? = k.token? := by
  cases h <;> rfl

end Job.Agree

theorem Task.Agree.symm {v : View} {l : Links} {t u : Task} (h : t.Agree v l u) : u.Agree v l.symm t :=
  ⟨h.id.symm, h.stage.symm, h.job.symm⟩

/-- Two lists of tasks agree in the tasks that are looked at. -/
def TasksAgree (v : View) (l : Links) (ts us : List Task) : Prop :=
  Forall₂ (Task.Agree v l) (ts.filter (·.job.isSeen v)) (us.filter (·.job.isSeen v))

namespace TasksAgree

variable {v : View} {l : Links} {ts us ts' us' : List Task} {t u : Task}

theorem symm (h : TasksAgree v l ts us) : TasksAgree v l.symm us ts :=
  h.flip.imp fun _ _ => Task.Agree.symm

theorem mono (h : TasksAgree v l ts us) {l' : Links} (hl : l.Le l') : TasksAgree v l' ts us :=
  h.imp fun _ _ htu => { htu with job := htu.job.mono hl }

theorem append (h : TasksAgree v l ts us) (h' : TasksAgree v l ts' us') : TasksAgree v l (ts ++ ts') (us ++ us') := by
  unfold TasksAgree
  rw [List.filter_append, List.filter_append]
  exact List.rel_append h h'

theorem singleton (h : t.Agree v l u) : TasksAgree v l [t] [u] := by
  unfold TasksAgree
  have hj := h.job.isSeen
  cases hs : t.job.isSeen v with
  | true =>
    rw [hs] at hj
    simpa [hs, ← hj] using h
  | false =>
    rw [hs] at hj
    simp [hs, ← hj]

theorem cons (h : t.Agree v l u) (h' : TasksAgree v l ts us) : TasksAgree v l (t :: ts) (u :: us) :=
  (singleton h).append h'

/-- A task that is not looked at does not count. -/
theorem cons_left (ht : t.job.isSeen v = false) (h : TasksAgree v l ts us) : TasksAgree v l (t :: ts) us := by
  unfold TasksAgree at h ⊢
  simpa [ht] using h

theorem append_left (ht : t.job.isSeen v = false) (h : TasksAgree v l ts us) : TasksAgree v l (ts ++ [t]) us := by
  unfold TasksAgree at h ⊢
  simpa [ht] using h

/-- The tasks of one number go. -/
theorem others (h : TasksAgree v l ts us) (id : Nat) :
    TasksAgree v l (ts.filter fun t => t.id ≠ id) (us.filter fun u => u.id ≠ id) := by
  unfold TasksAgree at h ⊢
  rw [List.filter_comm, List.filter_comm (p := fun u : Task => u.job.isSeen v)]
  refine List.rel_filter ?_ h
  intro t u htu
  simp [htu.id]

/-- The tasks of a number that is not looked at go. -/
theorem others_left (h : TasksAgree v l ts us) {id : Nat} (hid : ∀ t ∈ ts, t.id = id → t.job.isSeen v = false) :
    TasksAgree v l (ts.filter fun t => t.id ≠ id) us := by
  unfold TasksAgree at h ⊢
  rw [List.filter_filter]
  have : (ts.filter fun t => t.job.isSeen v && decide (t.id ≠ id)) = ts.filter (·.job.isSeen v) := by
    apply List.filter_congr
    intro t ht
    cases hs : t.job.isSeen v with
    | false => rfl
    | true =>
      have hne : t.id ≠ id := fun e => by
        rw [hid t ht e] at hs
        cases hs
      simp [hne]
  rw [this]
  exact h

/-- Tasks that are looked at are there on both sides. -/
theorem exists_right (h : TasksAgree v l ts us) (ht : t ∈ ts) (hs : t.job.isSeen v = true) :
    ∃ u ∈ us, u.job.isSeen v = true ∧ t.Agree v l u := by
  obtain ⟨u, hu, htu⟩ := exists_of_mem_left h (List.mem_filter.mpr ⟨ht, hs⟩)
  exact ⟨u, (List.mem_filter.mp hu).1, (List.mem_filter.mp hu).2, htu⟩

end TasksAgree

/-! ## Feedback -/

namespace ControlWriter

/-- The batches of feedback that are addressed to an SSRC. -/
def batchesTo (w : ControlWriter) (ssrc : Ssrc) : List (List Rtcp.Packet) :=
  w.written.filter fun batch => ssrc ∈ batch.flatMap Rtcp.Packet.destinations

/-- Writers that fail or not and have been given the same for an SSRC. -/
structure Agree (ssrc : Ssrc) (w w' : ControlWriter) : Prop where
  failing : w.failing = w'.failing
  batches : w.batchesTo ssrc = w'.batchesTo ssrc

namespace Agree

variable {ssrc : Ssrc} {w w' : ControlWriter}

theorem symm (h : w.Agree ssrc w') : w'.Agree ssrc w :=
  ⟨h.failing.symm, h.batches.symm⟩

theorem write (h : w.Agree ssrc w') (batch : List Rtcp.Packet) : (w.write batch).Agree ssrc (w'.write batch) := by
  unfold ControlWriter.write
  rw [h.failing]
  split
  · exact h
  · refine ⟨rfl, ?_⟩
    have hb := h.batches
    unfold batchesTo at hb ⊢
    rw [List.filter_append, List.filter_append, hb]

theorem write_left (h : w.Agree ssrc w') {batch : List Rtcp.Packet}
    (hb : ssrc ∉ batch.flatMap Rtcp.Packet.destinations) : (w.write batch).Agree ssrc w' := by
  unfold ControlWriter.write
  split
  · exact h
  · refine ⟨h.failing, ?_⟩
    rw [← h.batches]
    unfold batchesTo
    rw [List.filter_append, List.filter_cons_of_neg (by simpa using hb)]
    exact List.append_nil _

/-- Both write a round for the same layer. -/
theorem writeRound (h : w.Agree ssrc w') (k : Ssrc) (bitrate : Nat) :
    (w.writeRound k bitrate).Agree ssrc (w'.writeRound k bitrate) := by
  unfold ControlWriter.writeRound
  induction feedbackRound k bitrate generalizing w w' with
  | nil => exact h
  | cons batch batches ih => exact ih (h.write batch)

/-- One writes a round for another layer. -/
theorem writeRound_left (h : w.Agree ssrc w') {k : Ssrc} (hk : k ≠ 0 → k ≠ ssrc) (bitrate : Nat) :
    (w.writeRound k bitrate).Agree ssrc w' := by
  unfold ControlWriter.writeRound feedbackRound
  split
  · exact h
  · next hz =>
    have hne := (hk hz).symm
    refine (h.write_left ?_).write_left ?_
    · simpa [Rtcp.Packet.destinations] using hne
    · simpa [Rtcp.Packet.destinations] using hne

end Agree

end ControlWriter

/-! ## Hubs -/

/-- Whether a number is one of the token of a relay, of a task that is looked at, or of a token that has a name. -/
inductive Shown (v : View) (names : Table String Token) (relays : List Relay) (tasks : List Task) (n : Nat) : Prop
  | relay {r : Relay} (hr : r ∈ relays) (hn : n ∈ r.token.ids)
  | task {t : Task} {k : Token} (ht : t ∈ tasks) (hs : t.job.isSeen v = true) (hk : t.job.token? = some k)
      (hn : n ∈ k.ids)
  | name {name : String} {k : Token} (hk : names.find? name = some k) (hn : n ∈ k.ids)

/-- Hubs that are the same, but for what is not looked at. -/
structure Hub.Agree (v : View) (l : Links) (names : Table String Token) (h g : Hub) : Prop where
  settings : h.settings = g.settings
  receiver : h.receiver = g.receiver
  held : h.held = g.held
  handler : h.handler = g.handler
  clock : h.clock = g.clock
  transport : h.transport.Agree v g.transport
  egress : h.egress.Agree v l g.egress
  feedback : h.feedback.Agree v.ssrc g.feedback
  next : h.tokens.next = g.tokens.next
  nextTask : h.nextTask = g.nextTask
  relays : Forall₂ (Relay.Agree v l) h.relays g.relays
  tasks : TasksAgree v l h.tasks g.tasks
  cancelled : ∀ n, Shown v names h.relays h.tasks n → (n ∈ h.tokens.cancelled ↔ n ∈ g.tokens.cancelled)

/-- No number from the next one on has been cancelled. -/
def Hub.Fresh (h : Hub) : Prop :=
  ∀ n, h.tokens.next ≤ n → n ∉ h.tokens.cancelled

section Lists

variable {α β : Type} {R : α → β → Prop} {as : List α} {bs : List β}

theorem rel_getElem? (h : Forall₂ R as bs) (i : Nat) : Option.Rel R as[i]? bs[i]? := by
  induction h generalizing i with
  | nil => exact .none
  | cons hab _ ih =>
    cases i with
    | zero => exact .some hab
    | succ i => exact ih i

theorem forall₂_modify (h : Forall₂ R as bs) (i : Nat) {f : α → α} {g : β → β} (hf : ∀ a b, R a b → R (f a) (g b)) :
    Forall₂ R (as.modify i f) (bs.modify i g) := by
  induction h generalizing i with
  | nil =>
    rw [List.modify_nil, List.modify_nil]
    exact .nil
  | cons hab h ih =>
    cases i with
    | zero => exact .cons (hf _ _ hab) h
    | succ i => exact .cons hab (ih i)

theorem of_mem_modify {f : α → α} {i : Nat} {a : α} (h : a ∈ as.modify i f) : ∃ b ∈ as, a = f b ∨ a = b := by
  obtain ⟨j, hj, he⟩ := List.getElem_of_mem h
  rw [List.length_modify] at hj
  rw [List.getElem_modify] at he
  refine ⟨as[j], List.getElem_mem hj, ?_⟩
  split at he
  · exact .inl he.symm
  · exact .inr he.symm

end Lists

namespace Hub.Agree

variable {v : View} {l : Links} {names : Table String Token} {h g : Hub}

theorem shown (ha : h.Agree v l names g) {n : Nat} (hn : Shown v names g.relays g.tasks n) :
    Shown v names h.relays h.tasks n := by
  cases hn with
  | relay hr hn =>
    obtain ⟨r, hr', ha'⟩ := exists_of_mem_right ha.relays hr
    exact .relay hr' (ha'.token ▸ hn)
  | task ht hs hk hn =>
    obtain ⟨t, ht', hs', ha'⟩ := ha.tasks.symm.exists_right ht hs
    exact .task ht' hs' (ha'.job.token ▸ hk) hn
  | name hk hn => exact .name hk hn

theorem symm (ha : h.Agree v l names g) : g.Agree v l.symm names h where
  settings := ha.settings.symm
  receiver := ha.receiver.symm
  held := ha.held.symm
  handler := ha.handler.symm
  clock := ha.clock.symm
  transport := ha.transport.symm
  egress := ha.egress.symm
  feedback := ha.feedback.symm
  next := ha.next.symm
  nextTask := ha.nextTask.symm
  relays := ha.relays.flip.imp fun _ _ => Relay.Agree.symm
  tasks := ha.tasks.symm
  cancelled n hn := (ha.cancelled n (ha.shown hn)).symm

theorem ssrcOf (ha : h.Agree v l names g) (rid : String) : h.ssrcOf rid = g.ssrcOf rid := by
  unfold Hub.ssrcOf
  rw [ha.receiver]

/-- A token all of whose numbers are as cancelled here as there is as cancelled here as there. -/
theorem isCancelled (ha : h.Agree v l names g) {k : Token}
    (hk : ∀ n ∈ k.ids, (n ∈ h.tokens.cancelled ↔ n ∈ g.tokens.cancelled)) : h.isCancelled k = g.isCancelled k := by
  unfold Hub.isCancelled TokenPool.isCancelled
  rw [ha.receiver, Bool.eq_iff_iff]
  simp only [Bool.or_eq_true, List.any_eq_true, List.contains_iff_mem]
  refine or_congr Iff.rfl ⟨?_, ?_⟩
  · rintro ⟨n, hn, hc⟩
    exact ⟨n, hn, (hk n hn).mp hc⟩
  · rintro ⟨n, hn, hc⟩
    exact ⟨n, hn, (hk n hn).mpr hc⟩

/-! ## Tasks come and go -/

/-- Tasks are replaced, and run under tokens that there were before. -/
theorem retask (ha : h.Agree v l names g) {ts us : List Task} (hs : TasksAgree v l ts us)
    (hk : ∀ t ∈ ts, t.job.isSeen v = true → ∀ k, t.job.token? = some k → ∀ n ∈ k.ids,
      Shown v names h.relays h.tasks n) :
    Hub.Agree v l names { h with tasks := ts } { g with tasks := us } :=
  { ha with
    tasks := hs
    cancelled := by
      intro n hn
      apply ha.cancelled n
      cases hn with
      | relay hr hn => exact .relay hr hn
      | task ht hsn hkn hn => exact hk _ ht hsn _ hkn n hn
      | name hkn hn => exact .name hkn hn }

/-- The tasks of one number go. -/
theorem others (ha : h.Agree v l names g) (id : Nat) :
    Hub.Agree v l names { h with tasks := h.others id } { g with tasks := g.others id } := by
  apply ha.retask (ha.tasks.others id)
  intro t ht hs k hk n hn
  exact .task (Owned.mem_others.mp ht).1 hs hk hn

/-- The tasks of one number go that are not looked at. -/
theorem others_left (ha : h.Agree v l names g) {id : Nat} (hid : ∀ t ∈ h.tasks, t.id = id → t.job.isSeen v = false) :
    Hub.Agree v l names { h with tasks := h.others id } g := by
  apply ha.retask (ha.tasks.others_left hid)
  intro t ht hs k hk n hn
  exact .task (Owned.mem_others.mp ht).1 hs hk hn

/-- A task is started. -/
theorem spawn (ha : h.Agree v l names g) {j k : Job} (hj : j.Agree v l k)
    (hk : ∀ token, j.token? = some token → ∀ n ∈ token.ids, (n ∈ h.tokens.cancelled ↔ n ∈ g.tokens.cancelled)) :
    (h.spawn j).Agree v l names (g.spawn k) :=
  { ha with
    nextTask := congrArg (· + 1) ha.nextTask
    tasks := ha.tasks.append (.singleton ⟨ha.nextTask, rfl, hj⟩)
    cancelled := by
      intro n hn
      cases hn with
      | relay hr hn => exact ha.cancelled n (.relay hr hn)
      | name hkn hn => exact ha.cancelled n (.name hkn hn)
      | task ht hs hkn hn =>
        rcases List.mem_append.mp ht with ht | ht
        · exact ha.cancelled n (.task ht hs hkn hn)
        · rw [List.mem_singleton.mp ht] at hkn
          exact hk _ hkn n hn }

/-! ## Tokens -/

/-- A token is cancelled. -/
theorem cancel (ha : h.Agree v l names g) (k : Token) :
    Hub.Agree v l names { h with tokens := h.tokens.cancel k } { g with tokens := g.tokens.cancel k } :=
  { ha with
    cancelled := fun n hn => by
      unfold TokenPool.cancel
      rw [List.mem_append, List.mem_append]
      exact or_congr Iff.rfl (ha.cancelled n hn) }

/-- A token is cancelled whose number is in no token that is looked at. -/
theorem cancel_left (ha : h.Agree v l names g) {k : Token}
    (hk : ∀ n ∈ k.ids.take 1, ¬ Shown v names h.relays h.tasks n) :
    Hub.Agree v l names { h with tokens := h.tokens.cancel k } g :=
  { ha with
    cancelled := fun n hn => by
      unfold TokenPool.cancel
      rw [List.mem_append]
      refine ⟨fun hc => ?_, fun hc => .inr ((ha.cancelled n hn).mpr hc)⟩
      rcases hc with hc | hc
      · exact absurd hn (hk n hc)
      · exact (ha.cancelled n hn).mp hc }

/-- A token gets a name. -/
theorem name (ha : h.Agree v l names g) (name : String) {k : Token}
    (hk : ∀ n ∈ k.ids, (n ∈ h.tokens.cancelled ↔ n ∈ g.tokens.cancelled)) :
    h.Agree v l (names.insert name k) g :=
  { ha with
    cancelled := by
      intro n hn
      cases hn with
      | relay hr hn => exact ha.cancelled n (.relay hr hn)
      | task ht hs hkn hn => exact ha.cancelled n (.task ht hs hkn hn)
      | @name name' k' hkn hn =>
        by_cases he : name' = name
        · rw [he, Table.find?_insert_self] at hkn
          cases hkn
          exact hk n hn
        · rw [Table.find?_insert_of_ne _ _ he] at hkn
          exact ha.cancelled n (.name hkn hn) }

/-! ## Relays -/

/-- A relay changes. -/
theorem modifyRelay (ha : h.Agree v l names g) (index : Nat) {f f' : Relay → Relay}
    (hf : ∀ r r', r.Agree v l r' → (f r).Agree v l (f' r')) (ht : ∀ r, (f r).token = r.token) :
    Hub.Agree v l names { h with relays := h.relays.modify index f } { g with relays := g.relays.modify index f' } :=
  { ha with
    relays := forall₂_modify ha.relays index hf
    cancelled := by
      intro n hn
      cases hn with
      | relay hr hn =>
        obtain ⟨r, hr, he | he⟩ := of_mem_modify hr
        · exact ha.cancelled n (.relay hr (by rwa [he, ht] at hn))
        · exact ha.cancelled n (.relay hr (he ▸ hn))
      | task htn hs hkn hn => exact ha.cancelled n (.task htn hs hkn hn)
      | name hkn hn => exact ha.cancelled n (.name hkn hn) }

/-- A relay changes on one side. -/
theorem modifyRelay_left (ha : h.Agree v l names g) (index : Nat) {f : Relay → Relay}
    (hf : ∀ r r' : Relay, r.Agree v l r' → (f r).Agree v l r') (ht : ∀ r, (f r).token = r.token) :
    Hub.Agree v l names { h with relays := h.relays.modify index f } g := by
  have hm : Hub.Agree v l names { h with relays := h.relays.modify index f }
      { g with relays := g.relays.modify index id } := ha.modifyRelay index hf ht
  rwa [List.modify_id] at hm

/-- The next number is taken from both pools. -/
theorem take (ha : h.Agree v l names g) :
    Hub.Agree v l names { h with tokens := { h.tokens with next := h.tokens.next + 1 } }
      { g with tokens := { g.tokens with next := g.tokens.next + 1 } } :=
  { ha with next := congrArg (· + 1) ha.next }

theorem next_cancelled (ha : h.Agree v l names g) (hh : h.Fresh) (hg : g.Fresh) :
    h.tokens.next ∈ h.tokens.cancelled ↔ h.tokens.next ∈ g.tokens.cancelled :=
  iff_of_false (hh _ (Nat.le_refl _)) (hg _ (Nat.le_of_eq ha.next.symm))

/-- Tasks are started for a layer of a relay. -/
theorem startLayer (ha : h.Agree v l names g) (hh : h.Fresh) (hg : g.Fresh) {r r' : Relay} (hr : r.Agree v l r')
    (hk : ∀ n ∈ r.token.ids, (n ∈ h.tokens.cancelled ↔ n ∈ g.tokens.cancelled)) (index : Nat) (rid : String) :
    (h.startLayer index r rid).Agree v l names (g.startLayer index r' rid) := by
  have ht : (g.tokens.child r'.token).2 = (h.tokens.child r.token).2 := by
    unfold TokenPool.child
    rw [ha.next, hr.token]
  have hids : ∀ n ∈ (h.tokens.child r.token).2.ids, (n ∈ h.tokens.cancelled ↔ n ∈ g.tokens.cancelled) := by
    intro n hn
    rcases List.mem_cons.mp hn with rfl | hn
    · exact ha.next_cancelled hh hg
    · exact hk n hn
  have hf : g.settings.feedback = h.settings.feedback := congrArg _ ha.settings.symm
  have hi : g.settings.interval = h.settings.interval := congrArg _ ha.settings.symm
  have hb : g.settings.bitrate = h.settings.bitrate := congrArg _ ha.settings.symm
  unfold Hub.startLayer
  dsimp only
  rw [ht, hf, hi, hb]
  split
  · refine (ha.take.spawn (.feedback _) ?_).spawn (.pump rid _ (some index) hr.forwarder) ?_
    · intro token he
      cases he
      exact hids
    · intro token he
      cases he
      exact hids
  · apply ha.take.spawn (.pump rid _ (some index) hr.forwarder)
    intro token he
    cases he
    exact hids

theorem fresh_startLayer (hh : h.Fresh) (index : Nat) (r : Relay) (rid : String) :
    (h.startLayer index r rid).Fresh
      ∧ (h.startLayer index r rid).tokens.cancelled = h.tokens.cancelled := by
  have hn : ∀ n, h.tokens.next + 1 ≤ n → n ∉ h.tokens.cancelled := fun n hn => hh n (Nat.le_of_succ_le hn)
  unfold Hub.startLayer
  dsimp only
  split <;> exact ⟨hn, rfl⟩

/-- A relay is started. -/
theorem startRelay (ha : h.Agree v l names g) (hh : h.Fresh) (hg : g.Fresh) (index : Nat) (rids : List String) :
    (h.startRelay index rids).1.Agree v l names (g.startRelay index rids).1
      ∧ (h.startRelay index rids).2 = (g.startRelay index rids).2 := by
  have layers : ∀ {r r' : Relay}, r.Agree v l r' → ∀ (rids : List String) {h g : Hub}, h.Agree v l names g → h.Fresh →
      g.Fresh → (∀ n ∈ r.token.ids, (n ∈ h.tokens.cancelled ↔ n ∈ g.tokens.cancelled)) →
      Hub.Agree v l names (rids.foldl (fun h rid => h.startLayer index r rid) h)
        (rids.foldl (fun h rid => h.startLayer index r' rid) g) := by
    intro r r' hr rids
    induction rids with
    | nil => exact fun ha _ _ _ => ha
    | cons rid rids ih =>
      intro h g ha hh hg hk
      obtain ⟨hh', hhc⟩ := fresh_startLayer hh index r rid
      obtain ⟨hg', hgc⟩ := fresh_startLayer hg index r' rid
      exact ih (ha.startLayer hh hg hr hk index rid) hh' hg' (by rwa [hhc, hgc])
  rcases rel_cases (rel_getElem? ha.relays index) with ⟨hi, hi'⟩ | ⟨r, r', hi, hi', hr⟩
  · unfold Hub.startRelay
    rw [hi, hi']
    exact ⟨ha, rfl⟩
  · have hk : ∀ n ∈ r.token.ids, (n ∈ h.tokens.cancelled ↔ n ∈ g.tokens.cancelled) := fun n hn =>
      ha.cancelled n (.relay (List.mem_of_getElem? hi) hn)
    have hm : Hub.Agree v l names
        { h with relays := h.relays.modify index fun r => { r with started := true } }
        { g with relays := g.relays.modify index fun r => { r with started := true } } :=
      ha.modifyRelay index (fun r r' hr => { hr with started := rfl }) fun _ => rfl
    unfold Hub.startRelay
    rw [hi, hi']
    dsimp only
    rw [← hr.started, ← hm.isCancelled (k := r'.token) (hr.token ▸ hk), ← hr.token]
    split
    · exact ⟨ha, rfl⟩
    · split
      · exact ⟨hm, rfl⟩
      · exact ⟨layers hr rids hm hh hg hk, rfl⟩

/-- A relay is added. -/
theorem addRelay (ha : h.Agree v l names g) (hh : h.Fresh) (hg : g.Fresh) {f f' : Forwarder} (hf : f.Agree v l f') :
    (h.addRelay f).Agree v l names (g.addRelay f') :=
  { ha.take with
    handler := by
      show some (Handler.relay h.relays.length) = some (Handler.relay g.relays.length)
      rw [ha.relays.length_eq]
    relays := by
      refine List.rel_append ha.relays (.cons ⟨hf, ?_, rfl, rfl⟩ .nil)
      exact congrArg (fun n => (⟨[n], true⟩ : Token)) ha.next
    cancelled := by
      intro n hn
      cases hn with
      | relay hr hn =>
        rcases List.mem_append.mp hr with hr | hr
        · exact ha.cancelled n (.relay hr hn)
        · rw [List.mem_singleton.mp hr] at hn
          rw [List.mem_singleton.mp hn]
          exact ha.next_cancelled hh hg
      | task ht hs hk hn => exact ha.cancelled n (.task ht hs hk hn)
      | name hk hn => exact ha.cancelled n (.name hk hn) }

/-- A track is added to both sides. -/
theorem addTrack (ha : h.Agree v l names g) {o : Outbound}
    (ho : ∀ name, o.writer? = some name → name ∉ v.writers) :
    Hub.Agree v (l.add ha.egress.next_left ha.egress.next_right) names { h with egress := h.egress.addTrack o }
      { g with egress := g.egress.addTrack o } :=
  { ha with
    egress := ha.egress.addTrack ho
    relays := ha.relays.imp fun _ _ hr => hr.mono fun _ _ => .inl
    tasks := ha.tasks.mono fun _ _ => .inl }

/-- A pump gives up. -/
theorem failPump (ha : h.Agree v l names g) {t u : Task} (hid : t.id = u.id) {p q : Pump} (hr : p.rid = q.rid)
    (hk : p.token = q.token) (hj : p.relay = q.relay) (cause : Error) :
    (h.failPump t p cause).Agree v l names (g.failPump u q cause) := by
  have hd : Hub.Agree v l names { h with tasks := h.others t.id } { g with tasks := g.others u.id } :=
    hid ▸ ha.others t.id
  unfold Hub.failPump
  rw [← hj, ← hr, ← hk, ← ha.ssrcOf]
  cases p.relay with
  | none => exact { hd with }
  | some index =>
    refine (hd.cancel p.token).modifyRelay index (fun r r' hr => ?_) fun _ => rfl
    exact { hr with failures := by rw [List.filter_append, List.filter_append, hr.failures] }

/-- A pump gives up that is not looked at. -/
theorem failPump_left (ha : h.Agree v l names g) {t : Task}
    (hid : ∀ u ∈ h.tasks, u.id = t.id → u.job.isSeen v = false) {p : Pump} (hr : v.rids p.rid = false)
    (hk : ∀ j, p.relay = some j → ∀ n ∈ p.token.ids.take 1, ¬ Shown v names h.relays h.tasks n) (cause : Error) :
    (h.failPump t p cause).Agree v l names g := by
  have hd := ha.others_left hid
  unfold Hub.failPump
  cases hj : p.relay with
  | none => exact { hd with }
  | some index =>
    have hc : Hub.Agree v l names { h with tasks := h.others t.id, tokens := h.tokens.cancel p.token } g := by
      refine hd.cancel_left fun n hn hs => hk index hj n hn ?_
      cases hs with
      | relay hr hn => exact .relay hr hn
      | task ht hs hk hn => exact .task (Owned.mem_others.mp ht).1 hs hk hn
      | name hk hn => exact .name hk hn
    refine hc.modifyRelay_left index (fun r r' hr' => ?_) fun _ => rfl
    exact { hr' with failures := by rw [List.filter_append, hr'.failures]; simp [hr] }

end Hub.Agree

end MediaRelay
