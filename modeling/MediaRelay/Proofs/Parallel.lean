import MediaRelay.Proofs.Beats
import MediaRelay.Proofs.Pairing

/-!
# Sessions that differ in feedback

A task that gives no feedback can move in the one hub of a pair if and only if it can in the other, and they are a pair
afterwards (`Paired.move?`). Two sessions are parallel (`Session.Parallel`) if their hubs are a pair and all names stand
for the same. They stay parallel while their tasks run, each schedulers of its own (`Parallel.run`), and while time
passes in one of them (`Parallel.ticks_left`).
-/

namespace MediaRelay

namespace Hub

namespace Paired

variable {l : Links} {h g : Hub}

/-! ## Moves on both sides -/

section Working

variable {t u : Task} (hd : h.Tidy) (hd' : g.Tidy) (ht : t ∈ h.tasks) (hu : u ∈ g.tasks) (htu : t.Paired l u)

theorem setTransport (m : h.Paired l g) (w : QueueTransport) :
    Hub.Paired l { h with transport := w } { g with transport := w } :=
  m.change { m.alike with transport := rfl } rfl rfl rfl rfl rfl rfl fun _ hk => hk

theorem setEgress (m : h.Paired l g) (e : Egress) : Hub.Paired l { h with egress := e } { g with egress := e } :=
  m.change { m.alike with egress := rfl } rfl rfl rfl rfl rfl rfl fun _ hk => hk

theorem record (m : h.Paired l g) (e : Event) :
    Hub.Paired l { h with events := h.events ++ [e] } { g with events := g.events ++ [e] } :=
  m.change { m.alike with events := congrArg (· ++ [e]) m.alike.events } rfl rfl rfl rfl rfl rfl fun _ hk => hk

include hd hd' ht hu htu

/-- A read goes on in both hubs or waits in both. -/
theorem goOn? (m : h.Paired l g) (hj : t.job.isScheduler = false) (q : Read)
    {finish finish' : Hub → Except Error Data → Hub}
    (hdone : ∀ w r, Hub.Paired l { h with transport := w } { g with transport := w } →
      Hub.Paired l (finish { h with transport := w } r) (finish' { g with transport := w } r)) :
    Option.Rel (Hub.Paired l) (h.goOn? t q finish) (g.goOn? u q finish') := by
  have hpark : ∀ gate, Option.Rel (Hub.Paired l) (h.park? t gate) (g.park? u gate) := by
    intro gate
    unfold Hub.park?
    rw [← htu.stage]
    split
    · exact .some (m.park hd hd' ht hu htu hj gate)
    · exact .none
  obtain ⟨w, p, hr, hr'⟩ := m.read q
  unfold Hub.goOn?
  rw [hr, hr']
  cases p with
  | done r => exact .some (hdone w r (m.setTransport w))
  | awaitsTrack => exact hpark .track
  | awaitsLayer => exact hpark .layer
  | awaitsDatagram => exact hpark .datagram

theorem pumped (m : h.Paired l g) {p : Pump} (hj : t.job = .pump p) (r : Except Error Data) :
    (Hub.pumped t p h r).Paired l (Hub.pumped u p g r) := by
  have fail : ∀ cause, (h.failPump t p cause).Paired l (g.failPump u p cause) := m.failPump hd hd' ht hu htu p
  unfold Hub.pumped
  cases r with
  | error cause => exact fail cause
  | ok data =>
    cases data with
    | media packet =>
      dsimp only
      rw [← m.alike.egress]
      cases p.forwarder.forward h.egress p.rid packet with
      | mk e result =>
        have he := m.setEgress e
        have hde : Tidy { h with egress := e } := hd.of_eq rfl rfl rfl
        have hde' : Tidy { g with egress := e } := hd'.of_eq rfl rfl rfl
        cases result with
        | error cause => exact he.failPump hde hde' ht hu htu p cause
        | ok =>
          have hjob : t.job.isScheduler = false := by rw [hj]; rfl
          have hres := he.resume hde hde' ht hu htu hjob
          dsimp only
          rwa [← htu.job]
    | _ => exact fail _

theorem movePump? (m : h.Paired l g) {p : Pump} (hj : t.job = .pump p) :
    Option.Rel (Hub.Paired l) (h.movePump? t p) (g.movePump? u p) := by
  have hjob : t.job.isScheduler = false := by rw [hj]; rfl
  unfold Hub.movePump?
  rw [← m.isCancelled]
  split
  · exact .some (m.failPump hd hd' ht hu htu p _)
  · split
    · exact .some (m.retire htu _)
    · refine m.goOn? hd hd' ht hu htu hjob _ fun w r hw => ?_
      have hdw : Tidy { h with transport := w } := hd.of_eq rfl rfl rfl
      have hdw' : Tidy { g with transport := w } := hd'.of_eq rfl rfl rfl
      exact hw.pumped hdw hdw' ht hu htu hj r

theorem greeted (m : h.Paired l g) (name : String) (r : Except Error Data) :
    (Hub.greeted t name h r).Paired l (Hub.greeted u name g r) := by
  have hdis := m.dismiss hd hd' ht hu htu
  unfold Hub.greeted
  split
  · exact hdis.record _
  · exact hdis
  · exact hdis.record _

/-- The handler is told of a new track. -/
theorem announce (m : h.Paired l g) (rids : List String) : PairedFrom l (h.announce t rids) (g.announce u rids) := by
  have hdis := m.dismiss hd hd' ht hu htu
  cases hn : h.handler with
  | none =>
    rw [announce_of_none hn, announce_of_none (m.alike.handler ▸ hn)]
    exact ⟨l, l.le_refl, hdis⟩
  | some handler =>
    cases handler with
    | relay index =>
      rw [announce_of_relay hn, announce_of_relay (m.alike.handler ▸ hn)]
      exact (hdis.startRelay (hd.dismiss t) (hd'.dismiss u) index rids).1
    | recorder name reads =>
      have hev := m.record (.call name 1 rids.length)
      have hde : Tidy { h with events := h.events ++ [.call name 1 rids.length] } := hd.of_eq rfl rfl rfl
      have hde' : Tidy { g with events := g.events ++ [.call name 1 rids.length] } := hd'.of_eq rfl rfl rfl
      rw [announce_of_recorder hn, announce_of_recorder (m.alike.handler ▸ hn)]
      split
      · exact ⟨l, l.le_refl, hev.resume hde hde' ht hu htu rfl⟩
      · exact ⟨l, l.le_refl, hdis.record _⟩

/-- A task that gives no feedback moves in both hubs or in neither. -/
theorem move? (m : h.Paired l g) (hj : t.job.isScheduler = false) :
    Option.Rel (PairedFrom l) (h.move? t) (g.move? u) := by
  have same : ∀ {x y : Option Hub}, Option.Rel (Hub.Paired l) x y → Option.Rel (PairedFrom l) x y := by
    intro x y hxy
    rcases rel_cases hxy with ⟨rfl, rfl⟩ | ⟨h', g', rfl, rfl, m'⟩
    · exact .none
    · exact .some ⟨l, l.le_refl, m'⟩
  unfold Hub.move?
  rw [← htu.job]
  cases hjt : t.job with
  | read q => exact same (m.goOn? hd hd' ht hu htu hj q fun w r hw => hw.retire htu _)
  | pump p => exact same (m.movePump? hd hd' ht hu htu hjt)
  | feedback s =>
    rw [hjt] at hj
    cases hj
  | announce rids => exact .some (m.announce hd hd' ht hu htu rids)
  | greet name rid =>
    refine same (m.goOn? hd hd' ht hu htu hj _ fun w r hw => ?_)
    have hdw : Tidy { h with transport := w } := hd.of_eq rfl rfl rfl
    have hdw' : Tidy { g with transport := w } := hd'.of_eq rfl rfl rfl
    exact hw.greeted hdw hdw' ht hu htu name r

end Working

/-- If no scheduler goes on first in either hub, then linked tasks do. -/
theorem mover? (m : h.Paired l g) (hd : h.Tidy) (hd' : g.Tidy)
    (hs : ∀ x, h.mover? = some x → x.1.job.isScheduler = false)
    (hs' : ∀ x, g.mover? = some x → x.1.job.isScheduler = false) :
    Option.Rel (fun x y : Task × Hub => PairedFrom l x.2 y.2) h.mover? g.mover? := by
  have working : ∀ (k : Hub) (t : Task) (x : Task × Hub), (k.move? t).map (t, ·) = some x →
      (!x.1.job.isScheduler) = !t.job.isScheduler := by
    intro k t x hx
    obtain ⟨k', -, rfl⟩ := Option.map_eq_some_iff.mp hx
    rfl
  have first : ∀ (k : Hub), (∀ x, k.mover? = some x → x.1.job.isScheduler = false) →
      k.mover? = (k.tasks.filter fun t => !t.job.isScheduler).findSome? fun t => (k.move? t).map (t, ·) :=
    fun k hk => (findSome?_filter (q := fun x : Task × Hub => !x.1.job.isScheduler) (working k)
      fun x hx => by rw [hk x hx]; rfl).symm
  rw [first h hs, first g hs']
  refine rel_findSome? m.tasks fun t ht u hu htu => ?_
  obtain ⟨ht, hj⟩ := List.mem_filter.mp ht
  have hu := (List.mem_filter.mp hu).1
  rcases rel_cases (m.move? hd hd' ht hu htu (by simpa using hj)) with ⟨hm, hm'⟩ | ⟨h', g', hm, hm', m'⟩ <;>
    rw [hm, hm']
  · exact .none
  · exact .some m'

end Paired

end Hub

/-! ## Sessions -/

/-- Names that stand for linked tasks, or for the same refusal. -/
inductive TaskName.Paired (l : Links) : TaskName → TaskName → Prop
  | running {i j : Nat} (hij : l.Rel i j) : Paired l (.running i) (.running j)
  | refused (why : Refusal) : Paired l (.refused why) (.refused why)

namespace Session

/-- Sessions whose hubs differ in feedback only, and whose names stand for the same. -/
structure Paired (l : Links) (s s' : Session) : Prop where
  hub : s.hub.Paired l s'.hub
  outbounds : s.outbounds = s'.outbounds
  statics : s.statics = s'.statics
  relays : s.relays = s'.relays
  forwarders : s.forwarders = s'.forwarders
  tokens : s.tokens = s'.tokens
  channels : s.channels = s'.channels
  tasks : ∀ name, Option.Rel (TaskName.Paired l) (s.tasks.find? name) (s'.tasks.find? name)

variable {l l' : Links} {s s' : Session}

theorem Paired.symm (m : s.Paired l s') : s'.Paired l.symm s := by
  refine ⟨m.hub.symm, m.outbounds.symm, m.statics.symm, m.relays.symm, m.forwarders.symm, m.tokens.symm,
    m.channels.symm, fun name => ?_⟩
  rcases rel_cases (m.tasks name) with ⟨hx, hy⟩ | ⟨x, y, hx, hy, hxy⟩ <;> rw [hx, hy]
  · exact .none
  · cases hxy with
    | running hij => exact .some (.running hij)
    | refused why => exact .some (.refused why)

/-- Only the hubs change, and there are more links. -/
theorem Paired.setHub (m : s.Paired l s') (hl : l.Le l') {h g : Hub} (hub : h.Paired l' g) :
    (s.setHub h).Paired l' (s'.setHub g) := by
  refine { m with hub, tasks := fun name => ?_ }
  show Option.Rel (TaskName.Paired l') (s.tasks.find? name) (s'.tasks.find? name)
  rcases rel_cases (m.tasks name) with ⟨hx, hy⟩ | ⟨x, y, hx, hy, hxy⟩ <;> rw [hx, hy]
  · exact .none
  · cases hxy with
    | running hij => exact .some (.running (hl _ _ hij))
    | refused why => exact .some (.refused why)

/-- Two sessions in any state they come to, with hubs that differ in feedback only and the same names. -/
structure Parallel (s s' : Session) : Prop where
  proper : s.Proper
  proper' : s'.Proper
  tidy : s.hub.Tidy
  tidy' : s'.hub.Tidy
  paired : ∃ l, s.Paired l s'

namespace Parallel

theorem symm (h : s.Parallel s') : s'.Parallel s :=
  ⟨h.proper', h.proper, h.tidy', h.tidy, h.paired.imp' Links.symm fun _ => Paired.symm⟩

theorem forwardsAs (h : s.Parallel s') : s.hub.ForwardsAs s'.hub := by
  obtain ⟨l, m⟩ := h.paired
  exact m.hub.alike

/-! ## Running -/

/-- A scheduler moves on one side. -/
theorem move_left (h : s.Parallel s') {t : Task} {g : Hub} (hm : s.hub.mover? = some (t, g))
    (hj : t.job.isScheduler = true) : (s.setHub g).Parallel s' := by
  obtain ⟨ht, hmove⟩ := Hub.of_mover? hm
  have mv := Hub.move_of_move? hmove
  obtain ⟨q, hq⟩ := Job.isScheduler_iff.mp hj
  obtain ⟨a, o⟩ := h.proper.owned
  obtain ⟨l, m⟩ := h.paired
  exact ⟨h.proper.move hm, h.proper', h.tidy.move ht mv, h.tidy',
    l, m.setHub l.le_refl (m.hub.move_left h.tidy o.ids ht hq mv)⟩

/-- Both sides run until their tasks wait. -/
theorem run (h : s.Parallel s') {n n' : Nat} (hn : s.hub.weight ≤ n) (hn' : s'.hub.weight ≤ n') :
    (s.setHub (Hub.run n s.hub)).Parallel (s'.setHub (Hub.run n' s'.hub)) := by
  refine Hub.run_both (R := fun h _ g _ => (s.setHub h).Parallel (s'.setHub g)) Job.isScheduler
    (fun h hm hj => h.move_left hm hj) (fun h hm hj => (h.symm.move_left hm hj).symm) (fun h hs hs' => ?_)
    [] [] h hn hn'
  obtain ⟨l, m⟩ := h.paired
  rcases rel_cases (m.hub.mover? h.tidy h.tidy' hs hs') with ⟨hm, hm'⟩ | ⟨⟨t, k⟩, ⟨u, k'⟩, hm, hm', l', hl, mk⟩
  · exact .inl ⟨hm, hm'⟩
  · obtain ⟨ht, hmove⟩ := Hub.of_mover? hm
    obtain ⟨hu, hmove'⟩ := Hub.of_mover? hm'
    exact .inr ⟨t, u, k, k', hm, hm', h.proper.move hm, h.proper'.move hm', h.tidy.move ht (Hub.move_of_move? hmove),
      h.tidy'.move hu (Hub.move_of_move? hmove'), l', m.setHub hl mk⟩

theorem settle (h : s.Parallel s') : (s.setHub s.hub.settle).Parallel (s'.setHub s'.hub.settle) :=
  h.run (Nat.le_refl _) (Nat.le_refl _)

/-- Only one side settles, and the other has nothing to do. -/
theorem settle_left (h : s.Parallel s') (hq : s'.hub.step? = none) : (s.setHub s.hub.settle).Parallel s' := by
  have := h.settle
  rwa [(Hub.settle_of_quiet hq).1] at this

/-- Time passes on one side. -/
theorem ticks_left (h : s.Parallel s') (hq : s'.hub.step? = none) (n : Nat) :
    (s.setHub (Hub.ticks n s.hub)).Parallel s' := by
  induction n generalizing s with
  | zero => exact h
  | succ n ih =>
    obtain ⟨l, m⟩ := h.paired
    have hub : Hub.Paired l { s.hub with clock := s.hub.clock + 1 } s'.hub :=
      m.hub.change { m.hub.alike with } rfl rfl rfl rfl rfl rfl fun _ hk => hk
    have hc : (s.setHub { s.hub with clock := s.hub.clock + 1 }).Parallel s' :=
      ⟨h.proper.clock _, h.proper', h.tidy.of_eq rfl rfl rfl, h.tidy', l, m.setHub l.le_refl hub⟩
    exact ih (hc.settle_left hq)

end Parallel

end Session

end MediaRelay
