import MediaRelay.Proofs.Lasting

/-!
# Who owns tokens and tasks

A relay gives each layer a token of its own, once, and the tasks of that layer run under it. `Owned` says so for a hub
and the tokens that have names, and every move keeps it (`Owned.move`). It follows that a layer of a relay has at most
one pump (`Owned.single`), and that nothing but the end of that pump cancels the layer's token (`Owned.pump`).
-/

namespace MediaRelay

/-- The layer of a relay that a token number was given to, if any. -/
abbrev Leases := Nat → Option (Nat × String)

/-- More numbers have been taken since, and those taken before belong to whom they did. -/
structure Leases.Grown (a : Leases) (next : Nat) (b : Leases) (next' : Nat) : Prop where
  le : next ≤ next'
  old : ∀ n < next, b n = a n

/-- A token that no relay gave to a layer. -/
def Token.Rooted (a : Leases) (next : Nat) (t : Token) : Prop :=
  ∃ n < next, t.ids = [n] ∧ a n = none

/-- The token that a relay gave to a layer. -/
def Token.Leased (a : Leases) (relays : List Relay) (j : Nat) (rid : String) (t : Token) : Prop :=
  ∃ r m, relays[j]? = some r ∧ t = ⟨m :: r.token.ids, true⟩ ∧ a m = some (j, rid)

/-- Whether a job is neither a loop nor an announcement. -/
def Job.isPlain : Job → Bool
  | .read _ | .greet _ _ => true
  | _ => false

/-- The token that a job runs under. -/
def Job.token? : Job → Option Token
  | .pump p => some p.token
  | .feedback s => some s.token
  | _ => none

/-- Which tokens tasks, relays and names have. -/
structure Owned (h : Hub) (names : Table String Token) (a : Leases) : Prop where
  ids : (h.tasks.map Task.id).Nodup
  next : ∀ t ∈ h.tasks, t.id < h.nextTask
  fresh : ∀ n, h.tokens.next ≤ n → a n = none ∧ n ∉ h.tokens.cancelled
  injective : ∀ m n x, a m = some x → a n = some x → m = n
  started : ∀ m j rid, a m = some (j, rid) → ∃ r, h.relays[j]? = some r ∧ r.started = true
  relay : ∀ r ∈ h.relays, r.token.ofReceiver = true ∧ r.token.Rooted a h.tokens.next
  named : ∀ name t, names.find? name = some t → t.Rooted a h.tokens.next
  pump : ∀ t ∈ h.tasks, ∀ p j, t.job = .pump p → p.relay = some j →
    p.token.Leased a h.relays j p.rid ∧ (∀ r, h.relays[j]? = some r → p.forwarder = r.forwarder)
      ∧ ∀ m, p.token.ids.head? = some m → m ∉ h.tokens.cancelled
  ownPump : ∀ t ∈ h.tasks, ∀ p, t.job = .pump p → p.relay = none → p.token.Rooted a h.tokens.next
  single : ∀ t ∈ h.tasks, ∀ u ∈ h.tasks, ∀ p q, t.job = .pump p → u.job = .pump q → p.relay.isSome →
    p.relay = q.relay → p.rid = q.rid → t = u
  scheduler : ∀ t ∈ h.tasks, ∀ q, t.job = .feedback q →
    q.token.Rooted a h.tokens.next ∨ ∃ j, q.token.Leased a h.relays j q.rid
  announced : ∀ t ∈ h.tasks, ∀ rids, t.job = .announce rids →
    rids ≠ [] ∧ h.receiver.layers.map Layer.rid = rids

theorem Leases.Grown.refl (a : Leases) (next : Nat) : a.Grown next a next :=
  ⟨Nat.le_refl _, fun _ _ => rfl⟩

/-- Numbers are taken that nobody's layer gets. -/
theorem Leases.Grown.of_le (a : Leases) {next next' : Nat} (h : next ≤ next') : a.Grown next a next' :=
  ⟨h, fun _ _ => rfl⟩

theorem Leases.Grown.trans {a b c : Leases} {k l m : Nat} (h : a.Grown k b l) (h' : b.Grown l c m) : a.Grown k c m :=
  ⟨Nat.le_trans h.le h'.le, fun n hn => (h'.old n (Nat.lt_of_lt_of_le hn h.le)).trans (h.old n hn)⟩

theorem Token.Rooted.mono {a b : Leases} {next next' : Nat} {t : Token} (h : t.Rooted a next)
    (hg : a.Grown next b next') : t.Rooted b next' := by
  obtain ⟨n, hn, hi, ha⟩ := h
  exact ⟨n, Nat.lt_of_lt_of_le hn hg.le, hi, (hg.old n hn).trans ha⟩

/-- A token that no relay gave to a layer does not descend from one that a relay did. -/
theorem Token.Rooted.not_mem {a : Leases} {next m : Nat} {t : Token} {x : Nat × String} (h : t.Rooted a next)
    (hm : a m = some x) : m ∉ t.ids := by
  obtain ⟨n, -, hi, ha⟩ := h
  rw [hi, List.mem_singleton]
  rintro rfl
  rw [hm] at ha
  cases ha

theorem Token.Leased.mono {rs rs' : List Relay} {j : Nat} {rid : String} {t : Token} (h : t.Leased a rs j rid)
    (hr : RelaysOnward rs rs') : t.Leased a rs' j rid := by
  obtain ⟨r, m, hj, rfl, ha⟩ := h
  obtain ⟨r', hj', ho⟩ := hr j r hj
  exact ⟨r', m, hj', by rw [ho.token], ha⟩

namespace Owned

variable {h g : Hub} {names : Table String Token} {a : Leases} {t : Task}

/-! ## Changes of the tasks -/

/-- A token number that was given to a layer has been taken from the pool. -/
theorem lt_of_lease (o : Owned h names a) {m : Nat} {x : Nat × String} (hm : a m = some x) : m < h.tokens.next := by
  apply Nat.lt_of_not_le
  intro hle
  rw [(o.fresh m hle).1] at hm
  cases hm

/-- Only the tokens of a layer descend from the one that its relay gave to it. -/
theorem of_mem_leased (o : Owned h names a) {k : Token} {i j m : Nat} {rid rid' : String}
    (hk : k.Leased a h.relays i rid') (hm : a m = some (j, rid)) (hmem : m ∈ k.ids) : i = j ∧ rid' = rid := by
  obtain ⟨r, n, hr, rfl, ha⟩ := hk
  rcases List.mem_cons.mp hmem with rfl | hmem
  · rw [hm] at ha
    cases ha
    exact ⟨rfl, rfl⟩
  · exact absurd hmem ((o.relay r (List.mem_of_getElem? hr)).2.not_mem hm)

/-- A pump whose token descends from that of a layer is the layer's. -/
theorem of_mem_pump (o : Owned h names a) (ht : t ∈ h.tasks) {p : Pump} (hj : t.job = .pump p) {j m : Nat}
    {rid : String} (hm : a m = some (j, rid)) (hmem : m ∈ p.token.ids) : p.relay = some j ∧ p.rid = rid := by
  cases hp : p.relay with
  | none => exact absurd hmem ((o.ownPump t ht p hj hp).not_mem hm)
  | some i =>
    obtain ⟨rfl, hrid⟩ := o.of_mem_leased (o.pump t ht p i hj hp).1 hm hmem
    exact ⟨rfl, hrid⟩

/-- Tasks that were there before, and plain ones, have what they need. -/
theorem of_tasks (o : Owned h names a) (hids : (g.tasks.map Task.id).Nodup) (hnext : ∀ u ∈ g.tasks, u.id < g.nextTask)
    (htasks : ∀ u ∈ g.tasks, (∃ v ∈ h.tasks, v.id = u.id ∧ v.job = u.job) ∨ u.job.isPlain = true)
    (htokens : g.tokens = h.tokens) (hrelays : g.relays = h.relays) (hreceiver : g.receiver = h.receiver) :
    Owned g names a := by
  have back : ∀ u ∈ g.tasks, u.job.isPlain = false → ∃ v ∈ h.tasks, v.id = u.id ∧ v.job = u.job := fun u hu hp => by
    rcases htasks u hu with hv | hv
    · exact hv
    · rw [hv] at hp
      cases hp
  refine ⟨hids, hnext, ?_, o.injective, ?_, ?_, ?_, ?_, ?_, ?_, ?_, ?_⟩
  · rw [htokens]
    exact o.fresh
  · rw [hrelays]
    exact o.started
  · rw [hrelays, htokens]
    exact o.relay
  · rw [htokens]
    exact o.named
  · intro u hu p j hj hp
    obtain ⟨v, hv, -, hvj⟩ := back u hu (by rw [hj]; rfl)
    rw [hrelays, htokens]
    exact o.pump v hv p j (hvj.trans hj) hp
  · intro u hu p hj hp
    obtain ⟨v, hv, -, hvj⟩ := back u hu (by rw [hj]; rfl)
    rw [htokens]
    exact o.ownPump v hv p (hvj.trans hj) hp
  · intro u hu u' hu' p q hj hj' hs hr hi
    obtain ⟨v, hv, hvi, hvj⟩ := back u hu (by rw [hj]; rfl)
    obtain ⟨v', hv', hvi', hvj'⟩ := back u' hu' (by rw [hj']; rfl)
    have hvv := o.single v hv v' hv' p q (hvj.trans hj) (hvj'.trans hj') hs hr hi
    exact List.inj_on_of_nodup_map hids hu hu' (by rw [← hvi, ← hvi', hvv])
  · intro u hu q hj
    obtain ⟨v, hv, -, hvj⟩ := back u hu (by rw [hj]; rfl)
    rw [hrelays, htokens]
    exact o.scheduler v hv q (hvj.trans hj)
  · intro u hu rids hj
    obtain ⟨v, hv, -, hvj⟩ := back u hu (by rw [hj]; rfl)
    rw [hreceiver]
    exact o.announced v hv rids (hvj.trans hj)

/-- A new task has what it needs. -/
theorem spawn (o : Owned h names a) {job : Job}
    (pump : ∀ p j, job = .pump p → p.relay = some j → p.token.Leased a h.relays j p.rid
      ∧ (∀ r, h.relays[j]? = some r → p.forwarder = r.forwarder)
      ∧ (∀ m, p.token.ids.head? = some m → m ∉ h.tokens.cancelled)
      ∧ ∀ u ∈ h.tasks, ∀ q, u.job = .pump q → q.relay = some j → q.rid ≠ p.rid)
    (ownPump : ∀ p, job = .pump p → p.relay = none → p.token.Rooted a h.tokens.next)
    (scheduler : ∀ q, job = .feedback q → q.token.Rooted a h.tokens.next ∨ ∃ j, q.token.Leased a h.relays j q.rid)
    (announced : ∀ rids, job = .announce rids → rids ≠ [] ∧ h.receiver.layers.map Layer.rid = rids) :
    Owned (h.spawn job) names a := by
  have mem : ∀ u ∈ (h.spawn job).tasks, u ∈ h.tasks ∨ u = { id := h.nextTask, job } := fun u hu => by
    simpa [Hub.spawn] using hu
  refine ⟨?_, ?_, o.fresh, o.injective, o.started, o.relay, o.named, ?_, ?_, ?_, ?_, ?_⟩
  · simp only [Hub.spawn, List.map_append, List.map_cons, List.map_nil]
    refine List.nodup_append.mpr ⟨o.ids, by simp, ?_⟩
    intro i hi k hk
    obtain ⟨u, hu, rfl⟩ := List.mem_map.mp hi
    rw [List.mem_singleton.mp hk]
    exact Nat.ne_of_lt (o.next u hu)
  · intro u hu
    rcases mem u hu with hu | rfl
    · exact Nat.lt_succ_of_lt (o.next u hu)
    · exact Nat.lt_succ_self _
  · intro u hu p j hj hp
    rcases mem u hu with hu | rfl
    · exact o.pump u hu p j hj hp
    · obtain ⟨hl, hf, hc, -⟩ := pump p j hj hp
      exact ⟨hl, hf, hc⟩
  · intro u hu p hj hp
    rcases mem u hu with hu | rfl
    · exact o.ownPump u hu p hj hp
    · exact ownPump p hj hp
  · intro u hu v hv p q hj hk hs hr hi
    obtain ⟨j, hj'⟩ := Option.isSome_iff_exists.mp hs
    rcases mem u hu with hu | rfl <;> rcases mem v hv with hv | rfl
    · exact o.single u hu v hv p q hj hk hs hr hi
    · exact absurd hi ((pump q j hk (hr ▸ hj')).2.2.2 u hu p hj hj')
    · exact absurd hi.symm ((pump p j hj hj').2.2.2 v hv q hk (hr ▸ hj'))
    · rfl
  · intro u hu q hj
    rcases mem u hu with hu | rfl
    · exact o.scheduler u hu q hj
    · exact scheduler q hj
  · intro u hu rids hj
    rcases mem u hu with hu | rfl
    · exact o.announced u hu rids hj
    · exact announced rids hj

/-- A plain task needs nothing. -/
theorem spawn_plain (o : Owned h names a) {job : Job} (hp : job.isPlain = true) : Owned (h.spawn job) names a := by
  refine o.spawn ?_ ?_ ?_ ?_ <;> intros <;> subst job <;> cases hp

/-! ## Changes of tokens and relays -/

/-- Relays may publish failures and start, and there may be more of them. -/
theorem of_relays (o : Owned h names a) {rs : List Relay} (ho : RelaysOnward h.relays rs)
    (hb : ∀ r ∈ rs, r.token.ofReceiver = true ∧ r.token.Rooted a h.tokens.next) :
    Owned { h with relays := rs } names a := by
  refine ⟨o.ids, o.next, o.fresh, o.injective, ?_, hb, o.named, ?_, o.ownPump, o.single, ?_, o.announced⟩
  · intro m j rid hm
    obtain ⟨r, hr, hs⟩ := o.started m j rid hm
    obtain ⟨r', hr', hor⟩ := ho j r hr
    exact ⟨r', hr', hor.started hs⟩
  · intro u hu p j hj hp
    obtain ⟨hl, hf, hc⟩ := o.pump u hu p j hj hp
    refine ⟨hl.mono ho, fun r hr => ?_, hc⟩
    obtain ⟨r₀, -, hr₀, -, -⟩ := hl
    obtain ⟨r', hr', hor⟩ := ho j r₀ hr₀
    have hr : rs[j]? = some r := hr
    rw [hr'] at hr
    cases hr
    rw [hf r₀ hr₀, hor.forwarder]
  · intro u hu q hj
    exact (o.scheduler u hu q hj).imp id fun ⟨j, hl⟩ => ⟨j, hl.mono ho⟩

/-- A number is cancelled that is not the token of a layer whose pump runs. -/
theorem cancel (o : Owned h names a) {n : Nat} (hn : n < h.tokens.next)
    (hp : ∀ u ∈ h.tasks, ∀ p j, u.job = .pump p → p.relay = some j → p.token.ids.head? ≠ some n) :
    Owned { h with tokens := { h.tokens with cancelled := n :: h.tokens.cancelled } } names a := by
  refine ⟨o.ids, o.next, ?_, o.injective, o.started, o.relay, o.named, ?_, o.ownPump, o.single, o.scheduler,
    o.announced⟩
  · intro m hm
    refine ⟨(o.fresh m hm).1, fun hc => ?_⟩
    rcases List.mem_cons.mp hc with rfl | hc
    · exact absurd hn (Nat.not_lt.mpr hm)
    · exact (o.fresh m hm).2 hc
  · intro u hu p j hj hr
    obtain ⟨hl, hf, hc⟩ := o.pump u hu p j hj hr
    refine ⟨hl, hf, fun m hm hmc => ?_⟩
    rcases List.mem_cons.mp hmc with rfl | hmc
    · exact hp u hu p j hj hr hm
    · exact hc m hm hmc

/-- A token that no relay gave to a layer is cancelled. -/
theorem cancel_rooted (o : Owned h names a) {t : Token} (ht : t.Rooted a h.tokens.next) :
    Owned { h with tokens := h.tokens.cancel t } names a := by
  obtain ⟨n, hn, hi, ha⟩ := ht
  have hc : h.tokens.cancel t = { h.tokens with cancelled := n :: h.tokens.cancelled } := by
    rw [TokenPool.cancel, hi]
    rfl
  rw [hc]
  apply o.cancel hn
  intro u hu p j hj hr hm
  obtain ⟨⟨r, m, -, ht, hl⟩, -⟩ := o.pump u hu p j hj hr
  rw [ht] at hm
  cases hm
  rw [ha] at hl
  cases hl

/-- The next number is taken from the pool, and given to a layer or not. -/
theorem take (o : Owned h names a) {b : Leases} (hb : ∀ n, n ≠ h.tokens.next → b n = a n)
    (hnew : ∀ x, b h.tokens.next = some x → (∀ m, a m ≠ some x)
      ∧ ∃ r, h.relays[x.1]? = some r ∧ r.started = true) :
    Owned { h with tokens := { h.tokens with next := h.tokens.next + 1 } } names b := by
  have rooted : ∀ {t : Token}, t.Rooted a h.tokens.next → t.Rooted b (h.tokens.next + 1) := by
    rintro t ⟨n, hn, hi, ha⟩
    exact ⟨n, Nat.lt_succ_of_lt hn, hi, by rw [hb n (Nat.ne_of_lt hn), ha]⟩
  have leased : ∀ {t : Token} {j rid}, t.Leased a h.relays j rid → t.Leased b h.relays j rid := by
    rintro t j rid ⟨r, m, hr, rfl, ha⟩
    exact ⟨r, m, hr, rfl, by rw [hb m (Nat.ne_of_lt (o.lt_of_lease ha)), ha]⟩
  have old : ∀ {m x}, b m = some x → m ≠ h.tokens.next → a m = some x := by
    intro m x hm hne
    rwa [hb m hne] at hm
  refine ⟨o.ids, o.next, ?_, ?_, ?_, ?_, ?_, ?_, ?_, o.single, ?_, o.announced⟩
  · intro n hn
    have hlt : h.tokens.next < n := hn
    rw [hb n (Nat.ne_of_gt hlt)]
    exact o.fresh n (Nat.le_of_lt hlt)
  · intro m n x hm hn
    by_cases hme : m = h.tokens.next <;> by_cases hne : n = h.tokens.next
    · rw [hme, hne]
    · rw [hme] at hm
      exact absurd (old hn hne) ((hnew x hm).1 n)
    · rw [hne] at hn
      exact absurd (old hm hme) ((hnew x hn).1 m)
    · exact o.injective m n x (old hm hme) (old hn hne)
  · intro m j rid hm
    by_cases hme : m = h.tokens.next
    · rw [hme] at hm
      exact (hnew _ hm).2
    · exact o.started m j rid (old hm hme)
  · exact fun r hr => ⟨(o.relay r hr).1, rooted (o.relay r hr).2⟩
  · exact fun name t ht => rooted (o.named name t ht)
  · intro u hu p j hj hp
    obtain ⟨hl, hf, hc⟩ := o.pump u hu p j hj hp
    exact ⟨leased hl, hf, hc⟩
  · exact fun u hu p hj hp => rooted (o.ownPump u hu p hj hp)
  · exact fun u hu q hj => (o.scheduler u hu q hj).imp rooted fun ⟨j, hl⟩ => ⟨j, leased hl⟩

/-- The next number is taken from the pool by nobody's layer. -/
theorem take_free (o : Owned h names a) :
    Owned { h with tokens := { h.tokens with next := h.tokens.next + 1 } } names a
      ∧ ∀ b, (⟨[h.tokens.next], b⟩ : Token).Rooted a (h.tokens.next + 1) := by
  have hn := (o.fresh _ (Nat.le_refl _)).1
  refine ⟨o.take (fun _ _ => rfl) fun x hx => ?_, fun b => ⟨_, Nat.lt_succ_self _, rfl, hn⟩⟩
  rw [hn] at hx
  cases hx

/-- A token that no relay gave to a layer gets a name. -/
theorem name (o : Owned h names a) (name : String) {t : Token} (ht : t.Rooted a h.tokens.next) :
    Owned h (names.insert name t) a := by
  refine { o with named := fun name' u hu => ?_ }
  by_cases hn : name' = name
  · subst hn
    rw [Table.find?_insert_self] at hu
    cases hu
    exact ht
  · rw [Table.find?_insert_of_ne _ _ hn] at hu
    exact o.named name' u hu

/-- A later state of the receiver has the layers that are to be announced. -/
theorem of_receiver (o : Owned h names a) {r : Receiver Ssrc} (hr : h.receiver.Onward r) (t : QueueTransport) :
    Owned { h with receiver := r, transport := t } names a := by
  refine ⟨o.ids, o.next, o.fresh, o.injective, o.started, o.relay, o.named, o.pump, o.ownPump, o.single, o.scheduler,
    fun u hu rids hj => ?_⟩
  obtain ⟨hne, hl⟩ := o.announced u hu rids hj
  refine ⟨hne, ?_⟩
  have hls : h.receiver.layers ≠ [] := fun e => hne (by rw [← hl, e]; rfl)
  obtain ⟨ls, hls', hf⟩ := hr.track _ (Receiver.track_of_layers_ne_nil hls)
  rw [← hl]
  show r.layers.map Layer.rid = _
  rw [Receiver.layers_of_track hls', map_rid_onward hf]

/-! ## Relays that start -/

/-- The tasks of a layer start, whose token has not been given before. -/
theorem startLayer (o : Owned h names a) {index : Nat} {r : Relay} {rid : String} (hr : h.relays[index]? = some r)
    (hs : r.started = true) (hnew : ∀ m, a m ≠ some (index, rid)) {r₀ : Relay} (hf : r₀.forwarder = r.forwarder)
    (ht : r₀.token = r.token) :
    Owned (h.startLayer index r₀ rid) names fun n => if n = h.tokens.next then some (index, rid) else a n := by
  have o' := o.take (b := fun n => if n = h.tokens.next then some (index, rid) else a n)
    (fun n hn => if_neg hn) (fun x hx => by
      rw [if_pos rfl] at hx
      cases hx
      exact ⟨hnew, r, hr, hs⟩)
  generalize hb : (fun n => if n = h.tokens.next then some (index, rid) else a n) = b at o'
  have hnext : b h.tokens.next = some (index, rid) := by rw [← hb]; exact if_pos rfl
  have hof := (o.relay r (List.mem_of_getElem? hr)).1
  have hl : (⟨h.tokens.next :: r₀.token.ids, r₀.token.ofReceiver⟩ : Token).Leased b h.relays index rid :=
    ⟨r, h.tokens.next, hr, by rw [ht, hof], hnext⟩
  -- whoever has a pump for the layer has the layer's token, which was free
  have hnone : ∀ u ∈ h.tasks, ∀ q, u.job = .pump q → q.relay = some index → q.rid ≠ rid := by
    intro u hu q hj hq hi
    obtain ⟨⟨-, m, -, -, hm⟩, -⟩ := o.pump u hu q index hj hq
    exact hnew m (hi ▸ hm)
  have pump : ∀ {g : Hub}, Owned g names b → g.relays = h.relays →
      g.tokens = { h.tokens with next := h.tokens.next + 1 } →
      (∀ u ∈ g.tasks, ∀ q, u.job = .pump q → u ∈ h.tasks) →
      Owned (g.spawn (.pump ⟨rid, r₀.forwarder, ⟨h.tokens.next :: r₀.token.ids, r₀.token.ofReceiver⟩, some index⟩))
        names b := by
    intro g og hgr hgt hgp
    apply og.spawn
    · intro p j hj hp
      cases hj
      cases hp
      refine ⟨hgr ▸ hl, fun r' hr' => ?_, fun m hm => ?_, fun u hu q hq hqr => hnone u (hgp u hu q hq) q hq hqr⟩
      · rw [hgr, hr] at hr'
        cases hr'
        exact hf
      · cases hm
        rw [hgt]
        exact (o.fresh _ (Nat.le_refl _)).2
    · intro p hj hp
      cases hj
      cases hp
    · intro q hj
      cases hj
    · intro rids hj
      cases hj
  unfold Hub.startLayer
  dsimp only
  split
  · refine pump (Owned.spawn o' ?_ ?_ ?_ ?_) rfl rfl ?_
    · intro p j hj
      cases hj
    · intro p hj
      cases hj
    · intro q hj
      cases hj
      exact .inr ⟨index, hl⟩
    · intro rids hj
      cases hj
    · intro u hu q hj
      rcases List.mem_append.mp hu with hu | hu
      · exact hu
      · rw [List.mem_singleton.mp hu] at hj
        cases hj
  · exact pump o' rfl rfl fun u hu _ _ => hu

theorem relays_startLayer (h : Hub) (index : Nat) (r : Relay) (rid : String) :
    (h.startLayer index r rid).relays = h.relays := by
  unfold Hub.startLayer
  dsimp only
  split <;> rfl

theorem startLayers {index : Nat} {r r₀ : Relay} (hf : r₀.forwarder = r.forwarder) (ht : r₀.token = r.token)
    (hs : r.started = true) {rids : List String} (hd : rids.Nodup) (o : Owned h names a)
    (hr : h.relays[index]? = some r) (hnew : ∀ rid ∈ rids, ∀ m, a m ≠ some (index, rid)) :
    ∃ b, Owned (rids.foldl (fun g rid => g.startLayer index r₀ rid) h) names b
      ∧ a.Grown h.tokens.next b (rids.foldl (fun g rid => g.startLayer index r₀ rid) h).tokens.next := by
  induction rids generalizing h a with
  | nil => exact ⟨a, o, .refl _ _⟩
  | cons rid rids ih =>
    obtain ⟨hnotin, hd⟩ := List.nodup_cons.mp hd
    have next : (h.startLayer index r₀ rid).tokens.next = h.tokens.next + 1 := by
      unfold Hub.startLayer
      dsimp only
      split <;> rfl
    obtain ⟨b, o', hg⟩ := ih hd (o.startLayer hr hs (hnew rid List.mem_cons_self) hf ht) (by
      rw [relays_startLayer]
      exact hr) fun rid' hrid' m hm => by
        split at hm
        · cases hm
          exact hnotin hrid'
        · exact hnew rid' (List.mem_cons_of_mem _ hrid') m hm
    exact ⟨b, o', .trans ⟨next ▸ Nat.le_succ _, fun n hn => if_neg (Nat.ne_of_lt hn)⟩ hg⟩

/-- A relay starts for different layers. -/
theorem startRelay (o : Owned h names a) (index : Nat) {rids : List String} (hd : rids.Nodup) :
    ∃ b, Owned (h.startRelay index rids).1 names b
      ∧ a.Grown h.tokens.next b (h.startRelay index rids).1.tokens.next := by
  unfold Hub.startRelay
  split
  · exact ⟨a, o, .refl _ _⟩
  · next r hr =>
    split
    · exact ⟨a, o, .refl _ _⟩
    · next hns =>
      have hon : RelaysOnward h.relays (h.relays.modify index fun r => { r with started := true }) :=
        relaysOnward_modify _ _ fun r => ⟨rfl, rfl, fun _ => rfl, List.prefix_refl _⟩
      have o' : Owned { h with relays := h.relays.modify index fun r => { r with started := true } } names a := by
        apply o.of_relays hon
        intro r' hr'
        obtain ⟨j, hj⟩ := List.getElem?_of_mem hr'
        rw [List.getElem?_modify] at hj
        obtain ⟨r₁, hr₁, rfl⟩ := Option.map_eq_some_iff.mp hj
        have := o.relay r₁ (List.mem_of_getElem? hr₁)
        split <;> exact this
      dsimp only
      split
      · exact ⟨a, o', .refl _ _⟩
      · refine startLayers (r := { r with started := true }) rfl rfl rfl hd o' ?_ fun rid _ m hm => ?_
        · show (h.relays.modify index _)[index]? = _
          rw [List.getElem?_modify, hr]
          simp
        · obtain ⟨r', hr', hst⟩ := o.started m index rid hm
          rw [hr] at hr'
          cases hr'
          exact hns hst

/-! ## Moves -/

theorem mem_others {u : Task} {id : Nat} : u ∈ h.others id ↔ u ∈ h.tasks ∧ u.id ≠ id := by
  simp [Hub.others]

theorem nodup_others (o : Owned h names a) (id : Nat) : ((h.others id).map Task.id).Nodup :=
  o.ids.sublist (List.filter_sublist.map _)

/-- A task has gone, or it has another stage or a plain job, at the front or at the back. -/
theorem of_retask (o : Owned h names a) (ht : t ∈ h.tasks)
    (hg : g.tasks = h.others t.id ∨ ∃ u, (g.tasks = h.others t.id ++ [u] ∨ g.tasks = u :: h.others t.id)
      ∧ u.id = t.id ∧ (u.job = t.job ∨ u.job.isPlain = true))
    (hnext : g.nextTask = h.nextTask) (htokens : g.tokens = h.tokens) (hrelays : g.relays = h.relays)
    (hreceiver : g.receiver = h.receiver) : Owned g names a := by
  have hd := o.nodup_others t.id
  have hn : t.id ∉ (h.others t.id).map Task.id := fun hm => by
    obtain ⟨u, hu, he⟩ := List.mem_map.mp hm
    exact (mem_others.mp hu).2 he
  have old : ∀ u ∈ h.others t.id, (∃ v ∈ h.tasks, v.id = u.id ∧ v.job = u.job) ∨ u.job.isPlain = true :=
    fun u hu => .inl ⟨u, (mem_others.mp hu).1, rfl, rfl⟩
  have next : ∀ u ∈ h.others t.id, u.id < g.nextTask := fun u hu => by
    rw [hnext]
    exact o.next u (mem_others.mp hu).1
  rcases hg with hg | ⟨u, hg, hu, hj⟩
  · refine o.of_tasks ?_ ?_ ?_ htokens hrelays hreceiver <;> rw [hg]
    · exact hd
    · exact next
    · exact old
  · have hmem : ∀ v ∈ g.tasks, v ∈ h.others t.id ∨ v = u := fun v hv => by
      rcases hg with hg | hg <;> rw [hg] at hv <;> simpa [or_comm] using hv
    refine o.of_tasks ?_ ?_ ?_ htokens hrelays hreceiver
    · rcases hg with hg | hg <;> rw [hg]
      · rw [List.map_append, List.map_singleton, hu]
        exact List.nodup_append.mpr ⟨hd, List.nodup_singleton _, fun x hx y hy e => hn (by
          rw [List.mem_singleton.mp hy] at e
          exact e ▸ hx)⟩
      · rw [List.map_cons, hu]
        exact List.nodup_cons.mpr ⟨hn, hd⟩
    · intro v hv
      rcases hmem v hv with hv | rfl
      · exact next v hv
      · rw [hu, hnext]
        exact o.next t ht
    · intro v hv
      rcases hmem v hv with hv | rfl
      · exact old v hv
      · exact hj.imp (fun hj => ⟨t, ht, hu.symm, hj.symm⟩) id

theorem dismiss (o : Owned h names a) (ht : t ∈ h.tasks) : Owned (h.dismiss t) names a :=
  o.of_retask ht (.inl rfl) rfl rfl rfl rfl

/-- A pump gives up. -/
theorem failPump (o : Owned h names a) (ht : t ∈ h.tasks) {p : Pump} (hj : t.job = .pump p) (cause : Error) :
    Owned (h.failPump t p cause) names a := by
  unfold Hub.failPump
  split
  · exact o.of_retask ht (.inl rfl) rfl rfl rfl rfl
  · next j hr =>
    obtain ⟨hl, -⟩ := o.pump t ht p j hj hr
    obtain ⟨r, m, -, htok, hm⟩ := hl
    have hc : h.tokens.cancel p.token = { h.tokens with cancelled := m :: h.tokens.cancelled } := by
      rw [TokenPool.cancel, htok]
      rfl
    -- the other pumps have other tokens, as this is the only pump of its layer
    have o' := (o.dismiss ht).cancel (n := m) (o.lt_of_lease hm) fun u hu q j' hq hqr hqm => by
      obtain ⟨hu, hne⟩ := mem_others.mp hu
      obtain ⟨⟨r', m', -, htok', hm'⟩, -⟩ := o.pump u hu q j' hq hqr
      rw [htok'] at hqm
      cases hqm
      rw [hm] at hm'
      obtain ⟨rfl, hrid⟩ := Prod.mk.inj (Option.some.inj hm')
      exact hne (congrArg Task.id (o.single u hu t ht q p hq hj (by rw [hqr]; rfl) (hqr.trans hr.symm) hrid.symm))
    rw [hc]
    refine o'.of_relays (relaysOnward_modify _ _ fun r => ⟨rfl, rfl, id, List.prefix_append _ _⟩) fun r' hr' => ?_
    obtain ⟨k, hk⟩ := List.getElem?_of_mem hr'
    rw [List.getElem?_modify] at hk
    obtain ⟨r₁, hr₁, rfl⟩ := Option.map_eq_some_iff.mp hk
    have := o.relay r₁ (List.mem_of_getElem? hr₁)
    split <;> exact this

/-- What a read, a write or feedback changes has no owner. -/
theorem of_eq (o : Owned h names a) (htasks : g.tasks = h.tasks) (hnext : g.nextTask = h.nextTask)
    (htokens : g.tokens = h.tokens) (hrelays : g.relays = h.relays) (hreceiver : g.receiver = h.receiver) :
    Owned g names a := by
  refine o.of_tasks ?_ ?_ ?_ htokens hrelays hreceiver
  · rw [htasks]
    exact o.ids
  · rw [htasks, hnext]
    exact o.next
  · rw [htasks]
    exact fun u hu => .inl ⟨u, hu, rfl, rfl⟩

theorem announce (o : Owned h names a) (hs : h.receiver.Sound) (ht : t ∈ h.tasks) {rids : List String}
    (hj : t.job = .announce rids) :
    ∃ b, Owned (h.announce t rids) names b ∧ a.Grown h.tokens.next b (h.announce t rids).tokens.next := by
  unfold Hub.announce
  split
  · exact ⟨a, o.dismiss ht, .refl _ _⟩
  · apply (o.dismiss ht).startRelay _
    rw [← (o.announced t ht rids hj).2]
    exact hs.rids
  · dsimp only
    split
    · exact ⟨a, o.of_retask ht (.inr ⟨_, .inr rfl, rfl, .inr rfl⟩) rfl rfl rfl rfl, .refl _ _⟩
    · exact ⟨a, o.of_retask ht (.inl rfl) rfl rfl rfl rfl, .refl _ _⟩

theorem next_failPump (h : Hub) (t : Task) (p : Pump) (cause : Error) :
    (h.failPump t p cause).tokens.next = h.tokens.next := by
  unfold Hub.failPump
  split <;> rfl

theorem move (o : Owned h names a) (hs : h.receiver.Sound) (ht : t ∈ h.tasks) (m : Hub.Move h t g) :
    ∃ b, Owned g names b ∧ a.Grown h.tokens.next b g.tokens.next := by
  have failed : ∀ (u : QueueTransport) (e : Egress) (p : Pump) (cause : Error),
      a.Grown h.tokens.next a (Hub.failPump { h with transport := u, egress := e } t p cause).tokens.next :=
    fun u e p cause => .of_le a (Nat.le_of_eq (next_failPump { h with transport := u, egress := e } t p cause).symm)
  cases m with
  | park | round | begin =>
    exact ⟨a, o.of_retask ht (.inr ⟨_, .inl rfl, rfl, .inl rfl⟩) rfl rfl rfl rfl, .refl _ _⟩
  | forward => exact ⟨a, o.of_retask ht (.inr ⟨_, .inr rfl, rfl, .inl rfl⟩) rfl rfl rfl rfl, .refl _ _⟩
  | read | cease | expire => exact ⟨a, o.of_retask ht (.inl rfl) rfl rfl rfl rfl, .refl _ _⟩
  | @refuse p u packet e cause hj =>
    exact ⟨a, failPump (h := { h with transport := u, egress := e }) (o.of_eq rfl rfl rfl rfl rfl) ht hj cause,
      failed u e p cause⟩
  | @fail p u cause hj =>
    exact ⟨a, failPump (h := { h with transport := u }) (o.of_eq rfl rfl rfl rfl rfl) ht hj cause,
      failed u h.egress p cause⟩
  | unrouted hj => exact ⟨a, o.failPump ht hj _, failed h.transport h.egress _ _⟩
  | announce hj => exact o.announce hs ht hj
  | greet =>
    refine ⟨a, o.of_retask ht (.inl ?_) ?_ ?_ ?_ ?_, ?_⟩ <;> unfold Hub.greeted <;> split <;> first | rfl | exact .refl _ _

end Owned

end MediaRelay
