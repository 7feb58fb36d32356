import MediaRelay.Proofs.Readers

/-!
# Relays have tokens of their own

- `Hub.Apart`: relays have tokens of their own, under which no task runs, and so it is in every state that a session
  comes to (`apart_after`);
- `Owned.of_belongsTo`: a task that belongs to a relay has the token of one of its layers;
- `Hub.isCancelled_closeRelay`: to close a relay cancels the tokens of its own tasks, and no others.
-/

namespace MediaRelay

/-! ## Apart -/

namespace Hub

variable {h g : Hub} {t : Task}

/-- No two relays have the same token, and no task runs under a relay's own token. -/
structure Apart (h : Hub) : Prop where
  relays : (h.relays.map Relay.token).Nodup
  tasks : ∀ r ∈ h.relays, ∀ u ∈ h.tasks, ∀ k, u.job.token? = some k → k.ids ≠ r.token.ids

theorem Apart.index_eq (ha : h.Apart) {i j : Nat} {r r' : Relay} (hi : h.relays[i]? = some r)
    (hj : h.relays[j]? = some r') (ht : r.token = r'.token) : i = j := by
  have hlt : i < (h.relays.map Relay.token).length := by
    rw [List.length_map]
    exact (List.getElem?_eq_some_iff.mp hi).1
  refine (List.getElem?_inj hlt ha.relays).mp ?_
  rw [List.getElem?_map, List.getElem?_map, hi, hj, Option.map_some, Option.map_some, ht]

theorem map_token_modify (rs : List Relay) (index : Nat) {f : Relay → Relay} (hf : ∀ r : Relay, (f r).token = r.token) :
    (rs.modify index f).map Relay.token = rs.map Relay.token := by
  refine List.ext_getElem? fun j => ?_
  rw [List.getElem?_map, List.getElem?_map, List.getElem?_modify]
  cases rs[j]? with
  | none => rfl
  | some r =>
    refine congrArg some ?_
    split
    · exact hf r
    · rfl

/-- Where relays keep their tokens there are no new ones. -/
theorem getElem?_relays_eq_none {j : Nat} (hr : g.relays.map Relay.token = h.relays.map Relay.token)
    (hn : h.relays[j]? = none) : g.relays[j]? = none := by
  have hg := congrArg (·[j]?) hr
  simpa only [List.getElem?_map, hn, Option.map_none, Option.map_eq_none_iff] using hg

theorem map_token_startRelay (h : Hub) (index : Nat) (rids : List String) :
    (h.startRelay index rids).1.relays.map Relay.token = h.relays.map Relay.token := by
  rcases h.startRelay_cases index rids with he | ⟨r, -, -, hr, -⟩
  · rw [he]
  · rw [hr]
    exact map_token_modify _ _ fun _ => rfl

theorem map_token_failPump (h : Hub) (t : Task) (p : Pump) (cause : Error) :
    (h.failPump t p cause).relays.map Relay.token = h.relays.map Relay.token := by
  unfold failPump
  split
  · rfl
  · exact map_token_modify _ _ fun _ => rfl

/-- No move gives a relay another token. -/
theorem Move.map_token (m : Move h t g) : g.relays.map Relay.token = h.relays.map Relay.token := by
  cases m with
  | refuse | fail | unrouted => exact map_token_failPump _ t _ _
  | announce =>
    unfold Hub.announce
    split
    · rfl
    · exact (h.dismiss t).map_token_startRelay _ _
    · dsimp only
      split <;> rfl
  | greet =>
    unfold greeted
    split <;> rfl
  | _ => rfl

end Hub

namespace Owned

variable {h g : Hub} {names : Table String Token} {a : Leases} {u : Task} {k : Token} {j : Nat} {r r' : Relay}

/-- The token of a relay has one number, which has been taken. -/
theorem ids_relay (o : Owned h names a) (hr : r ∈ h.relays) : ∃ n < h.tokens.next, r.token.ids = [n] ∧ a n = none :=
  (o.relay r hr).2

theorem ids_ne_nil (o : Owned h names a) (hr : r ∈ h.relays) : r.token.ids ≠ [] := by
  obtain ⟨n, -, hi, -⟩ := o.ids_relay hr
  rw [hi]
  exact List.cons_ne_nil _ _

theorem token_eq_of_ids (o : Owned h names a) (hr : r ∈ h.relays) (hr' : r' ∈ h.relays)
    (hi : r.token.ids = r'.token.ids) : r.token = r'.token := by
  have h₁ := (o.relay r hr).1
  have h₂ := (o.relay r' hr').1
  generalize r.token = k₁ at hi h₁
  generalize r'.token = k₂ at hi h₂
  obtain ⟨ids₁, of₁⟩ := k₁
  obtain ⟨ids₂, of₂⟩ := k₂
  dsimp only at hi h₁ h₂
  rw [hi, h₁, h₂]

/-- A task has a token that no relay gave to a layer, or one that a relay did give to a layer. -/
theorem token_cases (o : Owned h names a) (hu : u ∈ h.tasks) (hk : u.job.token? = some k) :
    k.Rooted a h.tokens.next
      ∨ ∃ j rid, k.Leased a h.relays j rid ∧ ∀ k', k.ids.tail = k'.ids → u.serves k' rid = true := by
  obtain ⟨number, job, stage⟩ := u
  cases job with
  | pump p =>
    cases hk
    cases hp : p.relay with
    | none => exact .inl (o.ownPump _ hu p rfl hp)
    | some j => exact .inr ⟨j, p.rid, (o.pump _ hu p j rfl hp).1, fun k' hi => by simp [Task.serves, hi]⟩
  | feedback q =>
    cases hk
    rcases o.scheduler _ hu q rfl with hr | ⟨j, hl⟩
    · exact .inl hr
    · exact .inr ⟨j, q.rid, hl, fun k' hi => by simp [Task.serves, hi]⟩
  | _ => cases hk

/-- Relays have tokens of their own as long as no relay gets another one. -/
theorem apart (o : Owned h names a) (ha : h.Apart) (hr : g.relays.map Relay.token = h.relays.map Relay.token)
    (hb : ∀ u ∈ g.tasks, h.Begets u) : g.Apart := by
  refine ⟨hr ▸ ha.relays, fun r hrg u hu k hk he => ?_⟩
  have hmem : r.token ∈ h.relays.map Relay.token := hr ▸ List.mem_map_of_mem hrg
  obtain ⟨r', hr', ht⟩ := List.mem_map.mp hmem
  obtain ⟨n, hn, hi, -⟩ := o.ids_relay hr'
  rcases hb u hu with ⟨v, hv, -, hj⟩ | hnew | ⟨i, r₀, rid, hr₀, -, -, hs⟩
  · exact ha.tasks r' hr' v hv k (hj ▸ hk) (ht ▸ he)
  · rw [← ht, hi, hnew.2 k hk] at he
    cases he
    exact Nat.lt_irrefl _ hn
  · obtain ⟨k', hk', htail⟩ := Task.belongsTo_iff.mp (Task.belongsTo_iff_serves.mpr ⟨rid, hs⟩)
    rw [hk] at hk'
    cases hk'
    rw [← ht, hi] at he
    rw [he] at htail
    exact o.ids_ne_nil (List.mem_of_getElem? hr₀) htail.symm

end Owned

namespace Session

variable {s : Session}

/-- No deed gives a relay another token; a new relay gets one that has not been taken. -/
theorem Deed.apart {c : Command} {g : Hub} {names : Table String Token} (hp : s.Proper) (ha : s.hub.Apart)
    (d : s.Deed c g names) : g.Apart := by
  obtain ⟨a, o⟩ := hp.owned
  have hb : ∀ u ∈ g.tasks, s.hub.Begets u := fun u hu => d.begets hu
  cases d with
  | read q =>
    obtain ⟨u, hu, -⟩ := s.hub.read_transport q
    rw [hu]
    exact ⟨ha.relays, ha.tasks⟩
  | startRelay => exact o.apart ha (s.hub.map_token_startRelay _ _) hb
  | addRelay =>
    -- nobody has the number that the new relay gets
    constructor
    · show ((s.hub.relays ++ [_]).map Relay.token).Nodup
      rw [List.map_append, List.map_singleton]
      refine List.nodup_append.mpr ⟨ha.relays, List.nodup_singleton _, fun k hk k' hk' he => ?_⟩
      obtain ⟨r, hr, rfl⟩ := List.mem_map.mp hk
      obtain ⟨n, hn, hi, -⟩ := o.ids_relay hr
      rw [he, List.mem_singleton.mp hk'] at hi
      cases hi
      exact Nat.lt_irrefl _ hn
    · intro r hr u hu k hk
      rcases List.mem_append.mp hr with hr | hr
      · exact ha.tasks r hr u hu k hk
      · rw [List.mem_singleton.mp hr]
        intro he
        have he : k.ids = [s.hub.tokens.next] := he
        rcases o.token_cases hu hk with ⟨n, hn, hi, -⟩ | ⟨j, rid, ⟨r', m, hr', rfl, -⟩, -⟩
        · rw [hi] at he
          cases he
          exact Nat.lt_irrefl _ hn
        · exact o.ids_ne_nil (List.mem_of_getElem? hr') (congrArg List.tail he)
  | _ => exact o.apart ha rfl hb

theorem apart_invariant : Invariant fun s _ => s.Proper ∧ s.hub.Apart where
  move _ _ _ _ h hm := by
    obtain ⟨ht, hmove⟩ := Hub.of_mover? hm
    obtain ⟨a, o⟩ := h.1.owned
    exact ⟨h.1.move hm, o.apart h.2 (Hub.move_of_move? hmove).map_token fun u hu => (Hub.retasked hmove).begets ht hu⟩
  clock _ _ time h := ⟨h.1.clock time, h.2.relays, h.2.tasks⟩
  command _ _ _ h hc := ⟨h.1.perform hc, (deed_of_perform hc).apart h.1 h.2⟩
  shown _ _ h := ⟨h.1.shown, h.2⟩

/-- In every state that a session comes to relays have tokens of their own. -/
theorem apart_after (settings : Settings) (kind : Kind) (cs : List Command) :
    ((new settings kind).after cs).Proper ∧ ((new settings kind).after cs).hub.Apart :=
  @Invariant.after _ apart_invariant cs _ [] ⟨proper_new settings kind, List.nodup_nil, fun r hr => by cases hr⟩

end Session

/-! ## The tasks of one relay -/

namespace Owned

variable {h : Hub} {names : Table String Token} {a : Leases} {u : Task} {k : Token} {j : Nat} {r : Relay}

/-- Who belongs to a relay has the token of one of its layers. -/
theorem of_belongsTo (o : Owned h names a) (ha : h.Apart) (hu : u ∈ h.tasks) (hr : h.relays[j]? = some r)
    (hb : u.belongsTo r.token = true) :
    ∃ m rid, u.job.token? = some ⟨m :: r.token.ids, true⟩ ∧ a m = some (j, rid) ∧ u.serves r.token rid = true := by
  have hmem := List.mem_of_getElem? hr
  obtain ⟨k, hk, hi⟩ := Task.belongsTo_iff.mp hb
  rcases o.token_cases hu hk with ⟨n, -, hn, -⟩ | ⟨j', rid, ⟨r', m, hr', rfl, hm⟩, hs⟩
  · rw [hn] at hi
    exact absurd hi.symm (o.ids_ne_nil hmem)
  · have hi : r'.token.ids = r.token.ids := hi
    obtain rfl := ha.index_eq hr' hr (o.token_eq_of_ids (List.mem_of_getElem? hr') hmem hi)
    exact ⟨m, rid, by rw [← hi]; exact hk, hm, hs _ hi⟩

/-- A relay that was started starts no more tasks. -/
theorem old_of_belongsTo (o : Owned h names a) (ha : h.Apart) (hr : h.relays[j]? = some r) (hst : r.started = true)
    (hb : h.Begets u) (hbel : u.belongsTo r.token = true) : ∃ v ∈ h.tasks, v.id = u.id ∧ v.job = u.job := by
  have hmem := List.mem_of_getElem? hr
  rcases hb with hv | hnew | ⟨i, r', rid, hr', hst', -, hs'⟩
  · exact hv
  · rw [Task.belongsTo_of_isOwn hnew.isOwn (o.ids_ne_nil hmem)] at hbel
    cases hbel
  · obtain ⟨x, hx, hi⟩ := Task.belongsTo_iff.mp hbel
    obtain ⟨x', hx', hi'⟩ := Task.belongsTo_iff.mp (Task.belongsTo_iff_serves.mpr ⟨rid, hs'⟩)
    rw [hx] at hx'
    cases hx'
    have he := o.token_eq_of_ids (List.mem_of_getElem? hr') hmem (hi'.symm.trans hi)
    obtain rfl := ha.index_eq hr' hr he
    rw [hr] at hr'
    cases hr'
    rw [hst] at hst'
    cases hst'

/-- Only relays that were started have tasks. -/
theorem started_of_belongsTo (o : Owned h names a) (ha : h.Apart) (hu : u ∈ h.tasks) (hr : h.relays[j]? = some r)
    (hb : u.belongsTo r.token = true) : r.started = true := by
  obtain ⟨m, rid, -, hm, -⟩ := o.of_belongsTo ha hu hr hb
  obtain ⟨r', hr', hs⟩ := o.started m j rid hm
  rw [hr] at hr'
  cases hr'
  exact hs

/-- The pumps of a relay belong to it. -/
theorem belongsTo_of_relay (o : Owned h names a) (hu : u ∈ h.tasks) {p : Pump} (hj : u.job = .pump p)
    (hp : p.relay = some j) : ∃ r, h.relays[j]? = some r ∧ u.belongsTo r.token = true := by
  obtain ⟨⟨r, m, hr, hk, -⟩, -⟩ := o.pump u hu p j hj hp
  refine ⟨r, hr, Task.belongsTo_iff.mpr ⟨p.token, by rw [hj]; rfl, ?_⟩⟩
  rw [hk]
  rfl

/-- Who belongs to a relay that is cancelled is cancelled. -/
theorem isCancelled_of_belongsTo (o : Owned h names a) (ha : h.Apart) (hu : u ∈ h.tasks) (hr : h.relays[j]? = some r)
    (hb : u.belongsTo r.token = true) (hc : h.isCancelled r.token = true) :
    ∃ k, u.job.token? = some k ∧ h.isCancelled k = true := by
  obtain ⟨m, -, hk, -⟩ := o.of_belongsTo ha hu hr hb
  refine ⟨_, hk, ?_⟩
  simp only [Hub.isCancelled, TokenPool.isCancelled, Bool.or_eq_true, Bool.and_eq_true, List.any_eq_true] at hc ⊢
  rcases hc with hc | ⟨n, hn, hnc⟩
  · exact .inl ⟨trivial, hc.2⟩
  · exact .inr ⟨n, List.mem_cons_of_mem _ hn, hnc⟩

/-- The token of a task has no number of a relay that it does not belong to. -/
theorem not_mem_ids (o : Owned h names a) (ha : h.Apart) (hu : u ∈ h.tasks) (hk : u.job.token? = some k)
    (hr : h.relays[j]? = some r) (hb : u.belongsTo r.token = false) {n : Nat} (hn : n ∈ r.token.ids) : n ∉ k.ids := by
  have hmem := List.mem_of_getElem? hr
  obtain ⟨x, -, hx, hax⟩ := o.ids_relay hmem
  rw [hx] at hn
  obtain rfl := List.mem_singleton.mp hn
  intro hnk
  rcases o.token_cases hu hk with ⟨y, -, hy, -⟩ | ⟨j', rid, ⟨r', m, hr', rfl, hm⟩, -⟩
  · rw [hy] at hnk
    obtain rfl := List.mem_singleton.mp hnk
    exact ha.tasks r hmem u hu k hk (hy.trans hx.symm)
  · rcases List.mem_cons.mp hnk with rfl | hnk
    · rw [hax] at hm
      cases hm
    · obtain ⟨y, -, hy, -⟩ := o.ids_relay (List.mem_of_getElem? hr')
      rw [hy] at hnk
      obtain rfl := List.mem_singleton.mp hnk
      have : u.belongsTo r.token = true := Task.belongsTo_iff.mpr ⟨_, hk, hy.trans hx.symm⟩
      rw [hb] at this
      cases this

/-- The tokens of two relays have no number in common. -/
theorem disjoint_ids (o : Owned h names a) (ha : h.Apart) {i : Nat} {r' : Relay} (hr : h.relays[j]? = some r)
    (hr' : h.relays[i]? = some r') (hij : i ≠ j) {n : Nat} (hn : n ∈ r.token.ids) : n ∉ r'.token.ids := by
  have hmem := List.mem_of_getElem? hr
  have hmem' := List.mem_of_getElem? hr'
  obtain ⟨x, -, hx, -⟩ := o.ids_relay hmem
  obtain ⟨y, -, hy, -⟩ := o.ids_relay hmem'
  intro hn'
  rw [hx, List.mem_singleton] at hn
  rw [hy, List.mem_singleton] at hn'
  exact hij (ha.index_eq hr' hr (o.token_eq_of_ids hmem' hmem (by rw [hx, hy, ← hn, ← hn'])))

end Owned

/-- To cancel tokens cancels no token that does not descend from one of them. -/
theorem TokenPool.isCancelled_of_append {p p' : TokenPool} {k : Token} {ns : List Nat}
    (hp : p'.cancelled = ns ++ p.cancelled) (hn : ∀ n ∈ ns, n ∉ k.ids) (closing : Bool) :
    p'.isCancelled closing k = p.isCancelled closing k := by
  have hc : p'.isCancelled closing k = true ↔ p.isCancelled closing k = true := by
    simp only [TokenPool.isCancelled, hp, Bool.or_eq_true, List.any_eq_true, List.contains_iff_mem, List.mem_append]
    refine or_congr_right ⟨?_, ?_⟩
    · rintro ⟨n, hk, hc⟩
      exact ⟨n, hk, hc.resolve_left fun ht => hn n ht hk⟩
    · rintro ⟨n, hk, hc⟩
      exact ⟨n, hk, .inr hc⟩
  exact Bool.eq_iff_iff.mpr hc

/-- To close a relay cancels no token that does not descend from the relay's. -/
theorem Hub.isCancelled_closeRelay {h : Hub} {r : Relay} {k : Token} (hk : ∀ n ∈ r.token.ids, n ∉ k.ids) :
    (h.closeRelay r).isCancelled k = h.isCancelled k :=
  TokenPool.isCancelled_of_append rfl (fun n hn => hk n (List.mem_of_mem_take hn)) _

end MediaRelay
