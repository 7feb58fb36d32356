import MediaRelay.Proofs.Failing
import MediaRelay.Proofs.Gating
import MediaRelay.Proofs.Tokens

/-!
# The tree of tokens

A relay gives each layer a token that descends from the relay's, which descends from the receiver's as do the tokens
that the receiver hands out. Cancellation goes down this tree and never up or sideways: `Session.TokenTree` says which
tokens are cancelled after a run, by what was noted of its commands, by whether the receiver was told to stop, and by
the failures that relays have published.

- `Hub.Move.falls`: a move cancels nothing but the token of a layer that fails;
- `Layered`: the token of a layer is cancelled itself exactly if the layer has failed;
- `Session.lineal_after`: so it is in every state that a session comes to.
-/

namespace MediaRelay

/-! ## Layers that fail -/

namespace Hub

variable {h g : Hub} {t : Task} {names : Table String Token} {a : Leases}

/-- From one hub to another nothing is cancelled and published but the token and the failure of one layer, if any. -/
def Falls (h : Hub) (a : Leases) (g : Hub) : Prop :=
  (g.tokens.cancelled = h.tokens.cancelled ∧ ∀ j, g.published j = h.published j)
    ∨ ∃ m j f, a m = some (j, f.rid) ∧ g.tokens.cancelled = m :: h.tokens.cancelled
      ∧ g.published j = h.published j ++ [f] ∧ ∀ i, i ≠ j → g.published i = h.published i

theorem falls_failPump (o : Owned h names a) (ht : t ∈ h.tasks) {p : Pump} (hj : t.job = .pump p) (u : QueueTransport)
    (e : Egress) (cause : Error) : h.Falls a (failPump { h with transport := u, egress := e } t p cause) := by
  cases hp : p.relay with
  | none =>
    refine .inl ⟨?_, fun j => published_failPump (h := { h with transport := u, egress := e }) (by simp [hp]) t cause⟩
    simp only [failPump, hp]
    rfl
  | some j =>
    obtain ⟨⟨r, m, hr, htok, hm⟩, -⟩ := o.pump t ht p j hj hp
    refine .inr ⟨m, j, ⟨p.rid, h.ssrcOf p.rid, cause⟩, hm, ?_, ?_, fun i hi => ?_⟩
    · simp [failPump, hp, TokenPool.cancel, htok]
    · exact published_failPump_self (h := { h with transport := u, egress := e }) hr hp t cause
    · refine published_failPump (h := { h with transport := u, egress := e }) ?_ t cause
      rw [hp]
      exact fun he => hi (Option.some.inj he).symm

/-- A move cancels nothing but the token of a layer that fails. -/
theorem Move.falls (m : Move h t g) (o : Owned h names a) (ht : t ∈ h.tasks) : h.Falls a g := by
  cases m with
  | @refuse p u packet e cause hj => exact falls_failPump o ht hj u e cause
  | @fail p u cause hj => exact falls_failPump o ht hj u h.egress cause
  | unrouted hj => exact falls_failPump o ht hj h.transport h.egress _
  | announce =>
    unfold Hub.announce
    split
    · exact .inl ⟨rfl, fun _ => rfl⟩
    · next index _ =>
      refine .inl ⟨?_, fun j => (h.dismiss t).published_startRelay index _⟩
      rcases (h.dismiss t).startRelay_cases index _ with he | ⟨r, -, -, -, hc, -⟩
      · rw [he]
        rfl
      · exact hc
    · dsimp only
      split <;> exact .inl ⟨rfl, fun _ => rfl⟩
  | greet =>
    unfold greeted
    split <;> exact .inl ⟨rfl, fun _ => rfl⟩
  | _ => exact .inl ⟨rfl, fun _ => rfl⟩

end Hub

/-- The token of a layer is cancelled itself exactly if the layer has failed, and all tasks of the past have had the
tokens of layers or such as no relay gives to one. -/
structure Layered (h : Hub) (past : List Change) (a : Leases) : Prop where
  fallen : ∀ m j rid, a m = some (j, rid) → (m ∈ h.tokens.cancelled ↔ ∃ f ∈ h.published j, f.rid = rid)
  leased : ∀ j, ∀ f ∈ h.published j, ∃ m, a m = some (j, f.rid)
  tasks : ∀ x ∈ past, ∀ u ∈ x.after.tasks, ∀ k, u.job.token? = some k → k.Rooted a h.tokens.next
    ∨ ∃ j rid, k.Leased a h.relays j rid ∧ ∀ k', k.ids.tail = k'.ids → u.serves k' rid = true

namespace Layered

variable {h g : Hub} {past : List Change} {a b : Leases} {names names' : Table String Token} {x : Change}

theorem mono {rs : List Relay} {next' : Nat} {u : Task} {k : Token} (hg : a.Grown h.tokens.next b next')
    (o : Owned h names a) (hr : RelaysOnward h.relays rs)
    (hk : k.Rooted a h.tokens.next
      ∨ ∃ j rid, k.Leased a h.relays j rid ∧ ∀ k', k.ids.tail = k'.ids → u.serves k' rid = true) :
    k.Rooted b next' ∨ ∃ j rid, k.Leased b rs j rid ∧ ∀ k', k.ids.tail = k'.ids → u.serves k' rid = true := by
  rcases hk with hk | ⟨j, rid, hk, hs⟩
  · exact .inl (hk.mono hg)
  · obtain ⟨r, m, hj, rfl, ha⟩ := hk.mono hr
    exact .inr ⟨j, rid, ⟨r, m, hj, rfl, (hg.old m (o.lt_of_lease ha)).trans ha⟩, hs⟩

/-- A change comes next that cancels no new number, and the token of a layer exactly if it publishes its failure. -/
theorem next (l : Layered h past a) (o : Owned h names a) (o' : Owned g names' b)
    (hg : a.Grown h.tokens.next b g.tokens.next) (hr : RelaysOnward h.relays g.relays) (hx : x.after = g)
    (lt : ∀ m ∈ g.tokens.cancelled, m < h.tokens.next)
    (leased : ∀ j, ∀ f ∈ g.published j, ∃ m, a m = some (j, f.rid))
    (fallen : ∀ m j rid, a m = some (j, rid) → (m ∈ g.tokens.cancelled ↔ ∃ f ∈ g.published j, f.rid = rid)) :
    Layered g (past ++ [x]) b := by
  have kept : ∀ {m y}, a m = some y → b m = some y := fun {m y} hm => (hg.old m (o.lt_of_lease hm)).trans hm
  refine ⟨fun m j rid hm => ?_, fun j f hf => ?_, fun y hy u hu k hk => ?_⟩
  · by_cases hlt : m < h.tokens.next
    · exact fallen m j rid ((hg.old m hlt).symm.trans hm)
    · refine ⟨fun hc => absurd (lt m hc) hlt, ?_⟩
      rintro ⟨f, hf, rfl⟩
      obtain ⟨m', hm'⟩ := leased j f hf
      rw [o'.injective m m' _ hm (kept hm')] at hlt
      exact absurd (o.lt_of_lease hm') hlt
  · obtain ⟨m, hm⟩ := leased j f hf
    exact ⟨m, kept hm⟩
  · rcases List.mem_append.mp hy with hy | hy
    · exact mono hg o hr (l.tasks y hy u hu k hk)
    · rw [List.mem_singleton.mp hy, hx] at hu
      exact o'.token_cases hu hk

theorem fall (l : Layered h past a) (o : Owned h names a) (o' : Owned g names' b)
    (hg : a.Grown h.tokens.next b g.tokens.next) (hr : RelaysOnward h.relays g.relays) (hx : x.after = g)
    (hf : h.Falls a g) : Layered g (past ++ [x]) b := by
  have taken : ∀ m ∈ h.tokens.cancelled, m < h.tokens.next := fun m hm =>
    Nat.lt_of_not_le fun hle => (o.fresh m hle).2 hm
  rcases hf with ⟨hc, hp⟩ | ⟨m, j, f, hm, hc, hp, hother⟩
  · refine l.next o o' hg hr hx (hc ▸ taken) (fun j f hf => l.leased j f (hp j ▸ hf)) fun m j rid hm => ?_
    rw [hc, hp]
    exact l.fallen m j rid hm
  · refine l.next o o' hg hr hx ?_ (fun i f' hf' => ?_) fun m' i rid hm' => ?_
    · rw [hc]
      exact List.forall_mem_cons.mpr ⟨o.lt_of_lease hm, taken⟩
    · by_cases hi : i = j
      · rw [hi, hp] at hf'
        rw [hi]
        rcases List.mem_append.mp hf' with hf' | hf'
        · exact l.leased j f' hf'
        · exact List.mem_singleton.mp hf' ▸ ⟨m, hm⟩
      · exact l.leased i f' (hother i hi ▸ hf')
    · -- a layer has one token, and a token one layer
      have hiff : m' = m ↔ i = j ∧ f.rid = rid := by
        constructor
        · rintro rfl
          obtain ⟨rfl, rfl⟩ := Prod.mk.inj (Option.some.inj (hm'.symm.trans hm))
          exact ⟨rfl, rfl⟩
        · rintro ⟨rfl, rfl⟩
          exact o.injective m' m _ hm' hm
      rw [hc, List.mem_cons, hiff, l.fallen m' i rid hm']
      by_cases hi : i = j
      · subst hi
        rw [hp]
        simp [or_and_right, exists_or, or_comm]
      · simp [hi, hother i hi]

end Layered

/-! ## Runs -/

namespace Session

variable {s : Session} {past : List Change} {notes : List TokenNote}

/-- What is known of tokens at any time. -/
structure Lineal (s : Session) (past : List Change) (notes : List TokenNote) : Prop where
  proper : s.Proper
  kept : ∃ a, Owned s.hub s.tokens a ∧ Ledger s.books notes a s.hub.tokens.next ∧ Layered s.hub past a

theorem Lineal.move (l : s.Lineal past notes) {t : Task} {g : Hub} (hm : s.hub.mover? = some (t, g)) :
    (s.setHub g).Lineal (past ++ [⟨.move t, s.hub, g⟩]) notes := by
  obtain ⟨hp, a, o, hl, hy⟩ := l
  obtain ⟨ht, hmove⟩ := Hub.of_mover? hm
  have m := Hub.move_of_move? hmove
  obtain ⟨b, o', hg⟩ := o.move hp.sound ht m
  have hf := m.falls o ht
  refine ⟨hp.move hm, b, o', ?_, hy.fall o o' hg m.onward.relays rfl hf⟩
  have he : (s.setHub g).books = { s.books with cancelled := g.tokens.cancelled } := by
    show Books.mk _ _ (g.relays.map _) = _
    rw [m.map_token]
    rfl
  rw [he]
  rcases hf with ⟨hc, -⟩ | ⟨n, j, f, hn, hc, -⟩ <;> rw [hc]
  · exact hl.grown hg
  · exact (hl.fall hn).grown hg

theorem Lineal.clock (l : s.Lineal past notes) (time : Nat) :
    (s.setHub { s.hub with clock := time }).Lineal past notes := by
  obtain ⟨hp, a, o, hl, hy⟩ := l
  exact ⟨hp.clock time, a, o.of_eq rfl rfl rfl rfl rfl, hl, hy.fallen, hy.leased, hy.tasks⟩

/-- What a command gives belongs to no layer. -/
theorem rooted_of_entered {b b' : Books} {ns : List TokenNote} {next : Nat} {g : Hub} {names : Table String Token}
    {a : Leases} (he : b.Entered next ns b') (hb : b' = g.books names) (o : Owned g names a) :
    ∀ t ∈ given ns, t.Rooted a g.tokens.next := by
  have named : ∀ {name t}, b.names.insert name t = names → t.Rooted a g.tokens.next := fun {name t} hn =>
    o.named name t (by rw [← hn, Table.find?_insert_self])
  intro t ht
  cases he with
  | nothing | cancelled | closed => cases ht
  | handed name | own name =>
    obtain rfl := List.mem_singleton.mp ht
    exact named (congrArg Books.names hb)
  | relay =>
    obtain rfl := List.mem_singleton.mp ht
    have hmem : ⟨[next], true⟩ ∈ g.relays.map Relay.token := by
      rw [← show _ = g.relays.map Relay.token from congrArg Books.relays hb]
      exact List.mem_append_right _ (List.mem_singleton_self _)
    obtain ⟨r, hr, he⟩ := List.mem_map.mp hmem
    exact he ▸ (o.relay r hr).2

/-- A command cancels at most one number, which belongs to no layer. -/
theorem cancelled_of_entered {b b' : Books} {ns : List TokenNote} {a : Leases} {next : Nat}
    (l : Ledger b notes a next) (he : b.Entered next ns b') :
    b'.cancelled = b.cancelled ∨ ∃ n < next, a n = none ∧ b'.cancelled = n :: b.cancelled := by
  have struck : ∀ t ∈ given notes, ∃ n < next, a n = none ∧ t.ids.take 1 ++ b.cancelled = n :: b.cancelled :=
    fun t ht => by
      obtain ⟨n, hn, hi, ha⟩ := l.rooted t ht
      exact ⟨n, hn, ha, by rw [hi]; rfl⟩
  cases he with
  | cancelled hn =>
    rw [l.names] at hn
    rcases (noted_of_find? hn).resolve_left (fun h => by cases h) with h | h
    · exact .inr (struck _ (mem_given_of_mem h rfl))
    · exact .inr (struck _ (mem_given_of_mem h rfl))
  | closed hr =>
    rw [l.relays] at hr
    exact .inr (struck _ (mem_given_of_mem (mem_given_of_relay hr) rfl))
  | _ => exact .inl rfl

theorem Lineal.perform (l : s.Lineal past notes) {c : Command} (hc : ∀ n, c ≠ .advance n) :
    (s.perform c).1.Lineal (past ++ s.performChanges c) (notes ++ s.noted c) := by
  obtain ⟨hp, a, o, hl, hy⟩ := l
  have d := deed_of_perform (s := s) hc
  obtain ⟨b, o', hg⟩ := d.owned hp.sound o
  have he := noted_perform (s := s) hc
  have hfresh := (o.fresh _ (Nat.le_refl _)).2
  have taken : ∀ m ∈ s.hub.tokens.cancelled, m < s.hub.tokens.next := fun m hm =>
    Nat.lt_of_not_le fun hle => (o.fresh m hle).2 hm
  rw [performChanges_of_ne hc]
  refine ⟨hp.perform hc, b, o', hl.enter he hg (rooted_of_entered he rfl o') hfresh, ?_⟩
  have hpub : ∀ j, (s.perform c).1.hub.published j = s.hub.published j := d.published
  refine hy.next o o' hg (d.onward hp.sound).relays rfl ?_ (fun j f hf => hy.leased j f (hpub j ▸ hf))
    fun m j rid hm => ?_
  · rcases cancelled_of_entered hl he with hc | ⟨n, hn, -, hc⟩
    · rw [show (s.perform c).1.hub.tokens.cancelled = s.hub.tokens.cancelled from hc]
      exact taken
    · rw [show (s.perform c).1.hub.tokens.cancelled = n :: s.hub.tokens.cancelled from hc]
      exact List.forall_mem_cons.mpr ⟨hn, taken⟩
  · rw [hpub, ← hy.fallen m j rid hm]
    rcases cancelled_of_entered hl he with hc | ⟨n, -, ha, hc⟩
    · rw [show (s.perform c).1.hub.tokens.cancelled = s.hub.tokens.cancelled from hc]
    · rw [show (s.perform c).1.hub.tokens.cancelled = n :: s.hub.tokens.cancelled from hc, List.mem_cons,
        or_iff_right]
      rintro rfl
      cases hm.symm.trans ha

theorem Lineal.shown (l : s.Lineal past notes) : s.markShown.Lineal past notes :=
  ⟨l.proper.shown, l.kept⟩

theorem Lineal.step (l : s.Lineal past notes) (c : Command) :
    (s.step c).1.Lineal (past ++ s.changes c) (notes ++ s.noted c) := by
  have move : ∀ {t : Session}, ∀ h past u g, (t.setHub h).Lineal past (notes ++ s.noted c) → h.mover? = some (u, g) →
      (t.setHub g).Lineal (past ++ [⟨.move u, h, g⟩]) (notes ++ s.noted c) := fun h past u g hl hm => hl.move hm
  have hp : (s.perform c).1.Lineal (past ++ s.performChanges c) (notes ++ s.noted c) := by
    cases c with
    | advance n =>
      have hn : notes ++ s.noted (.advance n) = notes := List.append_nil _
      exact Hub.pass_keeps (P := fun h past => (s.setHub h).Lineal past (notes ++ s.noted (.advance n))) move
        (fun h past time hl => hl.clock time) _ _ (by rw [hn]; exact l)
    | _ => exact l.perform (by intro _ h; cases h)
  rw [step_fst, changes, ← List.append_assoc]
  exact (Hub.run_keeps (P := fun h past => ((s.perform c).1.setHub h).Lineal past (notes ++ s.noted c)) move _ hp).shown

theorem Lineal.after (l : s.Lineal past notes) (cs : List Command) :
    (s.after cs).Lineal (past ++ s.history cs) (notes ++ s.notes cs) := by
  induction cs generalizing s past notes with
  | nil => simpa [history, Session.notes] using l
  | cons c cs ih =>
    rw [after_cons, history, Session.notes, ← List.append_assoc, ← List.append_assoc]
    exact ih (l.step c)

theorem lineal_new (settings : Settings) (kind : Kind) : (new settings kind).Lineal [] [] := by
  obtain ⟨a, o⟩ := (proper_new settings kind).owned
  refine ⟨proper_new settings kind, a, o, ?_, ?_⟩
  · refine ⟨fun t ht => ?_, fun x hx => ?_, List.nodup_nil, rfl, rfl, fun t ht => ?_, fun t ht => ?_, fun t ht => ?_⟩
    · cases ht
    · cases hx
    · cases ht
    · cases ht
    · cases ht
  · refine ⟨fun m j rid hm => ?_, fun j f hf => ?_, fun x hx => ?_⟩
    · obtain ⟨r, hr, -⟩ := o.started m j rid hm
      cases hr
    · cases hf
    · cases hx

/-- In every state that a session comes to that is known of tokens. -/
theorem lineal_after (settings : Settings) (kind : Kind) (cs : List Command) :
    ((new settings kind).after cs).Lineal ((new settings kind).history cs) ((new settings kind).notes cs) :=
  (lineal_new settings kind).after cs

/-! ## The tree -/

/-- Which tokens are cancelled after what happened and what was noted of it. -/
structure TokenTree (s : Session) (past : List Change) (notes : List TokenNote) : Prop where
  /-- No two tokens that were given are the same. -/
  distinct : (given notes).Nodup
  /-- A name stands for the token that was last given under it. -/
  names : s.tokens = notes.foldl TokenNote.name {}
  /-- The relays are those that were added, in that order. -/
  relays : s.hub.relays.map Relay.token = notes.filterMap TokenNote.relay?
  /-- The receiver's own token is cancelled once it was told to stop, whatever came of that. -/
  receiver : s.hub.receiver.closing = wasStopped past
  handed : ∀ name t, .handed name t ∈ notes →
    (s.hub.isCancelled t = true ↔ .cancelled t ∈ notes ∨ wasStopped past = true)
  own : ∀ name t, .own name t ∈ notes → (s.hub.isCancelled t = true ↔ .cancelled t ∈ notes)
  relay : ∀ r ∈ s.hub.relays, s.hub.isCancelled r.token = true ↔ .closed r.token ∈ notes ∨ wasStopped past = true
  /-- The token under which a task of a relay has run for a layer. -/
  layer : ∀ x ∈ past, ∀ u ∈ x.after.tasks, ∀ j r rid k, s.hub.relays[j]? = some r → u.serves r.token rid = true →
    u.job.token? = some k →
    (s.hub.isCancelled k = true
      ↔ (∃ f ∈ s.hub.published j, f.rid = rid) ∨ .closed r.token ∈ notes ∨ wasStopped past = true)

section Cancelled

variable {a : Leases} {t : Token} {next : Nat}

/-- Whether a token that was given is cancelled: by itself, or with the receiver. -/
theorem isCancelled_given (l : Ledger s.books notes a next) (ht : t ∈ given notes) :
    s.hub.isCancelled t = true ↔ (.cancelled t ∈ notes ∨ .closed t ∈ notes)
      ∨ t.ofReceiver = true ∧ s.hub.receiver.closing = true := by
  obtain ⟨n, -, hi, -⟩ := l.rooted t ht
  rw [← l.cut t ht n (by rw [hi]; exact List.mem_singleton_self _), or_comm]
  simp [Hub.isCancelled, TokenPool.isCancelled, hi, books, Hub.books]

/-- A token that has a name is no relay's. -/
theorem not_closed (l : Ledger s.books notes a next) {x : TokenNote} (hx : x ∈ notes) (ht : x.given? = some t)
    (hr : x.relay? = none) : .closed t ∉ notes := by
  intro hc
  obtain rfl := note_unique l.distinct hx (l.closed t hc) ht rfl
  cases hr

/-- The token of a relay has no name. -/
theorem not_cancelled (l : Ledger s.books notes a next) (hr : .relay t ∈ notes) : .cancelled t ∉ notes := by
  intro hc
  obtain ⟨name, h | h⟩ := l.cancelled t hc <;> cases note_unique l.distinct hr h rfl rfl

/-- Whether a relay's token is cancelled. -/
theorem isCancelled_relay (l : Ledger s.books notes a next) {r : Relay} (hr : r ∈ s.hub.relays) :
    s.hub.isCancelled r.token = true ↔ .closed r.token ∈ notes ∨ s.hub.receiver.closing = true := by
  have hn : .relay r.token ∈ notes := mem_given_of_relay (l.relays ▸ List.mem_map_of_mem hr)
  rw [isCancelled_given l (mem_given_of_mem hn rfl), l.flags _ hn _ rfl]
  simp [not_cancelled l hn, TokenNote.descends]

end Cancelled

/-- In every state that a session comes to tokens are cancelled down the tree, and not up or sideways. -/
theorem tokenTree_after (settings : Settings) (kind : Kind) (cs : List Command) :
    ((new settings kind).after cs).TokenTree ((new settings kind).history cs) ((new settings kind).notes cs) := by
  obtain ⟨-, a, o, l, hy⟩ := lineal_after settings kind cs
  have ha := (apart_after settings kind cs).2
  have hclosing := (told_after settings kind cs).closing
  generalize (new settings kind).after cs = s at *
  generalize (new settings kind).history cs = past at *
  generalize (new settings kind).notes cs = notes at *
  refine ⟨l.distinct.of_map _, l.names, l.relays, hclosing, fun name t ht => ?_, fun name t ht => ?_, fun r hr => ?_,
    fun x hx u hu j r rid k hr hs hk => ?_⟩
  · rw [isCancelled_given l (mem_given_of_mem ht rfl), l.flags _ ht _ rfl, hclosing]
    simp [not_closed l ht rfl rfl, TokenNote.descends]
  · rw [isCancelled_given l (mem_given_of_mem ht rfl), l.flags _ ht _ rfl]
    simp [not_closed l ht rfl rfl, TokenNote.descends]
  · rw [isCancelled_relay l hr, hclosing]
  · have hmem := List.mem_of_getElem? hr
    obtain ⟨k', hk', htail⟩ := Task.belongsTo_iff.mp (Task.belongsTo_iff_serves.mpr ⟨rid, hs⟩)
    cases hk.symm.trans hk'
    rcases hy.tasks x hx u hu k hk with ⟨n, -, hn, -⟩ | ⟨i, rid', ⟨r', m, hr', rfl, hm⟩, hserves⟩
    · rw [hn] at htail
      exact absurd htail.symm (o.ids_ne_nil hmem)
    · have hi : r'.token.ids = r.token.ids := htail
      obtain rfl := ha.index_eq hr' hr (o.token_eq_of_ids (List.mem_of_getElem? hr') hmem hi)
      cases hr'.symm.trans hr
      obtain rfl := Task.serves_unique (hserves r.token rfl) hs
      rw [← hclosing, ← isCancelled_relay l hmem, ← hy.fallen m i rid' hm]
      have hof := (o.relay r hmem).1
      simp [Hub.isCancelled, TokenPool.isCancelled, hof, or_left_comm]

end Session

end MediaRelay
