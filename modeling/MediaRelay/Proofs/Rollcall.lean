import MediaRelay.Proofs.Launching
import MediaRelay.Proofs.Lineage

/-!
# Relays start once

- `Session.Rolled`: which relays were started and closed, and whether their receiver was told to stop, is what the log
  of a run says, and so the log decides what comes of every call (`Rolled.decides`, `Rolled.after`);
- `Hub.StartsByCall`: no change starts a relay but by a call;
- `Session.Sole`: so there have been no two readers and no two schedulers for one layer of a relay
  (`sole_invariant`);
- `Session.relays_start_once`: both, for every run.
-/

namespace MediaRelay

namespace Session

variable {s : Session} {c : Command}

/-! ## What is decided over relays -/

/-- What is known of relays and of all that was decided over them. -/
structure Rolled (s : Session) (notes : List TokenNote) (log : List RelayEvent) : Prop where
  lineal : ∃ past, s.Lineal past notes
  apart : s.hub.Apart
  handler : ∀ j, s.hub.handler = some (.relay j) → j < s.hub.relays.length
  known : ∀ e ∈ log, ∀ j, e.relay? = some j → j < s.hub.relays.length
  started : ∀ (j : Nat) (r : Relay), s.hub.relays[j]? = some r → r.started = log.any (RelayEvent.calls j)
  closed : ∀ (j : Nat) (r : Relay), s.hub.relays[j]? = some r →
    (.closed j ∈ log ↔ TokenNote.closed r.token ∈ notes)
  stopped : .stopped ∈ log ↔ s.hub.receiver.closing = true
  decided : ∀ done x later, log = done ++ .called x :: later → x.OfTrack ∧ x.Decided done

variable {notes ns : List TokenNote} {log : List RelayEvent} {x : StartCall} {e : Option RelayEvent}
  {past : List Change}

namespace Rolled

/-- What comes of a call is decided by the events so far. -/
theorem decides (h : s.Rolled notes log) (hr : x.hub.relays = s.hub.relays) (ht : x.hub.tokens = s.hub.tokens)
    (hc : x.hub.receiver = s.hub.receiver) (hj : x.relay < s.hub.relays.length) : x.Decided log := by
  obtain ⟨past, -, a, o, l, -⟩ := h.lineal
  have hget : s.hub.relays[x.relay]? = some s.hub.relays[x.relay] := List.getElem?_eq_getElem hj
  generalize s.hub.relays[x.relay] = r at hget
  have hcancel : x.hub.isCancelled r.token = log.any (RelayEvent.closes x.relay) := by
    rw [Bool.eq_iff_iff, RelayEvent.any_closes_iff, h.closed _ _ hget, h.stopped,
      ← isCancelled_relay l (List.mem_of_getElem? hget), Hub.isCancelled, Hub.isCancelled, ht, hc]
  have hstarted := h.started _ _ hget
  rw [← hr] at hget
  cases x.outcome hget with
  | again hs hres ha =>
    rw [hs] at hstarted
    exact ⟨by rw [hres, if_pos hstarted.symm], fun _ => ha, fun hok => by rw [hres] at hok; cases hok⟩
  | closed hs hcl hres ha =>
    rw [hs] at hstarted
    rw [hcl] at hcancel
    exact ⟨by rw [hres, ← hstarted, ← hcancel]; rfl, fun _ => ha, fun hok => by rw [hres] at hok; cases hok⟩
  | started hs hcl hres hn =>
    rw [hs] at hstarted
    rw [hcl] at hcancel
    exact ⟨by rw [hres, ← hstarted, ← hcancel]; rfl, fun hne => absurd hres hne, fun _ => ⟨r, _, hget, hn⟩⟩

/-- Something may be decided, of relays that are there. -/
theorem next (h : s.Rolled notes log) {t : Session} (lineal : ∃ past, t.Lineal past (notes ++ ns))
    (apart : t.hub.Apart) (rolls : s.hub.Rolls t.hub e)
    (handler : ∀ j, t.hub.handler = some (.relay j) → j < t.hub.relays.length)
    (known : ∀ j, e.bind RelayEvent.relay? = some j → j < s.hub.relays.length)
    (closed : ∀ (j : Nat) (r : Relay), s.hub.relays[j]? = some r →
      (e = some (.closed j) ↔ TokenNote.closed r.token ∈ ns))
    (old : ∀ k, TokenNote.closed k ∈ ns → k ∈ s.hub.relays.map Relay.token)
    (stopped : t.hub.receiver.closing = true ↔ s.hub.receiver.closing = true ∨ e = some .stopped)
    (call : ∀ x, e = some (.called x) → x.OfTrack ∧ x.Decided log) : t.Rolled (notes ++ ns) (log ++ e.toList) := by
  have heard : ∀ e' ∈ log ++ e.toList, ∀ j, e'.relay? = some j → j < s.hub.relays.length := fun e' he' j hj => by
    rcases List.mem_append.mp he' with he' | he'
    · exact h.known e' he' j hj
    · rw [Option.mem_toList.mp he'] at known
      exact known j hj
  have unheard : ∀ {j : Nat}, s.hub.relays[j]? = none → ∀ e' ∈ log ++ e.toList, e'.relay? ≠ some j :=
    fun hn e' he' hj => absurd (heard e' he' _ hj) (Nat.not_lt.mpr (List.getElem?_eq_none_iff.mp hn))
  refine ⟨lineal, apart, handler, fun e' he' j hj => Nat.lt_of_lt_of_le (heard e' he' j hj) rolls.length_le, ?started,
    ?closed, ?stopped, ?decided⟩
  case started =>
    intro j r' hr'
    cases hs : s.hub.relays[j]? with
    | none =>
      rw [rolls.fresh j r' hs hr']
      refine (List.any_eq_false.mpr fun e' he' hc => ?_).symm
      exact unheard hs e' he' (RelayEvent.relay?_of_calls hc)
    | some r =>
      obtain ⟨r'', hr'', -, hst⟩ := rolls.old j r hs
      cases hr'.symm.trans hr''
      rw [hst, List.any_append, h.started j r hs]
      cases e <;> simp
  case closed =>
    intro j r' hr'
    rw [List.mem_append, List.mem_append, Option.mem_toList]
    cases hs : s.hub.relays[j]? with
    | none =>
      -- nobody else has the token of a relay that is new
      obtain ⟨past, -, a, o, l, -⟩ := h.lineal
      refine iff_of_false (fun hc => ?_) fun hc => ?_
      · exact unheard hs (.closed j) (List.mem_append.mpr (hc.imp_right Option.mem_toList.mpr)) rfl
      · have hmem : r'.token ∈ s.hub.relays.map Relay.token := by
          rcases hc with hc | hc
          · rw [show s.hub.relays.map Relay.token = _ from l.relays]
            exact List.mem_filterMap.mpr ⟨_, l.closed _ hc, rfl⟩
          · exact old _ hc
        obtain ⟨r, hr, htok⟩ := List.mem_map.mp hmem
        obtain ⟨i, hi⟩ := List.getElem?_of_mem hr
        obtain ⟨r'', hr'', htok', -⟩ := rolls.old i r hi
        obtain rfl := apart.index_eq hr'' hr' (htok'.trans htok)
        rw [hs] at hi
        cases hi
    | some r =>
      obtain ⟨r'', hr'', htok, -⟩ := rolls.old j r hs
      cases hr'.symm.trans hr''
      rw [htok, h.closed j r hs, closed j r hs]
  case stopped =>
    rw [List.mem_append, Option.mem_toList, h.stopped, stopped]
  case decided => exact RelayEvent.forall_called_concat h.decided call

theorem move (h : s.Rolled notes log) {t : Task} {g : Hub} (hm : s.hub.mover? = some (t, g)) :
    (s.setHub g).Rolled notes (log ++ relayCalls [⟨.move t, s.hub, g⟩]) := by
  obtain ⟨past, l⟩ := h.lineal
  obtain ⟨a, o⟩ := l.proper.owned
  obtain ⟨ht, hmove⟩ := Hub.of_mover? hm
  have m := Hub.move_of_move? hmove
  have called : ∀ x, (Change.mk (.move t) s.hub g).startCall? = some x →
      x.hub = s.hub.dismiss t ∧ g = x.after ∧ t.job = .announce x.rids ∧ s.hub.handler = some (.relay x.relay) :=
    fun x hx => Hub.of_startCall hmove hx
  have rolls : s.hub.Rolls g ((Change.mk (.move t) s.hub g).startCall?.map .called) := by
    cases hx : (Change.mk (.move t) s.hub g).startCall? with
    | none => exact m.rolls hx
    | some x =>
      obtain ⟨hh, rfl, -⟩ := called x hx
      have hr := Hub.rolls_after x
      rw [hh] at hr
      exact ⟨hr.old, hr.fresh⟩
  have hlog : relayCalls [⟨.move t, s.hub, g⟩]
      = ((Change.mk (.move t) s.hub g).startCall?.map RelayEvent.called).toList := filterMap_snoc _ [] _
  rw [hlog, ← List.append_nil notes]
  generalize (Change.mk (.move t) s.hub g).startCall? = x? at called rolls
  have of_event : ∀ {e : RelayEvent}, x?.map RelayEvent.called = some e → ∃ x, x? = some x ∧ e = .called x :=
    fun he => by
      obtain ⟨x, hx, he⟩ := Option.map_eq_some_iff.mp he
      exact ⟨x, hx, he.symm⟩
  refine h.next (t := s.setHub g) ⟨_, (List.append_nil notes).symm ▸ l.move hm⟩
    (apart_invariant.move s past t g ⟨l.proper, h.apart⟩ hm).2 rolls (fun j hj => ?handler) (fun j hj => ?known)
    (fun j r _ => ?closed) (fun k hk => by cases hk) ?stopped fun x hx => ?call
  case handler =>
    rw [show (s.setHub g).hub.handler = s.hub.handler from m.framed.handler] at hj
    exact Nat.lt_of_lt_of_le (h.handler j hj) rolls.length_le
  case known =>
    obtain ⟨e, he, hej⟩ := Option.bind_eq_some_iff.mp hj
    obtain ⟨x, hx, rfl⟩ := of_event he
    cases hej
    exact h.handler _ (called x hx).2.2.2
  case closed =>
    refine iff_of_false (fun he => ?_) (by simp)
    obtain ⟨x, -, he⟩ := of_event he
    cases he
  case stopped =>
    rw [show (s.setHub g).hub.receiver = s.hub.receiver from m.framed.receiver, or_iff_left]
    intro he
    obtain ⟨x, -, he⟩ := of_event he
    cases he
  case call =>
    obtain ⟨x', hx', he⟩ := of_event hx
    cases he
    obtain ⟨hh, -, hj, hhandler⟩ := called x hx'
    have hrids := (o.announced t ht _ hj).2
    refine ⟨⟨?_, hrids ▸ l.proper.sound.rids⟩, h.decides ?_ ?_ ?_ (h.handler _ hhandler)⟩ <;> rw [hh]
    · exact hrids
    all_goals rfl

theorem clock (h : s.Rolled notes log) (time : Nat) : (s.setHub { s.hub with clock := time }).Rolled notes log :=
  ⟨h.lineal.imp fun _ l => l.clock time, ⟨h.apart.relays, h.apart.tasks⟩, h.handler, h.known, h.started, h.closed,
    h.stopped, h.decided⟩

theorem shown (h : s.Rolled notes log) : s.markShown.Rolled notes log :=
  ⟨h.lineal.imp fun _ l => l.shown, h.apart, h.handler, h.known, h.started, h.closed, h.stopped, h.decided⟩

end Rolled

theorem of_relayEvent?_called (he : s.relayEvent? c = some (.called x)) : ∃ name r, c = .relay (.start name)
    ∧ s.relay? name = some (x.relay, r) ∧ s.hub.held = true ∧ s.hub.receiver.received = true
    ∧ x = ⟨s.hub, x.relay, s.hub.receiver.layers.map Layer.rid⟩ := by
  unfold relayEvent? at he
  split at he
  · next name =>
    obtain ⟨⟨index, r⟩, hr, he⟩ := Option.bind_eq_some_iff.mp he
    dsimp only at he
    split at he
    · next hh =>
      cases he
      exact ⟨name, r, rfl, hr, hh.1, hh.2, rfl⟩
    · cases he
  · next name => cases hr : s.relay? name <;> rw [hr] at he <;> cases he
  · split at he <;> cases he
  · cases he

theorem relayEvent?_eq_closed {j : Nat} :
    s.relayEvent? c = some (.closed j) ↔ ∃ name r, c = .relay (.close name) ∧ s.relay? name = some (j, r) := by
  unfold relayEvent?
  split
  · next name =>
    refine ⟨fun he => ?_, by simp⟩
    obtain ⟨y, -, he⟩ := Option.bind_eq_some_iff.mp he
    dsimp only at he
    split at he <;> cases he
  · next name =>
    rw [Option.map_eq_some_iff]
    constructor
    · rintro ⟨⟨i, r⟩, hr, he⟩
      cases he
      exact ⟨name, r, rfl, hr⟩
    · rintro ⟨_, r, hn, hr⟩
      cases hn
      exact ⟨_, hr, rfl⟩
  · split <;> simp
  · next hn _ => exact ⟨nofun, fun ⟨name, _, hc, _⟩ => absurd hc (hn name)⟩

theorem relayEvent?_eq_stopped :
    s.relayEvent? c = some .stopped ↔ c = .receiver .stop ∧ s.hub.held = true := by
  unfold relayEvent?
  split
  · next name =>
    refine ⟨fun he => ?_, by simp⟩
    obtain ⟨y, -, he⟩ := Option.bind_eq_some_iff.mp he
    dsimp only at he
    split at he <;> cases he
  · next name => cases s.relay? name <;> simp
  · split <;> simp [*]
  · next hn => exact ⟨nofun, fun ⟨hc, _⟩ => absurd hc hn⟩

theorem closed_mem_noted {k : Token} : .closed k ∈ s.noted c ↔ ∃ name index r,
    c = .relay (.close name) ∧ s.relay? name = some (index, r) ∧ r.token = k := by
  unfold noted
  split
  · split <;> simp
  · simp
  · split <;> simp
  · next name =>
    cases hr : s.relay? name with
    | none => simp [hr]
    | some y =>
      obtain ⟨index, r⟩ := y
      refine ⟨fun hk => ⟨name, index, r, rfl, hr, ?_⟩, ?_⟩
      · cases List.mem_singleton.mp hk
        rfl
      · rintro ⟨_, _, r', hn, hr', rfl⟩
        cases hn
        cases hr.symm.trans hr'
        exact List.mem_singleton_self _
  · split <;> simp
  · split <;> simp
  · next hn _ _ =>
    refine iff_of_false List.not_mem_nil ?_
    rintro ⟨name, _, _, hc, -⟩
    exact hn name hc

namespace Rolled

theorem handler_perform (h : s.Rolled notes log) (hr : s.hub.Rolls (s.perform c).1.hub e) {j : Nat}
    (hj : (s.perform c).1.hub.handler = some (.relay j)) : j < (s.perform c).1.hub.relays.length := by
  rw [Session.handler_perform] at hj
  cases hreg : s.registers? c with
  | none =>
    rw [hreg] at hj
    exact Nat.lt_of_lt_of_le (h.handler j hj) hr.length_le
  | some handler =>
    rw [hreg] at hj
    cases hj
    unfold registers? at hreg
    split at hreg
    · split at hreg <;> cases hreg
    · split at hreg
      · next hh =>
        cases hreg
        simp [Session.perform, performRelay, hh, Hub.addRelay]
      · cases hreg
    · split at hreg
      · obtain ⟨⟨i, r⟩, hi, he⟩ := Option.map_eq_some_iff.mp hreg
        cases he
        exact Nat.lt_of_lt_of_le (List.getElem?_eq_some_iff.mp (of_relay? hi).2).1 hr.length_le
      · cases hreg
    · cases hreg

theorem perform (h : s.Rolled notes log) (hc : ∀ n, c ≠ .advance n) :
    (s.perform c).1.Rolled (notes ++ s.noted c) (log ++ (s.relayEvent? c).toList) := by
  obtain ⟨past, l⟩ := h.lineal
  have rolls := s.rolls_perform hc
  have found : ∀ {name index r}, s.relay? name = some (index, r) → index < s.hub.relays.length := fun hn =>
    (List.getElem?_eq_some_iff.mp (of_relay? hn).2).1
  refine h.next ⟨_, l.perform hc⟩ (apart_invariant.command s past c ⟨l.proper, h.apart⟩ hc).2 rolls
    (fun j => h.handler_perform rolls) (fun j hj => ?known) (fun j r hr => ?closed) (fun k hk => ?old) ?stopped
    fun x hx => ?call
  case known =>
    obtain ⟨e, he, hej⟩ := Option.bind_eq_some_iff.mp hj
    cases e with
    | called x =>
      obtain ⟨name, r, -, hr, -⟩ := of_relayEvent?_called he
      cases hej
      exact found hr
    | closed i =>
      obtain ⟨name, r, -, hr⟩ := relayEvent?_eq_closed.mp he
      cases hej
      exact found hr
    | stopped => cases hej
  case closed =>
    rw [relayEvent?_eq_closed, closed_mem_noted]
    constructor
    · rintro ⟨name, r', rfl, hn⟩
      cases hr.symm.trans (of_relay? hn).2
      exact ⟨name, j, r, rfl, hn, rfl⟩
    · rintro ⟨name, i, r', rfl, hn, ht⟩
      obtain rfl := h.apart.index_eq (of_relay? hn).2 hr ht
      exact ⟨name, r', rfl, hn⟩
  case old =>
    obtain ⟨name, i, r, -, hn, rfl⟩ := closed_mem_noted.mp hk
    exact List.mem_map_of_mem (List.mem_of_getElem? (of_relay? hn).2)
  case stopped =>
    obtain ⟨hclosing, -⟩ := flags_perform l.proper.sound hc
    rw [show (s.perform c).1.hub.receiver.closing = _ from hclosing, Bool.or_eq_true, relayEvent?_eq_stopped]
    refine or_congr_right ?_
    unfold Change.isStop
    dsimp only
    split
    · next he => cases he; simp
    · next hn => exact iff_of_false nofun fun ⟨he, _⟩ => hn _ (congrArg (Cause.command · _) he)
  case call =>
    obtain ⟨name, r, -, hr, -, -, hx⟩ := of_relayEvent?_called hx
    rw [hx]
    exact ⟨⟨rfl, l.proper.sound.rids⟩, h.decides rfl rfl rfl (found hr)⟩

theorem relayCalls_append (past later : List Change) :
    relayCalls (past ++ later) = relayCalls past ++ relayCalls later :=
  List.filterMap_append

theorem step (h : s.Rolled notes log) (c : Command) :
    (s.step c).1.Rolled (notes ++ s.noted c) (log ++ ((s.relayEvent? c).toList ++ relayCalls (s.changes c))) := by
  have move : ∀ {t : Session} {ns log}, ∀ h past u g, (t.setHub h).Rolled ns (log ++ relayCalls past) →
      h.mover? = some (u, g) → (t.setHub g).Rolled ns (log ++ relayCalls (past ++ [⟨.move u, h, g⟩])) :=
    fun h past u g hr hm => by
      rw [relayCalls_append, ← List.append_assoc]
      exact hr.move (s := _) hm
  have hp : (s.perform c).1.Rolled (notes ++ s.noted c)
      (log ++ (s.relayEvent? c).toList ++ relayCalls (s.performChanges c)) := by
    by_cases hc : ∃ n, c = .advance n
    · obtain ⟨n, rfl⟩ := hc
      have hn : notes ++ s.noted (.advance n) = notes := List.append_nil _
      have he : log ++ (s.relayEvent? (.advance n)).toList = log := List.append_nil _
      rw [hn, he]
      exact @Hub.pass_keeps (fun h past => (s.setHub h).Rolled notes (log ++ relayCalls past)) move
        (fun h past time hr => hr.clock time) _ _ s.hub [] ((List.append_nil log).symm ▸ h)
    · have hc := not_exists.mp hc
      rw [performChanges_of_ne hc]
      exact (List.append_nil _).symm ▸ h.perform hc
  rw [step_fst, changes, ← List.append_assoc, relayCalls_append, ← List.append_assoc, List.append_assoc,
    ← relayCalls_append]
  exact (Hub.run_keeps (P := fun g past => ((s.perform c).1.setHub g).Rolled (notes ++ s.noted c)
    (log ++ (s.relayEvent? c).toList ++ relayCalls past)) move _ hp).shown

theorem after (h : s.Rolled notes log) (cs : List Command) :
    (s.after cs).Rolled (notes ++ s.notes cs) (log ++ s.relayLog cs) := by
  induction cs generalizing s notes log with
  | nil => simpa [relayLog, Session.notes] using h
  | cons c cs ih =>
    rw [after_cons, relayLog, Session.notes, ← List.append_assoc, ← List.append_assoc]
    exact ih (h.step c)

end Rolled

theorem rolled_new (settings : Settings) (kind : Kind) : (new settings kind).Rolled [] [] where
  lineal := ⟨[], lineal_new settings kind⟩
  apart := ⟨List.nodup_nil, fun r hr => by cases hr⟩
  handler j hj := by cases hj
  known e he := by cases he
  started j r hr := by cases hr
  closed j r hr := by cases hr
  stopped := iff_of_false nofun nofun
  decided done x later he := by simp at he

end Session

/-! ## The tasks of a run -/

/-- Whether a task was there after a change. -/
def Seen (past : List Change) (u : Task) : Prop :=
  ∃ x ∈ past, u ∈ x.after.tasks

theorem seen_snoc {past : List Change} {x : Change} {u : Task} :
    Seen (past ++ [x]) u ↔ Seen past u ∨ u ∈ x.after.tasks := by
  simp [Seen, or_and_right, exists_or]

theorem eq_of_countP_le_one {α : Type} {p : α → Bool} {as : List α} (h : as.countP p ≤ 1) {a b : α} (ha : a ∈ as)
    (hb : b ∈ as) (hpa : p a = true) (hpb : p b = true) : a = b := by
  have ha : a ∈ as.filter p := List.mem_filter.mpr ⟨ha, hpa⟩
  have hb : b ∈ as.filter p := List.mem_filter.mpr ⟨hb, hpb⟩
  rw [List.countP_eq_length_filter] at h
  match hf : as.filter p, h with
  | [], _ => rw [hf] at ha; cases ha
  | [c], _ => rw [hf] at ha hb; rw [List.mem_singleton.mp ha, List.mem_singleton.mp hb]

namespace StartCall.Starts

variable {x : StartCall} {r : Relay} {new : List Task} {u v : Task} {rid : String}

/-- A call for layers no two of which are the same starts no two tasks of a kind for one. -/
theorem alone (h : x.Starts r new) (hd : x.rids.Nodup) (hu : u ∈ new) (hv : v ∈ new)
    (hus : u.serves r.token rid = true) (hvs : v.serves r.token rid = true) (hk : u.isPump = v.isPump) : u = v := by
  have hle : x.rids.count rid ≤ 1 := List.nodup_iff_count_le_one.mp hd rid
  cases hp : u.isPump with
  | true =>
    refine eq_of_countP_le_one (p := (·.readsFor r.token rid)) ?_ hu hv ?_ ?_
    · rw [h.readers rid]
      exact hle
    · simp [Task.readsFor, hp, hus]
    · simp [Task.readsFor, ← hk, hp, hvs]
  | false =>
    refine eq_of_countP_le_one (p := (·.schedulesFor r.token rid)) ?_ hu hv ?_ ?_
    · rw [h.schedulers rid]
      split <;> omega
    · simp [Task.schedulesFor, hp, hus]
    · simp [Task.schedulesFor, ← hk, hp, hvs]

/-- A call starts no scheduler if feedback is off. -/
theorem feedback (h : x.Starts r new) (hu : u ∈ new) (hus : u.serves r.token rid = true) (hp : u.isPump = false) :
    x.hub.settings.feedback = true := by
  by_contra hf
  have hcount := h.schedulers rid
  rw [if_neg hf, List.countP_eq_zero] at hcount
  exact hcount u hu (by simp [Task.schedulesFor, hp, hus])

end StartCall.Starts

/-- From one hub to another relays start in calls only, for layers no two of which are the same. -/
def Hub.StartsByCall (h g : Hub) : Prop :=
  ∀ j, h.Unstarted j → g.Unstarted j ∨ ∃ x : StartCall, x.relay = j ∧ g = x.after ∧ x.hub.relays = h.relays
    ∧ x.hub.settings = h.settings ∧ (∀ u ∈ x.hub.tasks, u ∈ h.tasks) ∧ x.rids.Nodup

namespace Session

variable {s : Session} {past : List Change} {notes notes' : List TokenNote} {j : Nat} {r : Relay} {rid : String}
  {u : Task}

/-- No two tasks of a kind have been there for one layer of a relay, and no scheduler unless feedback is on. -/
structure Sole (s : Session) (past : List Change) : Prop where
  here : ∀ u ∈ s.hub.tasks, Seen past u
  alone : ∀ (j : Nat) (r : Relay), s.hub.relays[j]? = some r → ∀ rid u v, Seen past u → Seen past v →
    u.serves r.token rid = true → v.serves r.token rid = true → u.isPump = v.isPump → u.id = v.id
  feedback : ∀ (j : Nat) (r : Relay), s.hub.relays[j]? = some r → ∀ rid u, Seen past u →
    u.serves r.token rid = true → u.isPump = false → s.hub.settings.feedback = true

/-- Only relays that were started have had tasks. -/
theorem started_of_seen (l : s.Lineal past notes) (ha : s.hub.Apart) (hr : s.hub.relays[j]? = some r)
    (hu : Seen past u) (hs : u.serves r.token rid = true) : r.started = true := by
  obtain ⟨-, a, o, -, hy⟩ := l
  obtain ⟨x, hx, hu⟩ := hu
  obtain ⟨k, hk, htail⟩ := Task.belongsTo_iff.mp (Task.belongsTo_iff_serves.mpr ⟨rid, hs⟩)
  have hmem := List.mem_of_getElem? hr
  rcases hy.tasks x hx u hu k hk with ⟨n, -, hn, -⟩ | ⟨i, rid', ⟨r', m, hr', rfl, hm⟩, -⟩
  · rw [hn] at htail
    exact absurd htail.symm (o.ids_ne_nil hmem)
  · have hi : r'.token.ids = r.token.ids := htail
    obtain rfl := ha.index_eq hr' hr (o.token_eq_of_ids (List.mem_of_getElem? hr') hmem hi)
    obtain ⟨r'', hr'', hst⟩ := o.started m i rid' hm
    cases hr.symm.trans hr''
    exact hst

/-- Where the tasks come from that there have been for a layer of a relay: there were none but those before, or a call
has started them all. -/
inductive Origin (s : Session) (past later : List Change) (j : Nat) (k : Token) (rid : String) : Prop
  | old {r : Relay} (hr : s.hub.relays[j]? = some r) (hk : r.token = k)
      (ho : ∀ u, Seen later u → u.serves k rid = true → ∃ v, Seen past v ∧ v.id = u.id ∧ v.job = u.job)
  | new {x : StartCall} {r : Relay} {new : List Task} (hs : x.Starts r new) (hk : r.token = k) (hd : x.rids.Nodup)
      (hset : x.hub.settings = s.hub.settings) (hn : ∀ u, Seen later u → u.serves k rid = true → u ∈ new)

namespace Sole

section Next

variable {t : Session} {y : Change} (h : s.Sole past) (l : s.Lineal past notes) (ha : s.hub.Apart)
  (hy : y.after = t.hub) (l' : t.Lineal (past ++ [y]) notes') (ha' : t.hub.Apart) (ho : s.hub.Onward t.hub)
  (hb : ∀ u ∈ t.hub.tasks, s.hub.Begets u) (hc : s.hub.StartsByCall t.hub)

include h l ha hy l' ha' ho hb hc

theorem origin (hr : t.hub.relays[j]? = some r) (hu : Seen (past ++ [y]) u) (hs : u.serves r.token rid = true) :
    s.Origin past (past ++ [y]) j r.token rid := by
  have hst := started_of_seen l' ha' hr hu hs
  cases hr₀ : s.hub.relays[j]? with
  | none =>
    -- a relay that is new has not been called
    rcases hc j (fun r' hr' => by rw [hr₀] at hr'; cases hr') with hun | ⟨x, rfl, hg, hrel, -⟩
    · rw [hun r hr] at hst
      cases hst
    · rw [hg, Hub.relays_after, StartCall.marked, List.getElem?_modify, hrel, hr₀] at hr
      cases hr
  | some r₀ =>
    obtain ⟨r', hr', hon⟩ := ho.relays j r₀ hr₀
    cases hr.symm.trans hr'
    cases hst₀ : r₀.started with
    | true =>
      obtain ⟨a, o⟩ := l.proper.owned
      refine .old hr₀ hon.token.symm fun v hv hvs => ?_
      rcases seen_snoc.mp hv with hv | hv
      · exact ⟨v, hv, rfl, rfl⟩
      · obtain ⟨w, hw, hid, hj⟩ := o.old_of_belongsTo ha hr₀ hst₀ (hb v (hy ▸ hv))
          (Task.belongsTo_iff_serves.mpr ⟨rid, hon.token ▸ hvs⟩)
        exact ⟨w, h.here w hw, hid, hj⟩
    | false =>
      -- the change is the first call, and all tasks come from it
      have unseen : ∀ v, Seen past v → v.serves r.token rid ≠ true := fun v hv hvs => by
        rw [started_of_seen l ha hr₀ hv (hon.token ▸ hvs)] at hst₀
        cases hst₀
      rcases hc j (fun r' hr' => by cases hr₀.symm.trans hr'; exact hst₀) with
        hun | ⟨x, rfl, hg, hrel, hset, hsub, hd⟩
      · rw [hun r hr] at hst
        cases hst
      · cases x.outcome (hrel ▸ hr₀) with
        | again hs' =>
          rw [hst₀] at hs'
          cases hs'
        | closed _ _ _ he =>
          rcases seen_snoc.mp hu with hu | hu
          · exact absurd hs (unseen u hu)
          · rw [hy, hg, he] at hu
            exact absurd hs (unseen u (h.here u (hsub u hu)))
        | started _ _ _ hn =>
          refine .new hn hon.token.symm hd hset fun v hv hvs => ?_
          rcases seen_snoc.mp hv with hv | hv
          · exact absurd hvs (unseen v hv)
          · rw [hy, hg, hn.after] at hv
            exact (List.mem_append.mp hv).resolve_left fun hv => unseen v (h.here v (hsub v hv)) hvs

/-- A change comes next in which relays start in calls only. -/
theorem next (hset : t.hub.settings = s.hub.settings) : t.Sole (past ++ [y]) := by
  refine ⟨fun u hu => seen_snoc.mpr (.inr (hy ▸ hu)), fun j r hr rid u v hu hv hus hvs hk => ?alone,
    fun j r hr rid u hu hus hp => ?feedback⟩
  case alone =>
    cases h.origin l ha hy l' ha' ho hb hc hr hu hus with
    | old hr₀ htok hold =>
      obtain ⟨u', hu', hid, hj⟩ := hold u hu hus
      obtain ⟨v', hv', hid', hj'⟩ := hold v hv hvs
      rw [← hid, ← hid']
      refine h.alone j _ hr₀ rid u' v' hu' hv' ?_ ?_ ?_
      · rw [htok, Task.serves_congr hj]
        exact hus
      · rw [htok, Task.serves_congr hj']
        exact hvs
      · unfold Task.isPump at hk ⊢
        rw [hj, hj']
        exact hk
    | new hn htok hd _ hnew =>
      rw [hn.alone hd (hnew u hu hus) (hnew v hv hvs) (htok ▸ hus) (htok ▸ hvs) hk]
  case feedback =>
    rw [hset]
    cases h.origin l ha hy l' ha' ho hb hc hr hu hus with
    | old hr₀ htok hold =>
      obtain ⟨u', hu', -, hj⟩ := hold u hu hus
      refine h.feedback j _ hr₀ rid u' hu' ?_ ?_
      · rw [htok, Task.serves_congr hj]
        exact hus
      · unfold Task.isPump at hp ⊢
        rw [hj]
        exact hp
    | new hn htok _ hset' hnew =>
      rw [← hset']
      exact hn.feedback (hnew u hu hus) (htok ▸ hus) hp

end Next

end Sole

/-- Relays that are told of a track start by a call. -/
theorem startsByCall_move {h g : Hub} {t : Task} (m : Hub.Move h t g)
    (hd : ∀ rids, t.job = .announce rids → rids.Nodup) : h.StartsByCall g := fun j hu => by
  refine (m.starts hu).imp_right ?_
  rintro ⟨rids, hj, rfl⟩
  exact ⟨⟨h.dismiss t, j, rids⟩, rfl, rfl, rfl, rfl, fun u hu => (Owned.mem_others.mp hu).1, hd rids hj⟩

/-- Relays that are asked to start do so by a call. -/
theorem Deed.startsByCall {g : Hub} {names : Table String Token} {c : Command} (d : s.Deed c g names)
    (hs : s.hub.receiver.Sound) : s.hub.StartsByCall g := fun j hu => by
  refine (d.starts hu).imp_right ?_
  rintro ⟨-, rfl⟩
  exact ⟨⟨s.hub, j, _⟩, rfl, rfl, rfl, rfl, fun u hu => hu, hs.rids⟩

theorem sole_invariant :
    Invariant fun s past => (∃ notes, s.Lineal past notes) ∧ s.hub.Apart ∧ s.Sole past where
  move s past t g := by
    rintro ⟨⟨notes, l⟩, ha, h⟩ hm
    obtain ⟨ht, hmove⟩ := Hub.of_mover? hm
    obtain ⟨a, o⟩ := l.proper.owned
    have m := Hub.move_of_move? hmove
    have ha' := (apart_invariant.move s past t g ⟨l.proper, ha⟩ hm).2
    have hd : ∀ rids, t.job = .announce rids → rids.Nodup := fun rids hj =>
      (o.announced t ht rids hj).2 ▸ l.proper.sound.rids
    exact ⟨⟨notes, l.move hm⟩, ha', h.next l ha rfl (l.move hm) ha' m.onward
      (fun u hu => (Hub.retasked hmove).begets ht hu) (startsByCall_move m hd) m.framed.settings⟩
  clock s past time := by
    rintro ⟨⟨notes, l⟩, ha, h⟩
    exact ⟨⟨notes, l.clock time⟩, ⟨ha.relays, ha.tasks⟩, h.here, h.alone, h.feedback⟩
  command s past c := by
    rintro ⟨⟨notes, l⟩, ha, h⟩ hc
    have d := deed_of_perform (s := s) hc
    have ha' := (apart_invariant.command s past c ⟨l.proper, ha⟩ hc).2
    have l' := l.perform hc
    rw [performChanges_of_ne hc] at l'
    exact ⟨⟨_, l'⟩, ha', h.next l ha rfl l' ha' (d.onward l.proper.sound) (fun u hu => d.begets hu)
      (d.startsByCall l.proper.sound) d.clock.2⟩
  shown s past := by
    rintro ⟨⟨notes, l⟩, ha, h⟩
    exact ⟨⟨notes, l.shown⟩, ha, h.here, h.alone, h.feedback⟩

/-- In every state that a session comes to no layer has had two tasks of a kind. -/
theorem sole_after (settings : Settings) (kind : Kind) (cs : List Command) :
    ((new settings kind).after cs).Sole ((new settings kind).history cs) := by
  refine (@Invariant.after _ sole_invariant cs (new settings kind) [] ⟨⟨[], lineal_new settings kind⟩,
    (apart_after settings kind []).2, ?_, ?_, ?_⟩).2.2
  · exact fun u hu => by cases hu
  · exact fun j r hr => by cases hr
  · exact fun j r hr => by cases hr

/-! ## Relays start once -/

theorem mem_relayLog {cs : List Command} {e : RelayEvent} : e ∈ s.relayLog cs ↔ ∃ done c rest, cs = done ++ c :: rest
    ∧ e ∈ ((s.after done).relayEvent? c).toList ++ relayCalls ((s.after done).changes c) :=
  @mem_steps _ (fun s c => (s.relayEvent? c).toList ++ relayCalls (s.changes c)) relayLog (fun _ => rfl)
    (fun _ _ _ => rfl) s cs e

/-- Who asks for a relay to start calls it. -/
theorem perform_start {name : String} (hr : s.relay? name = some (j, r)) (hh : s.hub.held = true)
    (hrec : s.hub.receiver.received = true) :
    let x : StartCall := ⟨s.hub, j, s.hub.receiver.layers.map Layer.rid⟩
    s.perform (.relay (.start name)) = (s.setHub x.after, .ofResult x.result) := by
  intro x
  show s.performRelay (.start name) = _
  simp only [performRelay, hr, hh, hrec, and_self, if_true]
  rfl

/-- Where a relay is told of a track it is called. -/
theorem makes_of_startCall {cs : List Command} :
    ∀ y ∈ s.history cs, ∀ x, y.startCall? = some x → y.Makes x :=
  forall_history (fun h t g hm x hx => by
    obtain ⟨hh, rfl, hj, hhandler⟩ := Hub.of_startCall (Hub.of_mover? hm).2 hx
    exact .told hh hj hhandler) (fun s c hc x hx => by cases hx) _ _

/-- Every call of a run is made in one of its changes. -/
theorem makes_of_called {cs : List Command} {x : StartCall} (hx : .called x ∈ s.relayLog cs) :
    ∃ y ∈ s.history cs, y.Makes x := by
  obtain ⟨done, c, rest, he, hx⟩ := mem_relayLog.mp hx
  rcases List.mem_append.mp hx with hx | hx
  · obtain ⟨name, r, rfl, hr, hh, hrec, hx⟩ := of_relayEvent?_called (Option.mem_toList.mp hx)
    have hp := perform_start hr hh hrec
    rw [← hx] at hp
    refine ⟨⟨.command (.relay (.start name)) (.ofResult x.result), x.hub, x.after⟩,
      (mem_history _ _ _).mpr ⟨done, _, rest, he, List.mem_append_left _ ?_⟩, .asked x name⟩
    have hhub : x.hub = (s.after done).hub := congrArg StartCall.hub hx
    rw [performChanges_of_ne (by intro _ h; cases h), hp, hhub]
    exact List.mem_singleton_self _
  · obtain ⟨y, hy, hcall⟩ := List.mem_filterMap.mp hx
    obtain ⟨x', hx', he'⟩ := Option.map_eq_some_iff.mp hcall
    cases he'
    have hy := (mem_history _ _ _).mpr ⟨done, c, rest, he, hy⟩
    exact ⟨y, hy, makes_of_startCall y hy x hx'⟩

/-- Every time that a relay is told of a track in a run is a call of it. -/
theorem called_of_told {cs : List Command} {y : Change} (hy : y ∈ s.history cs) {rids : List String}
    (ha : y.announcement? = some ⟨.relay j, rids⟩) :
    ∃ x, .called x ∈ s.relayLog cs ∧ y.Makes x ∧ x.relay = j ∧ x.rids = rids := by
  obtain ⟨done, c, rest, he, hy'⟩ := (mem_history _ _ _).mp hy
  obtain ⟨cause, before, after⟩ := y
  cases cause with
  | command => cases ha
  | move t =>
    have hx : (Change.mk (.move t) before after).startCall? = some ⟨before.dismiss t, j, rids⟩ := by
      simp only [Change.startCall?, ha]
    have hcall : .called ⟨before.dismiss t, j, rids⟩ ∈ relayCalls ((s.after done).changes c) :=
      List.mem_filterMap.mpr ⟨_, hy', by rw [hx]; rfl⟩
    exact ⟨_, mem_relayLog.mpr ⟨done, c, rest, he, List.mem_append_right _ hcall⟩, makes_of_startCall _ hy _ hx, rfl,
      rfl⟩

/-- What is known of the calls of relays after some commands. -/
structure StartsOnce (start : Session) (cs : List Command) : Prop where
  /-- A call is for the layers of the track, and what comes of it is decided by what came before it. -/
  decided : ∀ done x later, start.relayLog cs = done ++ .called x :: later → x.OfTrack ∧ x.Decided done
  /-- So it would be for any call of any relay that came next. -/
  next : ∀ j < (start.after cs).hub.relays.length, ∀ rids,
    StartCall.Decided ⟨(start.after cs).hub, j, rids⟩ (start.relayLog cs)
  /-- Every call is one that the application asks for, or that tells a relay of a track. -/
  made : ∀ x, .called x ∈ start.relayLog cs → ∃ y ∈ start.history cs, y.Makes x
  /-- Where the application asks for a call it is made, and its result is the reply. -/
  asked : ∀ name j r, (start.after cs).relay? name = some (j, r) → (start.after cs).hub.held = true →
    (start.after cs).hub.receiver.received = true →
    let x : StartCall := ⟨(start.after cs).hub, j, (start.after cs).hub.receiver.layers.map Layer.rid⟩
    (start.after cs).relayEvent? (.relay (.start name)) = some (.called x)
      ∧ (start.after cs).perform (.relay (.start name)) = ((start.after cs).setHub x.after, .ofResult x.result)
  /-- Where a relay is told of a track it is called. -/
  told : ∀ y ∈ start.history cs, ∀ j rids, y.announcement? = some ⟨.relay j, rids⟩ →
    ∃ x, .called x ∈ start.relayLog cs ∧ y.Makes x ∧ x.relay = j ∧ x.rids = rids
  /-- No two readers and no two schedulers have been there for one layer of a relay. -/
  alone : ∀ (j : Nat) (r : Relay), (start.after cs).hub.relays[j]? = some r → ∀ rid u v,
    Seen (start.history cs) u → Seen (start.history cs) v → u.serves r.token rid = true →
    v.serves r.token rid = true → u.isPump = v.isPump → u.id = v.id
  /-- Where feedback is off there have been no schedulers. -/
  silent : (start.after cs).hub.settings.feedback = false → ∀ (j : Nat) (r : Relay),
    (start.after cs).hub.relays[j]? = some r → ∀ rid u, Seen (start.history cs) u → u.serves r.token rid = true →
    u.isPump = true

/-- In every run relays start at most once, and none that was closed or whose receiver was told to stop before. -/
theorem relays_start_once (settings : Settings) (kind : Kind) (cs : List Command) :
    (new settings kind).StartsOnce cs := by
  have hroll : ((new settings kind).after cs).Rolled ([] ++ (new settings kind).notes cs)
      ([] ++ (new settings kind).relayLog cs) := (rolled_new settings kind).after cs
  rw [List.nil_append, List.nil_append] at hroll
  have hsole := sole_after settings kind cs
  refine ⟨hroll.decided, fun j hj rids => hroll.decides rfl rfl rfl hj, fun x hx => makes_of_called hx, ?asked,
    fun y hy j rids ha => called_of_told hy ha, hsole.alone, ?silent⟩
  case asked =>
    intro name j r hr hh hrec
    refine ⟨?_, perform_start hr hh hrec⟩
    simp only [relayEvent?, hr, hh, hrec, Option.bind_some, and_self, if_true]
  case silent =>
    intro hf j r hr rid u hu hs
    by_contra hp
    rw [hsole.feedback j r hr rid u hu hs (Bool.not_eq_true _ ▸ hp)] at hf
    cases hf

/-- A relay that was closed before it is told of a track counts as started all the same. -/
example : (((new {} .video).after [.relay (.add "relay" []), .relay (.close "relay"),
    .receiver (.receive [⟨"q", 1⟩])]).perform (.relay (.start "relay"))).2 = .failed .relayAlreadyStarted :=
  rfl

end Session

end MediaRelay
