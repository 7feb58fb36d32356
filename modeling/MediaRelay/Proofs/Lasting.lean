import MediaRelay.Proofs.Alike
import MediaRelay.Proofs.Teardown

/-!
# What lasts

`Hub.Onward` says what no command and no task can undo: that the application has let go of the receiver, how far the
receiver and the streams have got, which tokens are cancelled, what relays there are, and what writers have been given.
Every change of a run leads onward (`Hub.Move.onward`, `Session.Deed.onward`), so the hub before any change of a run is
an earlier state of the hub in the end (`Session.grown_after`).
-/

namespace MediaRelay

/-! ## Relays and writers -/

/-- A later state of the same relay. -/
structure Relay.Onward (r r' : Relay) : Prop where
  forwarder : r'.forwarder = r.forwarder
  token : r'.token = r.token
  started : r.started → r'.started
  failures : r.failures <+: r'.failures

theorem Relay.Onward.refl (r : Relay) : r.Onward r :=
  ⟨rfl, rfl, id, List.prefix_refl _⟩

theorem Relay.Onward.trans {r r' r'' : Relay} (h : r.Onward r') (h' : r'.Onward r'') : r.Onward r'' :=
  ⟨h'.forwarder.trans h.forwarder, h'.token.trans h.token, h'.started ∘ h.started, h.failures.trans h'.failures⟩

/-- Later states of the same relays, and perhaps more of them. -/
def RelaysOnward (rs rs' : List Relay) : Prop :=
  ∀ (j : Nat) (r : Relay), rs[j]? = some r → ∃ r', rs'[j]? = some r' ∧ r.Onward r'

theorem RelaysOnward.refl (rs : List Relay) : RelaysOnward rs rs :=
  fun _ r h => ⟨r, h, .refl r⟩

theorem RelaysOnward.trans {rs rs' rs'' : List Relay} (h : RelaysOnward rs rs') (h' : RelaysOnward rs' rs'') :
    RelaysOnward rs rs'' := by
  intro j r hr
  obtain ⟨r', hr', ho⟩ := h j r hr
  obtain ⟨r'', hr'', ho'⟩ := h' j r' hr'
  exact ⟨r'', hr'', ho.trans ho'⟩

theorem relaysOnward_modify (rs : List Relay) (index : Nat) {f : Relay → Relay} (hf : ∀ r : Relay, r.Onward (f r)) :
    RelaysOnward rs (rs.modify index f) := by
  intro j r hr
  rw [List.getElem?_modify, hr]
  refine ⟨_, rfl, ?_⟩
  dsimp only
  split
  · exact hf r
  · exact .refl r

theorem relaysOnward_append (rs new : List Relay) : RelaysOnward rs (rs ++ new) := by
  intro j r hr
  exact ⟨r, List.getElem?_append_left (List.getElem?_eq_some_iff.mp hr).1 ▸ hr, .refl r⟩

/-- What has been written stays written. -/
def Egress.Onward (e e' : Egress) : Prop :=
  ∀ name, (e.writer name).written <+: (e'.writer name).written

namespace Egress

theorem Onward.refl (e : Egress) : e.Onward e :=
  fun _ => List.prefix_refl _

theorem writer_setWriter_self (e : Egress) (name : String) (w : Writer) : (e.setWriter name w).writer name = w := by
  simp [setWriter, writer]

theorem writer_setWriter_of_ne (e : Egress) {name name' : String} (w : Writer) (h : name' ≠ name) :
    (e.setWriter name w).writer name' = e.writer name' := by
  simp [setWriter, writer, h]

theorem onward_setWriter (e : Egress) {name : String} {w : Writer} (h : (e.writer name).written <+: w.written) :
    e.Onward (e.setWriter name w) := by
  intro name'
  by_cases hn : name' = name
  · subst hn
    rwa [writer_setWriter_self]
  · exact writer_setWriter_of_ne e w hn ▸ List.prefix_refl _

theorem written_write (w : Writer) (p : Rtp.Packet) : w.written <+: (w.write p).1.written := by
  unfold Writer.write
  split
  · exact List.prefix_refl _
  · split
    · exact List.prefix_refl _
    · exact List.prefix_append _ _

theorem onward_write (e : Egress) (track : Nat) (p : Rtp.Packet) : e.Onward (e.write track p).1 := by
  unfold write
  split
  · split
    · exact .refl e
    · exact e.onward_setWriter (written_write _ _)
  · exact .refl e
  · exact .refl e

theorem onward_forward (f : Forwarder) (e : Egress) (rid : String) (p : Rtp.Packet) :
    e.Onward (f.forward e rid p).1 := by
  unfold Forwarder.forward
  split
  · exact .refl e
  · exact e.onward_write _ _

end Egress

/-! ## Hubs -/

namespace Hub

/-- A later state of the same hub. -/
structure Onward (h g : Hub) : Prop where
  held : g.held → h.held
  receiver : h.receiver.Onward g.receiver
  transport : h.transport.Onward g.transport
  cancelled : ∀ n ∈ h.tokens.cancelled, n ∈ g.tokens.cancelled
  relays : RelaysOnward h.relays g.relays
  egress : h.egress.Onward g.egress

variable {h g k : Hub} {t : Task}

theorem Onward.refl (h : Hub) : h.Onward h :=
  ⟨id, .refl _, fun _ _ => .refl _, fun _ => id, .refl _, .refl _⟩

theorem Onward.trans (hg : h.Onward g) (hk : g.Onward k) : h.Onward k :=
  ⟨hg.held ∘ hk.held, hg.receiver.trans hk.receiver, fun ch s => (hg.transport ch s).trans (hk.transport ch s),
    fun n hn => hk.cancelled n (hg.cancelled n hn), hg.relays.trans hk.relays,
    fun name => (hg.egress name).trans (hk.egress name)⟩

/-- A token that is cancelled stays cancelled. -/
theorem Onward.isCancelled (hg : h.Onward g) {t : Token} (hc : h.isCancelled t = true) : g.isCancelled t = true := by
  simp only [Hub.isCancelled, TokenPool.isCancelled, Bool.or_eq_true, Bool.and_eq_true, List.any_eq_true,
    List.contains_iff_mem] at hc ⊢
  rcases hc with ⟨ho, hc⟩ | ⟨n, hn, hc⟩
  · exact .inl ⟨ho, hg.receiver.closing hc⟩
  · exact .inr ⟨n, hn, hg.cancelled n hc⟩

theorem Reads.onward {q : Read} {u : QueueTransport} {r : Except Error Data} (hq : Reads h q u r) :
    h.transport.Onward u := by
  cases hq with
  | gone | failed => exact fun _ _ => .refl _
  | ended | took => exact h.transport.onward_read _ _ _

/-- Tasks may come and go. -/
theorem onward_of_reads {q : Read} {u : QueueTransport} {r : Except Error Data} (hq : Reads h q u r) (ts : List Task)
    (es : Table Nat Ending) (vs : List Event) :
    h.Onward { h with transport := u, tasks := ts, endings := es, events := vs } :=
  { Onward.refl h with transport := hq.onward }

theorem onward_failPump (h : Hub) (t : Task) (p : Pump) (cause : Error) : h.Onward (h.failPump t p cause) := by
  unfold failPump
  split
  · exact { Onward.refl h with }
  · refine { Onward.refl h with cancelled := fun n hn => List.mem_append_right _ hn, relays := ?_ }
    exact relaysOnward_modify _ _ fun r => ⟨rfl, rfl, id, List.prefix_append _ _⟩

theorem onward_startLayer (h : Hub) (index : Nat) (r : Relay) (rid : String) : h.Onward (h.startLayer index r rid) := by
  unfold startLayer
  dsimp only
  split <;> exact { Onward.refl h with }

theorem onward_startRelay (h : Hub) (index : Nat) (rids : List String) : h.Onward (h.startRelay index rids).1 := by
  refine startRelay_keeps (.refl h) ?_ (fun g r rid hg => hg.trans (g.onward_startLayer index r rid)) rids
  exact { Onward.refl h with
    relays := relaysOnward_modify _ _ fun r => ⟨rfl, rfl, fun _ => rfl, List.prefix_refl _⟩ }

theorem onward_announce (h : Hub) (t : Task) (rids : List String) : h.Onward (h.announce t rids) := by
  unfold announce
  split
  · exact { Onward.refl h with }
  · refine .trans ?_ ((h.dismiss t).onward_startRelay _ rids)
    exact { Onward.refl h with }
  · dsimp only
    split <;> exact { Onward.refl h with }

/-- Every move leads onward. -/
theorem Move.onward (m : Move h t g) : h.Onward g := by
  cases m with
  | read _ hq => exact onward_of_reads hq _ _ _
  | @forward p u packet e _ _ _ hq hf =>
    have he := Egress.onward_forward p.forwarder h.egress p.rid packet
    rw [hf] at he
    exact { Onward.refl h with transport := hq.onward, egress := he }
  | @refuse p u packet e cause _ _ _ hq hf =>
    have he := Egress.onward_forward p.forwarder h.egress p.rid packet
    rw [hf] at he
    refine .trans ?_ (onward_failPump _ t p cause)
    exact { Onward.refl h with transport := hq.onward, egress := he }
  | fail _ _ _ hq =>
    refine .trans ?_ (onward_failPump _ t _ _)
    exact { Onward.refl h with transport := hq.onward }
  | unrouted => exact h.onward_failPump t _ _
  | announce => exact h.onward_announce t _
  | greet _ hq =>
    unfold greeted
    split <;> exact onward_of_reads hq _ _ _
  | _ => exact { Onward.refl h with }

/-- A hub, and the hubs before all changes since, lead onward to what the hub is now, and receivers are sound. -/
structure Grown (first : Hub) (past : List Change) (h : Hub) : Prop where
  sound : h.receiver.Sound
  first : first.Onward h
  before : ∀ x ∈ past, x.before.receiver.Sound ∧ x.before.Onward h

/-- A change that leads onward comes next. -/
theorem Grown.next {first h g : Hub} {past : List Change} (hg : Grown first past h) (ho : h.Onward g)
    (hs : g.receiver.Sound) (cause : Cause) : Grown first (past ++ [⟨cause, h, g⟩]) g := by
  refine ⟨hs, hg.first.trans ho, fun x hx => ?_⟩
  rcases List.mem_append.mp hx with hx | hx
  · exact ⟨(hg.before x hx).1, (hg.before x hx).2.trans ho⟩
  · rw [List.mem_singleton.mp hx]
    exact ⟨hg.sound, ho⟩

end Hub

namespace Session

open Hub

variable {s : Session}

/-- Every deed leads onward. -/
theorem Deed.onward {c : Command} {g : Hub} {names : Table String Token} (hs : s.hub.receiver.Sound)
    (d : s.Deed c g names) : s.hub.Onward g := by
  have h := Onward.refl s.hub
  cases d with
  | read q =>
    have hr : s.hub.transport.Onward (s.hub.receiver.read s.hub.transport q).1 := by
      rcases s.hub.receiver.read_transport s.hub.transport q with he | ⟨ch, ssrc, -, he⟩ <;> rw [he]
      · exact fun _ _ => .refl _
      · exact s.hub.transport.onward_read ch ssrc _
    unfold Hub.read
    split
    · exact h
    · exact { h with transport := hr }
  | receiveFailed =>
    exact { h with receiver := Receiver.onward_receive hs _ _,
                   transport := (s.hub.transport.untouched_receive _ _).onward }
  | receive =>
    exact { h with receiver := Receiver.onward_receive hs _ _,
                   transport := (s.hub.transport.untouched_receive _ _).onward }
  | bind =>
    exact { h with receiver := Receiver.onward_bind hs _ _ _,
                   transport := (s.hub.transport.untouched_bind _ _ _).onward }
  | stop =>
    exact { h with receiver := Receiver.onward_stop hs _,
                   transport := (s.hub.transport.untouched_stop _).onward }
  | drop => exact { h with held := fun hf => by cases hf }
  | cancelToken => exact { h with cancelled := fun n hn => List.mem_append_right _ hn }
  | refuseOpen ch ssrc => exact { h with transport := (s.hub.transport.untouched_refuseOpen ch ssrc).onward }
  | refuseClose ch ssrc b => exact { h with transport := s.hub.transport.onward_refuseClose ch ssrc b }
  | push ch ssrc d => exact { h with transport := s.hub.transport.onward_push ch ssrc d }
  | close ch ssrc => exact { h with transport := (s.hub.transport.untouched_close ch ssrc).onward }
  | readStream ch ssrc n => exact { h with transport := s.hub.transport.onward_read ch ssrc n }
  | write _ track p => exact { h with egress := s.hub.egress.onward_write track p }
  | setWriter hw =>
    subst hw
    exact { h with egress := s.hub.egress.onward_setWriter (List.prefix_refl _) }
  | addRelay => exact { h with relays := relaysOnward_append _ _ }
  | startRelay => exact s.hub.onward_startRelay _ _
  | closeRelay => exact { h with cancelled := fun n hn => List.mem_append_right _ hn }
  | _ => exact { h with }

theorem grown_invariant (first : Hub) : Invariant fun s past => Grown first past s.hub where
  move _ _ t _ h hm := by
    have m := Hub.move_of_move? (Hub.of_mover? hm).2
    exact h.next m.onward (m.framed.receiver ▸ h.sound) (.move t)
  clock s _ time h := by
    have ho : s.hub.Onward { s.hub with clock := time } := { Hub.Onward.refl s.hub with }
    exact ⟨h.sound, h.first.trans ho, fun x hx => ⟨(h.before x hx).1, (h.before x hx).2.trans ho⟩⟩
  command _ _ c h hc := h.next ((deed_of_perform hc).onward h.sound) (sound_perform h.sound hc) (.command c _)
  shown _ _ h := h

/-- Every run leads onward. -/
theorem grown_after (hs : s.hub.receiver.Sound) (cs : List Command) :
    Grown s.hub (s.history cs) (s.after cs).hub :=
  @Invariant.after _ (grown_invariant s.hub) cs s [] ⟨hs, .refl _, fun x hx => by cases hx⟩

end Session

end MediaRelay
