import MediaRelay.Proofs.Delivery
import MediaRelay.Proofs.Readers
import MediaRelay.Proofs.Routes
import MediaRelay.Secure.Session

/-!
# What a forwarder does with a packet

- `Forwarder.call`: a forwarder that knows no track for a RID fails and writes nothing; otherwise it writes the packet
  once, to that track and under its SSRC, and says how that went, but for ends that have gone (`Forwarder.Call`);
- `Session.forwards_stamped`: so does every call of a forwarder in a run, whatever happens to tracks and writers in
  between, and the records of the writers are what these calls have left there, in their order.
-/

namespace MediaRelay

/-! ## How a write went -/

theorem Error.isClosedPipe_iff {c : Error} :
    c.isClosedPipe = true ↔ c = .closedPipe ∨ c = .util (.buffer .closed) ∨ c = .srtp (.buffer .closed) := by
  constructor
  · intro h
    unfold isClosedPipe at h
    split at h <;> simp_all
  · rintro (rfl | rfl | rfl) <;> rfl

/-- What the result of forwarding says about the write. -/
structure Forwarder.Reports (written : Except Error Nat) (result : Except Error Unit) : Prop where
  /-- It is a success if the write succeeded, or found that the other end had gone. -/
  ok : result = .ok () ↔ (∃ n, written = .ok n) ∨ written = .error .closedPipe
    ∨ written = .error (.util (.buffer .closed)) ∨ written = .error (.srtp (.buffer .closed))
  /-- Every other error of the write is the error of forwarding. -/
  error : ∀ cause, result = .error cause ↔ written = .error cause ∧ cause ≠ .closedPipe
    ∧ cause ≠ .util (.buffer .closed) ∧ cause ≠ .srtp (.buffer .closed)

theorem Forwarder.reports_delivered (written : Except Error Nat) : Reports written (delivered written) := by
  unfold delivered
  cases written with
  | ok n => exact ⟨by simp, by simp⟩
  | error c =>
    dsimp only
    by_cases hc : c.isClosedPipe = true
    · have := Error.isClosedPipe_iff.mp hc
      rw [if_pos hc]
      refine ⟨by simpa using this, fun cause => ⟨fun h => (by cases h), ?_⟩⟩
      rintro ⟨h, h₁, h₂, h₃⟩
      cases h
      rcases this with h | h | h <;> contradiction
    · have := mt Error.isClosedPipe_iff.mpr hc
      rw [if_neg hc]
      refine ⟨by simpa using this, fun cause => ⟨fun h => ?_, fun h => ?_⟩⟩
      · cases h
        simpa using this
      · cases h.1
        rfl

/-! ## One write -/

namespace Egress

/-- One write of a packet to an outbound track: what it leaves of the outbound side, and the result of forwarding. -/
structure Publishes (e : Egress) (track : Nat) (o : Outbound) (q : Rtp.Packet) (e' : Egress)
    (result : Except Error Unit) : Prop where
  /-- There is this one write. -/
  once : e' = (e.write track q).1
  reports : Forwarder.Reports (e.write track q).2 result
  /-- No track changes. -/
  tracks : e'.tracks = e.tracks
  /-- A write that fails leaves nothing at any writer, whether its error is reported or not. -/
  failed : ∀ cause, (e.write track q).2 = .error cause → ∀ name, e'.writer name = e.writer name
  /-- A write that succeeds leaves the packet at the writer that the track is bound to, and nothing at others. -/
  written : ∀ n, (e.write track q).2 = .ok n → ∃ t name, o = .static t ∧ t.writer = some name
    ∧ e'.writer name = { e.writer name with written := (e.writer name).written ++ [t.stamp q] }
    ∧ ∀ other, other ≠ name → e'.writer other = e.writer other

variable (e : Egress) (track : Nat) (q : Rtp.Packet)

/-- A write fails and changes no writer, or it leaves the packet at the writer of a static track. -/
theorem write_cases :
    (∃ cause, (e.write track q).2 = .error cause ∧ ∀ name, (e.write track q).1.writer name = e.writer name)
      ∨ ∃ t name, e.tracks[track]? = some (.static t) ∧ t.writer = some name
        ∧ e.write track q = (e.setWriter name { e.writer name with
            written := (e.writer name).written ++ [t.stamp q] }, .ok (t.stamp q).size) := by
  -- a writer that is stored as it is looks as it did
  have same : ∀ writer name, (e.setWriter writer (e.writer writer)).writer name = e.writer name := by
    intro writer name
    by_cases hn : name = writer
    · rw [hn, writer_setWriter_self]
    · exact writer_setWriter_of_ne _ _ hn
  unfold write
  cases e.tracks[track]? with
  | none => exact .inl ⟨_, rfl, fun _ => rfl⟩
  | some o =>
    cases o with
    | refusing ssrc cause => exact .inl ⟨_, rfl, fun _ => rfl⟩
    | static t =>
      dsimp only
      cases hw : t.writer with
      | none => exact .inl ⟨_, rfl, fun _ => rfl⟩
      | some name =>
        dsimp only
        by_cases hc : (e.writer name).closed = true
        · simp only [Writer.write, if_pos hc]
          exact .inl ⟨_, rfl, same name⟩
        · by_cases hf : (e.writer name).failing = true
          · simp only [Writer.write, if_neg hc, if_pos hf]
            exact .inl ⟨_, rfl, same name⟩
          · simp only [Writer.write, if_neg hc, if_neg hf]
            exact .inr ⟨t, name, rfl, hw, rfl⟩

theorem publishes_write {o : Outbound} (ho : e.tracks[track]? = some o) :
    e.Publishes track o q (e.write track q).1 (Forwarder.delivered (e.write track q).2) where
  once := rfl
  reports := Forwarder.reports_delivered _
  tracks := e.tracks_write track q
  failed cause hc name := by
    rcases e.write_cases track q with ⟨_, -, hw⟩ | ⟨t, name', -, -, hw⟩
    · exact hw name
    · rw [hw] at hc
      cases hc
  written n hn := by
    rcases e.write_cases track q with ⟨cause, hc, -⟩ | ⟨t, name, ht, hb, hw⟩
    · rw [hn] at hc
      cases hc
    · cases ho.symm.trans ht
      rw [hw]
      exact ⟨t, name, rfl, hb, writer_setWriter_self _ _ _, fun other ho => writer_setWriter_of_ne _ _ ho⟩

end Egress

/-! ## One call -/

theorem StaticTrack.ssrc_stamp (t : StaticTrack) (p : Rtp.Packet) : (t.stamp p).ssrc = p.ssrc := by
  unfold stamp
  split <;> rfl

/-- A call of a forwarder: what it leaves of the outbound side, and its result. -/
structure Forwarder.Call (f : Forwarder) (e : Egress) (rid : String) (p : Rtp.Packet) (e' : Egress)
    (result : Except Error Unit) : Prop where
  /-- Without a track for the RID nothing is written. -/
  unmapped : f.routes.find? rid = none → e' = e ∧ result = .error (.noOutboundTrack rid)
  /-- The track of the RID is written once; the packet has its SSRC, and is as it was otherwise. -/
  mapped : ∀ track, f.routes.find? rid = some track → ∃ o, e.tracks[track]? = some o
    ∧ e.Publishes track o { p with ssrc := o.ssrc } e' result
  /-- What this leaves at a writer, if anything, is one packet, under the SSRC of the track of the RID. -/
  wrote : ∀ name, (e'.writer name).written = (e.writer name).written
    ∨ ∃ track t q, f.routes.find? rid = some track ∧ e.tracks[track]? = some (.static t) ∧ t.writer = some name
      ∧ result = .ok () ∧ q.ssrc = t.ssrc ∧ (e'.writer name).written = (e.writer name).written ++ [q]

/-- What a write to the track of a RID leaves at a writer. -/
theorem Egress.Publishes.wrote {e e' : Egress} {track : Nat} {o : Outbound} {p : Rtp.Packet}
    {result : Except Error Unit} (h : e.Publishes track o { p with ssrc := o.ssrc } e' result) (name : String) :
    (e'.writer name).written = (e.writer name).written
      ∨ ∃ t q, o = .static t ∧ t.writer = some name ∧ result = .ok () ∧ q.ssrc = t.ssrc
        ∧ (e'.writer name).written = (e.writer name).written ++ [q] := by
  cases hw : (e.write track { p with ssrc := o.ssrc }).2 with
  | error cause => exact .inl (congrArg Writer.written (h.failed cause hw name))
  | ok n =>
    obtain ⟨t, writer, rfl, hb, hself, hother⟩ := h.written n hw
    by_cases hn : name = writer
    · refine .inr ⟨t, t.stamp { p with ssrc := t.ssrc }, rfl, hn ▸ hb, h.reports.ok.mpr (.inl ⟨n, hw⟩),
        t.ssrc_stamp _, ?_⟩
      rw [hn, hself]
      rfl
    · exact .inl (congrArg Writer.written (hother name hn))

/-- What forwarding a packet comes to. -/
theorem Forwarder.call {f : Forwarder} {e : Egress} (hf : f.Within e.tracks.length) (rid : String) (p : Rtp.Packet) :
    f.Call e rid p (f.forward e rid p).1 (f.forward e rid p).2 := by
  cases h : f.routes.find? rid with
  | none =>
    have he : f.forward e rid p = (e, .error (.noOutboundTrack rid)) := by simp only [forward, h]
    rw [he]
    exact ⟨fun _ => ⟨rfl, rfl⟩, fun _ h' => (by cases h.symm.trans h'), fun _ => .inl rfl⟩
  | some track =>
    obtain ⟨o, ho⟩ : ∃ o, e.tracks[track]? = some o := ⟨_, List.getElem?_eq_getElem (hf rid track h)⟩
    have hp : e.Publishes track o { p with ssrc := o.ssrc } (f.forward e rid p).1 (f.forward e rid p).2 := by
      simp only [forward, h, stamp, ho]
      exact e.publishes_write track _ ho
    refine ⟨fun h' => (by cases h.symm.trans h'), fun track' h' => ?_, fun name => ?_⟩
    · cases h.symm.trans h'
      exact ⟨o, ho, hp⟩
    · rcases hp.wrote name with hw | ⟨t, q, rfl, hb, hok, hq, hw⟩
      · exact .inl hw
      · exact .inr ⟨track, t, q, h, ho, hb, hok, hq, hw⟩

/-! ## Forwarding over a secure link -/

/-- A media packet that cannot be written over a secure link does not arrive. -/
theorem SecureLink.inbox_writeMedia_of_error {l : SecureLink} {p : Rtp.Packet} {cause : Error}
    (h : (l.writeMedia p).2 = .error cause) (ch : Channel) : (l.writeMedia p).1.inbox ch = l.inbox ch := by
  unfold writeMedia at h ⊢
  cases hp : l.protect p with
  | error f => rfl
  | ok lm =>
    obtain ⟨l', m⟩ := lm
    have hl' : l'.inbox ch = l.inbox ch := by
      simp only [protect, bind, Except.bind] at hp
      split at hp
      · cases hp
      · split at hp
        · cases hp
        · cases hp
          cases ch <;> rfl
    rw [hp] at h
    dsimp only [send] at h ⊢
    split at h
    · exact hl'
    · exact hl'
    · cases h

/-- One write of a media packet over a secure link: what it leaves of the link, and the result of forwarding. -/
structure SecureLink.Publishes (l : SecureLink) (q : Rtp.Packet) (l' : SecureLink) (result : Except Error Unit) :
    Prop where
  /-- There is this one write. -/
  once : l' = (l.writeMedia q).1
  reports : Forwarder.Reports (l.writeMedia q).2 result
  /-- A write that fails reaches nobody, whether its error is reported or not. -/
  failed : ∀ cause, (l.writeMedia q).2 = .error cause → ∀ ch, l'.inbox ch = l.inbox ch

/-- A packet that is forwarded to a track at a secure link is written there once, under the SSRC of the track. -/
theorem SecureSession.step_forward (s : SecureSession) (ssrc : Ssrc) (p : Rtp.Packet) :
    ∃ link result, s.step (.forward ssrc p) = ({ s with link }, .ofResult result)
      ∧ s.link.Publishes { p with ssrc } link result :=
  ⟨_, _, rfl, rfl, Forwarder.reports_delivered _, fun _ => SecureLink.inbox_writeMedia_of_error⟩

/-! ## Calls in a run -/

/-- Whether a command writes to an outbound track without a forwarder. -/
def OutboundCommand.writes : OutboundCommand → Bool
  | .write _ _ | .writeDatagram _ _ => true
  | _ => false

namespace Change

/-- A forwarder is called: somebody asks for that by its name, or a pump that goes on has read a packet. -/
inductive Calls (x : Change) : Prop
  | asked {name rid : String} {p : Rtp.Packet} {reply : Reply}
    (hc : x.cause = .command (.relay (.forward name rid p)) reply) : Calls x
  | pumped {t : Task} {q : Pump} {p : Rtp.Packet} (hc : x.cause = .move t) (hj : t.job = .pump q)
    (hn : x.before.quits t = false) (hr : (x.before.read ⟨.media q.rid, .decoded⟩).2 = .done (.ok (.media p))) : Calls x

/-- What a change has to do with forwarders and writers. -/
structure Forwards (x : Change) : Prop where
  /-- A forwarder that is there does what it is asked to, and the reply is how that went. -/
  asked : ∀ name rid p reply, x.cause = .command (.relay (.forward name rid p)) reply →
    reply = .refused .noForwarder ∧ x.after = x.before
      ∨ ∃ (f : Forwarder) (result : Except Error Unit),
        reply = .ofResult result ∧ f.Call x.before.egress rid p x.after.egress result
  /-- A pump calls its forwarder with every packet that it reads. -/
  pumped : ∀ t q p, x.cause = .move t → t.job = .pump q → x.before.quits t = false →
    (x.before.read ⟨.media q.rid, .decoded⟩).2 = .done (.ok (.media p)) →
    ∃ result, q.forwarder.Call x.before.egress q.rid p x.after.egress result
  /-- Nothing is left at any writer otherwise, unless somebody writes to a track directly. -/
  silent : ¬ x.Calls → (∀ c reply, x.cause = .command (.outbound c) reply → c.writes = false) →
    ∀ name, (x.after.egress.writer name).written = (x.before.egress.writer name).written

/-- A command by which no forwarder is called. -/
theorem forwards_of_silent {c : Command} {reply : Reply} {h g : Hub}
    (hc : ∀ name rid p, c ≠ .relay (.forward name rid p))
    (hw : (∀ c', c = .outbound c' → c'.writes = false) →
      ∀ name, (g.egress.writer name).written = (h.egress.writer name).written) :
    (Change.mk (.command c reply) h g).Forwards where
  asked name rid p _ he := by
    cases he
    exact absurd rfl (hc name rid p)
  pumped _ _ _ he := by cases he
  silent _ hd := hw fun c' he => hd c' reply (he ▸ rfl)

/-- A command that asks for a call of a forwarder. -/
theorem forwards_of_asked {name rid : String} {p : Rtp.Packet} {reply : Reply} {h g : Hub}
    (ha : reply = .refused .noForwarder ∧ g = h
      ∨ ∃ (f : Forwarder) (result : Except Error Unit),
        reply = .ofResult result ∧ f.Call h.egress rid p g.egress result) :
    (Change.mk (.command (.relay (.forward name rid p)) reply) h g).Forwards where
  asked _ _ _ _ he := by
    cases he
    exact ha
  pumped _ _ _ he := by cases he
  silent hn := absurd (.asked rfl) hn

end Change

namespace Session

variable {s : Session}

theorem egress_read (h : Hub) (q : Read) : (h.read q).1.egress = h.egress := by
  obtain ⟨u, hu, -⟩ := h.read_transport q
  rw [hu]

theorem forwards_move (hs : s.Routed) {t : Task} {g : Hub} (hm : s.hub.mover? = some (t, g)) :
    (Change.mk (.move t) s.hub g).Forwards := by
  obtain ⟨ht, hm⟩ := Hub.of_mover? hm
  refine ⟨fun _ _ _ _ he => (by cases he), ?_, fun hn _ name => ?_⟩
  · rintro _ q p ⟨⟩ hj hq hr
    have hquery : t.job.query? = some ⟨.media q.rid, .decoded⟩ := by rw [hj]; rfl
    rw [Hub.move?_of_query hquery hq, Hub.goOn?_of_done hr, Hub.finish, hj] at hm
    have hg : g.egress = (q.forwarder.forward s.hub.egress q.rid p).1 := by
      rw [← Option.some.inj hm]
      exact (Hub.egress_pumped_packet _ t q p).trans (by rw [egress_read])
    refine ⟨(q.forwarder.forward s.hub.egress q.rid p).2, ?_⟩
    show q.forwarder.Call s.hub.egress q.rid p g.egress _
    rw [hg]
    exact Forwarder.call (hs.hub.pumps t ht q hj) q.rid p
  · show (g.egress.writer name).written = (s.hub.egress.writer name).written
    rcases (Hub.move_of_move? hm).forwards with he | ⟨q, -, hj, -⟩
    · rw [he]
    · have hquery : t.job.query? = some ⟨.media q.rid, .decoded⟩ := by rw [hj]; rfl
      rcases Hub.reader_move hquery hm with hquit | ⟨hquit, ⟨r, hr, rfl⟩ | ⟨gate, -, -, rfl⟩⟩
      · obtain ⟨_, -, rfl | ⟨-, rfl⟩⟩ := Hub.move_of_quits hquit hm
        · rw [(Hub.failPump_fields _ _ _ _).2.1]
        · rfl
      · cases r with
        | error cause => rw [Hub.finish, hj, Hub.egress_pumped_error, egress_read]
        | ok data =>
          obtain ⟨u, -, hreads⟩ := Hub.read_done (Prod.ext rfl hr)
          obtain ⟨p, rfl⟩ := hreads.media
          exact absurd (.pumped rfl hj hquit hr) hn
      · rfl

theorem forwards_outbound (c : OutboundCommand) (reply : Reply) :
    (Change.mk (.command (.outbound c) reply) s.hub (s.performOutbound c).1.hub).Forwards := by
  refine Change.forwards_of_silent (by simp) fun hd name' => ?_
  have hd := hd c rfl
  cases c with
  | write | writeDatagram => cases hd
  | info name | bind name writer | unbind name =>
    simp only [performOutbound]
    split <;> rfl
  | setWriter name closed failing =>
    simp only [performOutbound, setHub]
    by_cases hn : name' = name
    · rw [hn, Egress.writer_setWriter_self]
    · rw [Egress.writer_setWriter_of_ne _ _ hn]
  | _ => rfl

theorem forwards_perform (hs : s.Routed) {c : Command} (hc : ∀ n, c ≠ .advance n) :
    (Change.mk (.command c (s.perform c).2) s.hub (s.perform c).1.hub).Forwards := by
  have same : ∀ {t : Session}, s.SameOutside t → (∀ name rid p, c ≠ .relay (.forward name rid p)) → ∀ reply,
      (Change.mk (.command c reply) s.hub t.hub).Forwards :=
    fun ho hn _ => Change.forwards_of_silent hn fun _ name => by rw [ho.egress]
  cases c with
  | reading c => exact same (sameOutside_performRead c) (by simp) _
  | receiver c => exact same (sameOutside_performReceiver c) (by simp) _
  | token c => exact same (sameOutside_performToken c) (by simp) _
  | transport c => exact same (sameOutside_performTransport c) (by simp) _
  | outbound c => exact forwards_outbound c _
  | relay c =>
    show (Change.mk (.command _ (s.performRelay c).2) s.hub (s.performRelay c).1.hub).Forwards
    rcases s.performRelay_cases c with ⟨ho, hn⟩ | ⟨name, map, rfl⟩ | ⟨name, rid, p, rfl, he⟩
      | ⟨name, rid, p, f, rfl, hf⟩
    · exact same ho (by simpa using hn) _
    · exact Change.forwards_of_silent (by simp) fun _ _ => rfl
    · rw [he]
      exact Change.forwards_of_asked (.inl ⟨rfl, rfl⟩)
    · rw [performRelay_forward hf]
      exact Change.forwards_of_asked (.inr ⟨f, _, rfl, Forwarder.call (hs.forwarder? hf) rid p⟩)
  | advance n => exact absurd rfl (hc n)
  | unknown => exact same (.refl s) (by simp) _

/-- Whatever tracks and writers there are, a forwarder does what it is said to do; in every state that a session comes
to one that is asked to forward a packet does that and nothing else, and the reply is how it went. In every run a writer
has the packets that the changes have left there, in their order, and unless somebody writes to a track directly these
are packets that forwarders were called with, under the SSRCs of the tracks that they were for. A track at a secure link
is written to in the same way. -/
theorem forwards_stamped (settings : Settings) (kind : Kind) (cs : List Command) :
    let s := (new settings kind).after cs
    let past := (new settings kind).history cs
    (∀ (f : Forwarder) (e : Egress), f.Within e.tracks.length →
        ∀ rid p, f.Call e rid p (f.forward e rid p).1 (f.forward e rid p).2)
      ∧ (∀ name f, s.forwarder? name = some f → ∀ rid p, ∃ e result,
          s.perform (.relay (.forward name rid p)) = (s.setHub { s.hub with egress := e }, .ofResult result)
            ∧ f.Call s.hub.egress rid p e result)
      ∧ (∀ name, (s.hub.egress.writer name).written = past.flatMap (Change.wrote · name))
      ∧ (∀ x ∈ past, x.Forwards)
      ∧ ∀ (t : SecureSession) (ssrc : Ssrc) (p : Rtp.Packet),
          ∃ link result, t.step (.forward ssrc p) = ({ t with link }, .ofResult result)
            ∧ t.link.Publishes { p with ssrc } link result := by
  intro s past
  refine ⟨fun f e hf => Forwarder.call hf, fun name f hf rid p => ⟨_, _, performRelay_forward hf rid p, ?_⟩,
    fun name => ?_, fun x hx => ?_, SecureSession.step_forward⟩
  · exact Forwarder.call ((routed_after settings kind cs).forwarder? hf) rid p
  · exact written_eq_wrote settings kind cs name
  · have along : Along (fun _ x => x.Forwards) [] past :=
      routed_invariant.along (fun s _ t g hs hm => forwards_move hs hm)
        (fun s _ c hs hc => forwards_perform hs hc) cs (routed_new settings kind)
    obtain ⟨-, hp⟩ := along.of_mem hx
    exact hp

/-- A packet for a track whose writer was closed counts as delivered, and is not left anywhere. -/
theorem forwards_stamped_closed :
    let f : Forwarder := { routes := ⟨[("h", 0)]⟩ }
    let e : Egress :=
      { tracks := [.static ⟨5, "video", "stream", none, some "w"⟩], writers := ⟨[("w", { closed := true })]⟩ }
    f.Within e.tracks.length ∧ f.Call e "h" { ssrc := 9 } e (.ok ()) := by
  intro f e
  have hf : f.Within e.tracks.length := by
    intro rid track ht
    simp only [f, Table.find?, List.lookup_cons, List.lookup_nil] at ht
    split at ht
    · cases ht
      exact Nat.lt_succ_self 0
    · cases ht
  exact ⟨hf, (forwards_stamped {} .video []).1 f e hf "h" { ssrc := 9 }⟩

/-- What comes to a writer in a run: nothing while it is closed or the track is unbound. -/
example :
    let forward (sequence : UInt16) : Command := .relay (.forward "f" "h" { ssrc := 9, sequence })
    let s := (new {} .video).after
      [.outbound (.add "o" 5 "video" "stream" none (some "w")), .relay (.addForwarder "f" [("h", "o")]), forward 1,
        .outbound (.setWriter "w" (some true) none), forward 2, .outbound (.setWriter "w" (some false) none),
        .outbound (.unbind "o"), forward 3, .outbound (.bind "o" "w"), forward 4]
    (s.hub.egress.writer "w").written = [{ ssrc := 5, sequence := 1 }, { ssrc := 5, sequence := 4 }] := by
  decide +kernel

end Session

end MediaRelay
