import MediaRelay.Proofs.Matching
import MediaRelay.Proofs.Reception
import MediaRelay.Proofs.Reporting

/-!
# Feedback is not noticed

What the commands of a run say about forwarding (`Command.forwarding`) settles all that the run shows but feedback, and
what its hub has come to but for feedback: however feedback is set up, whatever is given or fails to be given, and
however much time passes and when (`Session.feedback_unnoticed`). For a step in which time passes shows nothing,
and sessions stay parallel whether it is made or not (`Parallel.step_left`), and when commands are carried out on both
sides that say the same about forwarding (`Parallel.step`).
-/

namespace MediaRelay

/-! ## What concerns forwarding -/

/-- What a command says about forwarding. That time passes, or that the writer of feedback fails from now on, says
nothing; and of a scheduler it only matters whether it is idle. -/
def Command.forwarding : Command → Option Command
  | .advance _ => none
  | .outbound (.setFeedbackFailing _) => none
  | .relay (.startScheduler name rid period _) => some (.relay (.startScheduler name rid (min period 1) 0))
  | .relay (.giveFeedback rid _) => some (.relay (.giveFeedback rid 0))
  | c => some c

/-- What a step shows but for feedback. -/
def Report.forwarded (r : Report) : Report :=
  { r with feedback := [] }

/-- Whether nothing was written, recorded or published in a step, but perhaps feedback. -/
def Report.isStill (r : Report) : Bool :=
  r.media.isEmpty && r.failures.isEmpty && r.events.isEmpty

/-- What a run shows but for feedback. The steps of commands that say nothing about forwarding are left out where they
are still. -/
def Session.forwarded (s : Session) : List Command → List Report
  | [] => []
  | c :: cs =>
    let r := (s.step c).2.forwarded
    if c.forwarding = none ∧ r.isStill then forwarded (s.step c).1 cs else r :: forwarded (s.step c).1 cs

/-- Commands that say the same about forwarding. -/
inductive Command.Alike : Command → Command → Prop
  | same (c : Command) : c.Alike c
  | scheduler (name rid : String) {period period' : Nat} (hp : period = 0 ↔ period' = 0) (bitrate bitrate' : Nat) :
    Alike (.relay (.startScheduler name rid period bitrate)) (.relay (.startScheduler name rid period' bitrate'))
  | round (rid : String) (bitrate bitrate' : Nat) :
    Alike (.relay (.giveFeedback rid bitrate)) (.relay (.giveFeedback rid bitrate'))

namespace Command

variable {c d e : Command}

theorem Alike.symm (h : c.Alike d) : d.Alike c := by
  cases h with
  | same => exact .same _
  | scheduler name rid hp bitrate bitrate' => exact .scheduler name rid hp.symm bitrate' bitrate
  | round rid bitrate bitrate' => exact .round rid bitrate' bitrate

theorem Alike.trans (h : c.Alike d) (h' : d.Alike e) : c.Alike e := by
  cases h with
  | same => exact h'
  | scheduler name rid hp bitrate _ =>
    cases h' with
    | same => exact .scheduler name rid hp bitrate _
    | scheduler _ _ hp' _ bitrate' => exact .scheduler name rid (hp.trans hp') bitrate bitrate'
  | round rid bitrate _ =>
    cases h' with
    | same => exact .round rid bitrate _
    | round _ _ bitrate' => exact .round rid bitrate bitrate'

/-- A command says what is read off it. -/
theorem alike_forwarding (hc : c.forwarding = some e) : c.Alike e := by
  unfold forwarding at hc
  split at hc <;> cases hc
  · exact .scheduler _ _ (by omega) _ _
  · exact .round _ _ _
  · exact .same _

end Command

namespace Session

variable {s s' t t' : Session}

theorem forwarded_cons {c e : Command} (hc : c.forwarding = some e) (s : Session) (cs : List Command) :
    s.forwarded (c :: cs) = (s.step c).2.forwarded :: (s.step c).1.forwarded cs := by
  rw [forwarded, if_neg]
  rintro ⟨hn, -⟩
  rw [hc] at hn
  cases hn

theorem forwarded_append (s : Session) (cs ds : List Command) :
    s.forwarded (cs ++ ds) = s.forwarded cs ++ (s.after cs).forwarded ds := by
  induction cs generalizing s with
  | nil => rfl
  | cons c cs ih =>
    rw [List.cons_append, forwarded, forwarded, ih, after_cons]
    split <;> rfl

/-! ## Between steps -/

theorem keysOnce_write {e : Egress} (h : e.writers.HasKeysOnce) (track : Nat) (p : Rtp.Packet) :
    (e.write track p).1.writers.HasKeysOnce := by
  unfold Egress.write
  split
  · split
    · exact h
    · exact h.insert _ _
  · exact h
  · exact h

/-- Writers have each name once. -/
theorem keysOnce_invariant : Invariant fun s _ => s.hub.egress.writers.HasKeysOnce where
  move s _ t g h hm := by
    have m := Hub.move_of_move? (Hub.of_mover? hm).2
    show g.egress.writers.HasKeysOnce
    rcases m.egress with he | ⟨track, p, he⟩ <;> rw [he]
    · exact h
    · exact keysOnce_write h track p
  clock _ _ _ h := h
  command s _ c h hc := by
    have d := deed_of_perform (s := s) hc
    generalize (s.perform c).1.hub = g at d ⊢
    generalize (s.perform c).1.tokens = names at d
    cases d with
    | write _ track p => exact keysOnce_write h track p
    | setWriter => exact h.insert _ _
    | read q =>
      obtain ⟨w, hw, -⟩ := s.hub.read_transport q
      rw [hw]
      exact h
    | startRelay =>
      rw [(s.hub.rest_startRelay _ _).1]
      exact h
    | _ => exact h
  shown _ _ h := h

/-- Between steps all tasks wait, everything has been shown, and writers have each name once. -/
structure Rests (s : Session) : Prop where
  quiet : s.hub.step? = none
  shown : s.markShown = s
  writers : s.hub.egress.writers.HasKeysOnce

theorem rests_new (settings : Settings) (kind : Kind) : (new settings kind).Rests :=
  ⟨rfl, rfl, List.nodup_nil⟩

theorem Rests.step (h : s.Rests) (c : Command) : (s.step c).1.Rests :=
  ⟨Hub.step?_settle _, markShown_markShown _, @Invariant.step _ keysOnce_invariant c s [] h.writers⟩

theorem Rests.after (h : s.Rests) (cs : List Command) : (s.after cs).Rests := by
  induction cs generalizing s with
  | nil => exact h
  | cons c cs ih => exact ih (h.step c)

/-- Nothing has been written since. -/
theorem newMedia_self {e : Egress} (h : e.writers.HasKeysOnce) : newMedia e e = [] := by
  refine List.filter_eq_nil_iff.mpr fun x hx => ?_
  obtain ⟨⟨name, w⟩, hw, rfl⟩ := List.mem_map.mp hx
  have hwriter : e.writer name = w := by
    unfold Egress.writer
    rw [h.find?_of_mem hw]
    rfl
  simp [hwriter, sortedBy]

/-- There are no failures to show. -/
theorem Rests.newFailures (h : s.Rests) : s.newFailures = [] := by
  have hu : ∀ e ∈ s.channels.entries, s.unshown e.2 = [] := by
    intro e he
    have hmap : (s.channels.entries.map fun e => (e.1, ({ e.2 with shown := e.2.shown + (s.unshown e.2).length } :
        FailureChannel))) = s.channels.entries.map id := by
      rw [List.map_id]
      exact congrArg (fun s : Session => s.channels.entries) h.shown
    have hshown := congrArg (fun e : String × FailureChannel => e.2.shown) (List.map_inj_left.mp hmap e he)
    have hlen : e.2.shown + (s.unshown e.2).length = e.2.shown := hshown
    exact List.length_eq_zero_iff.mp (by omega)
  unfold Session.newFailures
  rw [List.flatMap_eq_nil_iff.mpr fun e he => List.map_eq_nil_iff.mpr (hu e he), List.mergeSort_nil]

theorem Paired.newFailures {l : Links} (m : s.Paired l s') : s.newFailures = s'.newFailures := by
  unfold Session.newFailures unshown
  rw [m.channels, m.hub.alike.relays]

namespace Parallel

/-! ## Steps -/

/-- What has been shown is marked on both sides. -/
theorem shown (h : s.Parallel s') : s.markShown.Parallel s'.markShown := by
  obtain ⟨l, m⟩ := h.paired
  have hu : s.unshown = s'.unshown := by
    funext c
    unfold unshown
    rw [m.hub.alike.relays]
  have hc : s.markShown.channels = s'.markShown.channels := by
    unfold markShown
    rw [m.channels, hu]
  exact ⟨h.proper.shown, h.proper'.shown, h.tidy, h.tidy', l, { m with channels := hc }⟩

/-- Steps show the same but feedback if they begin and end alike and give the same reply. -/
theorem report (h : s.Parallel s') (k : t.Parallel t') (reply : Reply) :
    (report s t reply).forwarded = (report s' t' reply).forwarded := by
  obtain ⟨l, m⟩ := h.paired
  obtain ⟨l', n⟩ := k.paired
  have hstatus : t.status = t'.status := by
    unfold status
    rw [n.hub.alike.held, n.hub.alike.receiver]
  unfold Session.report Report.forwarded
  rw [hstatus, n.newFailures, m.hub.alike.egress, m.hub.alike.events, n.hub.alike.receiver, n.hub.alike.transport,
    n.hub.alike.egress, n.hub.alike.events]

/-- Commands are carried out on both sides that say the same about forwarding. -/
theorem perform (h : s.Parallel s') (hr : s.Rests) (hr' : s'.Rests) {c d : Command} (hcd : c.Alike d)
    (hadv : ∀ n, c ≠ .advance n) :
    (s.perform c).2 = (s'.perform d).2 ∧ (s.perform c).1.Parallel (s'.perform d).1 := by
  have hadv' : ∀ n, d ≠ .advance n := by
    cases hcd with
    | same => exact hadv
    | scheduler | round => exact fun n he => by cases he
  obtain ⟨l, m⟩ := h.paired
  have hm : Matches (s.perform c) (s'.perform d) := by
    cases hcd with
    | same =>
      cases c with
      | reading c => exact m.performRead hr.quiet hr'.quiet h.tidy h.tidy' c
      | receiver c => exact m.performReceiver h.proper.sound h.tidy h.tidy' c
      | token c => exact m.performToken c
      | transport c => exact m.performTransport c
      | outbound c => exact m.performOutbound c
      | relay c => exact m.performRelay h.tidy h.tidy' c
      | advance n => exact absurd rfl (hadv n)
      | unknown => exact ⟨rfl, l, m⟩
    | scheduler name rid hp bitrate bitrate' => exact m.startScheduler h.tidy h.tidy' name rid hp bitrate bitrate'
    | round rid bitrate bitrate' => exact m.giveFeedback rid bitrate bitrate'
  exact ⟨hm.reply, h.proper.perform hadv, h.proper'.perform hadv', (deed_of_perform hadv).tidy h.tidy,
    (deed_of_perform hadv').tidy h.tidy', hm.paired⟩

/-- Steps on both sides whose commands say the same about forwarding. -/
theorem step (h : s.Parallel s') (hr : s.Rests) (hr' : s'.Rests) {c d : Command} (hcd : c.Alike d)
    (hadv : ∀ n, c ≠ .advance n) :
    (s.step c).1.Parallel (s'.step d).1 ∧ (s.step c).2.forwarded = (s'.step d).2.forwarded := by
  obtain ⟨hreply, hp⟩ := h.perform hr hr' hcd hadv
  refine ⟨hp.settle.shown, ?_⟩
  show (Session.report s _ (s.perform c).2).forwarded = (Session.report s' _ (s'.perform d).2).forwarded
  rw [← hreply]
  exact h.report hp.settle _

/-- A command is carried out on one side that says nothing about forwarding. -/
theorem perform_left (h : s.Parallel s') (hr : s.Rests) (hr' : s'.Rests) {c : Command} (hc : c.forwarding = none) :
    (s.perform c).1.Parallel s' := by
  unfold Command.forwarding at hc
  split at hc
  · next milliseconds =>
    have ht := h.ticks_left hr'.quiet (nanosecondsPerMillisecond * milliseconds)
    rw [← (Hub.advance_eq_ticks hr.quiet h.tidy _).1] at ht
    exact ht
  · next failing =>
    have hadv : ∀ n, Command.outbound (.setFeedbackFailing failing) ≠ .advance n := fun n he => by cases he
    obtain ⟨l, m⟩ := h.paired
    have hub : Hub.Paired l { s.hub with feedback := { s.hub.feedback with failing } } s'.hub :=
      m.hub.change { m.hub.alike with } rfl rfl rfl rfl rfl rfl fun _ hk => hk
    exact ⟨h.proper.perform hadv, h.proper', h.tidy.of_eq rfl rfl rfl, h.tidy', l, m.setHub l.le_refl hub⟩
  all_goals cases hc

/-- A step on one side whose command says nothing about forwarding. -/
theorem step_left (h : s.Parallel s') (hr : s.Rests) (hr' : s'.Rests) {c : Command} (hc : c.forwarding = none) :
    (s.step c).1.Parallel s' ∧ (s.step c).2.forwarded.isStill = true := by
  have hp := (h.perform_left hr hr' hc).settle_left hr'.quiet
  have hf := hp.forwardsAs.trans h.forwardsAs.symm
  have hshown := hp.shown
  rw [hr'.shown] at hshown
  refine ⟨hshown, ?_⟩
  have hmedia : newMedia s.hub.egress (s.perform c).1.hub.settle.egress = [] := by
    rw [show (s.perform c).1.hub.settle.egress = s.hub.egress from hf.egress, newMedia_self hr.writers]
  have hfailures : Session.newFailures ((s.perform c).1.setHub (s.perform c).1.hub.settle) = [] := by
    obtain ⟨l, m⟩ := hp.paired
    rw [m.newFailures, hr'.newFailures]
  have hevents : (s.perform c).1.hub.settle.events.drop s.hub.events.length = [] := by
    rw [show (s.perform c).1.hub.settle.events = s.hub.events from hf.events, List.drop_length]
  show (List.isEmpty (newMedia s.hub.egress (s.perform c).1.hub.settle.egress)
    && List.isEmpty (Session.newFailures ((s.perform c).1.setHub (s.perform c).1.hub.settle))
    && List.isEmpty ((s.perform c).1.hub.settle.events.drop s.hub.events.length)) = true
  rw [hmedia, hfailures, hevents]
  rfl

/-! ## Runs -/

/-- Steps on one side whose commands say nothing about forwarding. -/
theorem after_left (h : s.Parallel s') (hr : s.Rests) (hr' : s'.Rests) {cs : List Command}
    (hc : ∀ c ∈ cs, c.forwarding = none) : (s.after cs).Parallel s' ∧ s.forwarded cs = [] := by
  induction cs generalizing s with
  | nil => exact ⟨h, rfl⟩
  | cons c cs ih =>
    obtain ⟨hstep, hstill⟩ := h.step_left hr hr' (hc c List.mem_cons_self)
    obtain ⟨hafter, hnone⟩ := ih hstep (hr.step c) fun d hd => hc d (List.mem_cons_of_mem _ hd)
    rw [after_cons, forwarded, if_pos ⟨hc c List.mem_cons_self, hstill⟩]
    exact ⟨hafter, hnone⟩

/-- Runs on both sides whose commands say the same about forwarding. The induction is on what they say. -/
theorem after (h : s.Parallel s') (hr : s.Rests) (hr' : s'.Rests) {cs ds es : List Command}
    (hcs : cs.filterMap Command.forwarding = es) (hds : ds.filterMap Command.forwarding = es) :
    (s.after cs).Parallel (s'.after ds) ∧ s.forwarded cs = s'.forwarded ds := by
  induction es generalizing s s' cs ds with
  | nil =>
    obtain ⟨hleft, hnone⟩ := h.after_left hr hr' (List.filterMap_eq_nil_iff.mp hcs)
    obtain ⟨hright, hnone'⟩ := hleft.symm.after_left hr' (hr.after cs) (List.filterMap_eq_nil_iff.mp hds)
    exact ⟨hright.symm, hnone.trans hnone'.symm⟩
  | cons e es ih =>
    obtain ⟨cs₁, c, cs, rfl, hcs₁, hc, hcs⟩ := List.filterMap_eq_cons_iff.mp hcs
    obtain ⟨ds₁, d, ds, rfl, hds₁, hd, hds⟩ := List.filterMap_eq_cons_iff.mp hds
    -- what comes before the next command that says something
    obtain ⟨hleft, hnone⟩ := h.after_left hr hr' hcs₁
    obtain ⟨hright, hnone'⟩ := hleft.symm.after_left hr' (hr.after cs₁) hds₁
    have hcd := (Command.alike_forwarding hc).trans (Command.alike_forwarding hd).symm
    have hadv : ∀ n, c ≠ .advance n := fun n he => by
      rw [he] at hc
      cases hc
    obtain ⟨hstep, hreport⟩ := hright.symm.step (hr.after cs₁) (hr'.after ds₁) hcd hadv
    obtain ⟨hafter, hrest⟩ := ih hstep ((hr.after cs₁).step c) ((hr'.after ds₁).step d) hcs hds
    refine ⟨by rwa [after_append, after_append, after_cons, after_cons], ?_⟩
    rw [forwarded_append, forwarded_append, hnone, hnone', forwarded_cons hc, forwarded_cons hd, hreport, hrest]

end Parallel

/-- Sessions begin alike if their receivers do. -/
theorem parallel_new {settings settings' : Settings} (hm : settings.receiverMtu = settings'.receiverMtu) (kind : Kind) :
    (new settings kind).Parallel (new settings' kind) := by
  refine ⟨proper_new settings kind, proper_new settings' kind, tidy_new settings kind, tidy_new settings' kind,
    .none, ⟨⟨?_, rfl, rfl, rfl, rfl, rfl, rfl, rfl⟩, .nil, fun i j hij => hij.elim⟩, rfl, rfl, rfl, rfl, rfl, rfl,
    fun name => .none⟩
  unfold new Hub.new
  rw [hm]

/-- Feedback is not noticed. Two sessions whose settings differ in feedback only show the same but feedback, and come to
the same but for feedback, if their commands say the same about forwarding: time may pass at other places or not at all,
the writer of feedback may fail or not, and schedulers may have other periods and bitrates. -/
theorem feedback_unnoticed {settings settings' : Settings} (hm : settings.receiverMtu = settings'.receiverMtu)
    (kind : Kind) {cs ds : List Command} (hf : cs.filterMap Command.forwarding = ds.filterMap Command.forwarding) :
    (new settings kind).forwarded cs = (new settings' kind).forwarded ds
      ∧ ((new settings kind).after cs).hub.ForwardsAs ((new settings' kind).after ds).hub := by
  obtain ⟨hafter, hsame⟩ := (parallel_new hm kind).after (rests_new settings kind) (rests_new settings' kind) hf rfl
  exact ⟨hsame, hafter.forwardsAs⟩

/-- A relay gives feedback twice for each of two layers in one run, and none in the other, where time passes later; a
scheduler is cancelled in both. The packet and the failure come with the same steps. -/
theorem feedback_unnoticed_two_layers :
    let settings : Settings := { interval := ⟨1, 0⟩ }
    let settings' : Settings := { feedback := false, bitrate := 3 }
    let start : List Command := [.outbound (.add "o" 100 "video" "stream" none (some "w")),
      .relay (.add "r" [("q", "o"), ("h", "o")]), .relay (.takeFailures "r"),
      .receiver (.receive [⟨"q", 7⟩, ⟨"h", 8⟩])]
    let finish : List Command := [.outbound (.setWriter "w" none (some true)),
      .transport (.pushMedia 8 { payload := [2] }), .receiver .stop]
    let cs : List Command := start ++ [.advance 2500, .transport (.pushMedia 7 { payload := [1] }),
      .outbound (.setFeedbackFailing true), .relay (.startScheduler "k" "q" 500 9), .token (.cancel "k"),
      .reading (.poll "k"), .relay (.giveFeedback "q" 5)] ++ finish
    let ds : List Command := start ++ [.transport (.pushMedia 7 { payload := [1] }),
      .relay (.startScheduler "k" "q" 20 9000), .token (.cancel "k"), .reading (.poll "k"), .advance 40,
      .relay (.giveFeedback "q" 700)] ++ finish
    settings.receiverMtu = settings'.receiverMtu
      ∧ cs.filterMap Command.forwarding = ds.filterMap Command.forwarding
      ∧ ((new settings .video).after cs).hub.feedback.written.length = 8
      ∧ ((new settings' .video).after ds).hub.feedback.written.length = 2
      ∧ ((new settings .video).forwarded cs).map (·.media)
        = [[], [], [], [], [("w", [{ ssrc := 100, payload := [1] }])], [], [], [], [], [], [], []]
      ∧ ((new settings .video).forwarded cs).map (·.failures)
        = [[], [], [], [], [], [], [], [], [], [], [("r", ⟨"h", 8, .other "mock writer: write failed"⟩)], []]
      ∧ (new settings .video).forwarded cs = (new settings' .video).forwarded ds
      ∧ ((new settings .video).after cs).hub.ForwardsAs ((new settings' .video).after ds).hub :=
  ⟨rfl, by decide +kernel, by decide +kernel, by decide +kernel, by decide +kernel, by decide +kernel,
    @feedback_unnoticed { interval := ⟨1, 0⟩ } { feedback := false, bitrate := 3 } rfl .video _ _ (by decide +kernel)⟩

end Session

end MediaRelay
