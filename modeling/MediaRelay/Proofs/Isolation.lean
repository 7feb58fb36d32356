import MediaRelay.Proofs.Sides

/-!
# Layers are isolated

Two runs that differ only in what is done on the side of one layer (`Side.purge`) show the same at a layer that is kept
apart from it (`Session.layers_isolated`): the packets that are relayed for it, what reads of it come to, the feedback
that is addressed to it, and its failures. Reads of control data that name no layer are those of the first one, and are
compared whichever that is. Each of the runs is a twin of the run in which nothing is done on the side
(`Session.Twins.after`).
-/

namespace MediaRelay

namespace Session

variable {v : View} {rid : String} {s s' : Session} {past past' : List Change} {a : Side}

/-! ## Steps side by side -/

namespace Twins

/-- A command is carried out on one side that is about nothing that is looked at. -/
theorem command_left (h : Twins v rid s past s' past') (haw : a.Away v) {c : Command} (hc : a.owns c = true) :
    Twins v rid (s.perform c).1 (past ++ [⟨.command c (s.perform c).2, s.hub, (s.perform c).1.hub⟩]) s' past' := by
  have hadv : ∀ n, c ≠ .advance n := by
    rintro n rfl
    cases hc
  obtain ⟨l, ha⟩ := h.agree
  refine ⟨h.proper.perform hadv, h.proper', (deed_of_perform hadv).tidy h.tidy, h.tidy',
    accounted_perform h.accounted hadv _, h.accounted', ⟨l, ha.perform_left haw hc⟩, fun name => ?_, ?_⟩
  · rw [relayed_append, ← h.relayed name]
    exact List.append_nil _
  · rw [outcomes_append, ← h.outcomes]
    cases c with
    | reading c => cases hc
    | _ => exact List.append_nil _

/-- What a command's read comes to is the same on both sides. -/
theorem outcomes_command (h : Twins v rid s past s' past') (hv : v.rids rid = true) (hf : v.Fits s.hub) (a : Side)
    (c : Command) : MediaRelay.outcomes [⟨.command c (s.perform c).2, s.hub, (s.perform c).1.hub⟩] rid
      = MediaRelay.outcomes
        [⟨.command (a.trim c) (s'.perform (a.trim c)).2, s'.hub, (s'.perform (a.trim c)).1.hub⟩] rid := by
  obtain ⟨l, ha⟩ := h.agree
  cases c with
  | reading c =>
    cases c with
    | read q =>
      by_cases hq : q.source.mayBeOf rid = true
      · have hseen : q.isSeen v = true := Job.isSeen_of_readsFrom (j := .read q) hv hq
        have hreply : (s.perform (.reading (.read q))).2 = (s'.perform (a.trim (.reading (.read q)))).2 :=
          (ha.performRead_read hf q).2 hseen
        rw [hreply]
        rfl
      · simp only [MediaRelay.outcomes, List.flatMap_singleton, Change.outcomes, Side.trim, if_neg hq]
    | _ => rfl
  | relay c => cases c <;> rfl
  | _ => rfl

/-- A command is carried out on both sides. -/
theorem command (h : Twins v rid s past s' past') (hv : v.rids rid = true) (hf : v.Fits s.hub) (haw : a.Away v)
    {c : Command} (hadv : ∀ n, c ≠ .advance n) (hc : a.owns c = false) (hs : a.spares v.rids c = true) :
    Twins v rid (s.perform c).1 (past ++ [⟨.command c (s.perform c).2, s.hub, (s.perform c).1.hub⟩])
      (s'.perform (a.trim c)).1
      (past' ++ [⟨.command (a.trim c) (s'.perform (a.trim c)).2, s'.hub, (s'.perform (a.trim c)).1.hub⟩]) := by
  have hadv' : ∀ n, a.trim c ≠ .advance n := by
    intro n
    cases c with
    | relay c => cases c <;> exact fun he => by cases he
    | advance m => exact absurd rfl (hadv m)
    | _ => exact fun he => by cases he
  obtain ⟨l, ha⟩ := h.agree
  refine ⟨h.proper.perform hadv, h.proper'.perform hadv', (deed_of_perform hadv).tidy h.tidy,
    (deed_of_perform hadv').tidy h.tidy', accounted_perform h.accounted hadv _, accounted_perform h.accounted' hadv' _,
    ha.perform haw hf h.tidy h.tidy' h.proper h.proper' hadv hc hs, fun name => ?_, ?_⟩
  · rw [relayed_append, relayed_append, h.relayed name]
    rfl
  · rw [outcomes_append, outcomes_append, h.outcomes, h.outcomes_command hv hf a c]

theorem shown_left (h : Twins v rid s past s' past') : Twins v rid s.markShown past s' past' := by
  obtain ⟨l, ha⟩ := h.agree
  exact { h with proper := ⟨h.proper.sound, h.proper.owned, h.proper.named⟩, agree := ⟨l, { ha with }⟩ }

theorem shown (h : Twins v rid s past s' past') : Twins v rid s.markShown past s'.markShown past' :=
  h.shown_left.symm.shown_left.symm

/-- What fits after a step has fitted before, and after the command. -/
theorem fits_earlier (h : Twins v rid s past s' past') {c : Command} (hf : v.Fits (s.step c).1.hub) :
    v.Fits s.hub ∧ v.Fits (s.perform c).1.hub := by
  have hs := Hub.framed_settle (s.perform c).1.hub
  exact ⟨hf.earlier (grown_after h.proper.sound [c]).first h.proper.sound h.accounted.named,
    hf.of_eq hs.held.symm hs.receiver.symm⟩

/-- A step on one side that is about nothing that is looked at. -/
theorem step_left (h : Twins v rid s past s' past') (hv : v.rids rid = true) (haw : a.Away v) {c : Command}
    (hf : v.Fits (s.step c).1.hub) (hc : a.owns c = true) (hq' : s'.hub.step? = none) :
    Twins v rid (s.step c).1 (past ++ s.changes c) s' past' := by
  have hchanges : s.performChanges c = [⟨.command c (s.perform c).2, s.hub, (s.perform c).1.hub⟩] := by
    cases c with
    | advance n => cases hc
    | _ => rfl
  have hsettled := (h.command_left haw hc).settle_left hv (h.fits_earlier hf).2 hq'
  rw [step_fst, changes, hchanges, ← List.append_assoc]
  exact hsettled.shown_left

/-- A step on both sides. -/
theorem step (h : Twins v rid s past s' past') (hv : v.rids rid = true) (haw : a.Away v) {c : Command}
    (hf : v.Fits (s.step c).1.hub) (hc : a.owns c = false) (hs : a.spares v.rids c = true)
    (hq : s.hub.step? = none) (hq' : s'.hub.step? = none) :
    Twins v rid (s.step c).1 (past ++ s.changes c) (s'.step (a.trim c)).1 (past' ++ s'.changes (a.trim c)) := by
  obtain ⟨hbefore, hperform⟩ := h.fits_earlier hf
  have hp : Twins v rid (s.perform c).1 (past ++ s.performChanges c) (s'.perform (a.trim c)).1
      (past' ++ s'.performChanges (a.trim c)) := by
    cases c with
    | advance n => exact h.advance hv hbefore hq hq' _
    | relay c => cases c <;> exact h.command hv hbefore haw (by intro n he; cases he) hc hs
    | _ => exact h.command hv hbefore haw (by intro n he; cases he) hc hs
  rw [step_fst, step_fst, changes, changes, ← List.append_assoc, ← List.append_assoc]
  exact (hp.settle hv hperform).shown

/-- A run, and what is left of it when nothing is done on a side. -/
theorem after (h : Twins v rid s past s' past') (hv : v.rids rid = true) (haw : a.Away v) {cs : List Command}
    (hf : v.Fits (s.after cs).hub) (hs : ∀ c ∈ cs, a.spares v.rids c = true) (hq : s.hub.step? = none)
    (hq' : s'.hub.step? = none) :
    Twins v rid (s.after cs) (past ++ s.history cs) (s'.after (a.purge cs)) (past' ++ s'.history (a.purge cs)) := by
  induction cs generalizing s s' past past' with
  | nil =>
    have hnil : Twins v rid s (past ++ []) s' (past' ++ []) := by
      rw [List.append_nil, List.append_nil]
      exact h
    exact hnil
  | cons c cs ih =>
    have hfc : v.Fits (s.step c).1.hub := by
      have hacc := accounted_invariant.step c h.accounted
      exact hf.earlier (grown_after hacc.sound cs).first hacc.sound hacc.named
    have hqc : (s.step c).1.hub.step? = none := Hub.step?_settle _
    have hsc := hs c List.mem_cons_self
    have hcs : ∀ d ∈ cs, a.spares v.rids d = true := fun d hd => hs d (List.mem_cons_of_mem c hd)
    cases hc : a.owns c with
    | true =>
      have hpurge : a.purge (c :: cs) = a.purge cs := by simp [Side.purge, hc]
      rw [hpurge, after_cons, history, ← List.append_assoc]
      exact ih (h.step_left hv haw hfc hc hq') hf hcs hqc hq'
    | false =>
      have hpurge : a.purge (c :: cs) = a.trim c :: a.purge cs := by simp [Side.purge, hc]
      rw [hpurge, after_cons, after_cons, history, history, ← List.append_assoc, ← List.append_assoc]
      exact ih (h.step hv haw hfc hc hsc hq hq') hf hcs hqc (Hub.step?_settle _)

end Twins

end Session

/-! ## What is kept apart -/

/-- Whether a layer is another one, or is bound to the same SSRC. -/
def Hub.joins (h : Hub) (rid rid' : String) : Bool :=
  rid' = rid || (h.ssrcOf rid ≠ 0 && h.ssrcOf rid' = h.ssrcOf rid)

/-- The failures that a relay has published for a layer. -/
def Hub.failuresOf (h : Hub) (relay : Nat) (rid : String) : List Failure :=
  match h.relays[relay]? with
  | some r => r.failures.filter (·.rid = rid)
  | none => []

namespace Side

/-- What is looked at with a layer if a side is left out. -/
def view (a : Side) (h : Hub) (rid : String) : View where
  rids := h.joins rid
  ssrc := h.ssrcOf rid
  tracks := a.tracks
  writers := a.writers

/-- In a run, a layer has nothing to do with a side: the application keeps the receiver, the layer is never bound to
the SSRC of the side or of its layer, and no layer bound to the layer's SSRC sends to tracks of the side. -/
structure Apart (a : Side) (rid : String) (s : Session) (cs : List Command) : Prop where
  held : (s.after cs).hub.held = true
  layer : (s.after cs).hub.joins rid a.rid = false
  stream : (s.after cs).hub.ssrcOf rid ≠ 0 → (s.after cs).hub.ssrcOf rid ≠ a.ssrc
  spared : ∀ c ∈ cs, a.spares ((s.after cs).hub.joins rid) c = true

theorem fits_view (a : Side) {h : Hub} {past : List Change} (ha : h.receiver.Accounted past) (hh : h.held = true)
    (rid : String) : (a.view h rid).Fits h where
  held := hh
  sound := ha.sound
  named := ha.named
  layer k hk hr := by
    have hz := (ha.sound.ready k hk).mp hr
    have hssrc : h.ssrcOf k.rid = k.ssrc := by
      unfold Hub.ssrcOf
      rw [ha.sound.layer?_eq hk]
    simp only [view, Hub.joins, Bool.or_eq_true, Bool.and_eq_true, decide_eq_true_eq]
    rw [hssrc]
    constructor
    · rintro (rfl | ⟨-, he⟩)
      · exact hssrc.symm
      · exact he
    · intro he
      exact .inr ⟨he ▸ hz, he⟩

theorem Apart.away {a : Side} {rid : String} {s : Session} {cs : List Command} (h : a.Apart rid s cs) :
    a.Away (a.view (s.after cs).hub rid) :=
  ⟨h.layer, fun hs => h.stream hs.1 hs.2.symm, rfl, rfl⟩

end Side

namespace Session

variable {v : View} {rid : String} {s s' s'' : Session} {past past' past'' : List Change} {a : Side}

/-- Two runs cannot be told apart by what they show at a layer. -/
structure Indistinct (rid : String) (s : Session) (past : List Change) (s' : Session) (past' : List Change) :
    Prop where
  relayed : ∀ name, MediaRelay.relayed past rid name = MediaRelay.relayed past' rid name
  outcomes : MediaRelay.outcomes past rid = MediaRelay.outcomes past' rid
  feedback : s.hub.feedback.batchesTo (s.hub.ssrcOf rid) = s'.hub.feedback.batchesTo (s'.hub.ssrcOf rid)
  failures : ∀ relay, s.hub.failuresOf relay rid = s'.hub.failuresOf relay rid

theorem Indistinct.symm (h : Indistinct rid s past s' past') : Indistinct rid s' past' s past :=
  ⟨fun name => (h.relayed name).symm, h.outcomes.symm, h.feedback.symm, fun relay => (h.failures relay).symm⟩

theorem Indistinct.trans (h : Indistinct rid s past s' past') (h' : Indistinct rid s' past' s'' past'') :
    Indistinct rid s past s'' past'' :=
  ⟨fun name => (h.relayed name).trans (h'.relayed name), h.outcomes.trans h'.outcomes, h.feedback.trans h'.feedback,
    fun relay => (h.failures relay).trans (h'.failures relay)⟩

/-- Twins show the same. -/
theorem Twins.indistinct (h : Twins v rid s past s' past') (hv : v.rids rid = true) (hs : v.ssrc = s.hub.ssrcOf rid) :
    Indistinct rid s past s' past' := by
  obtain ⟨l, ha⟩ := h.agree
  refine ⟨h.relayed, h.outcomes, ?_, fun relay => ?_⟩
  · rw [← ha.hub.ssrcOf, ← hs]
    exact ha.hub.feedback.batches
  · have own : ∀ fs : List Failure, (fs.filter fun f => v.rids f.rid).filter (·.rid = rid)
        = fs.filter (·.rid = rid) := by
      intro fs
      rw [List.filter_filter]
      apply List.filter_congr
      intro f _
      by_cases hf : f.rid = rid
      · simp [hf, hv]
      · simp [hf]
    unfold Hub.failuresOf
    rcases rel_cases (rel_getElem? ha.hub.relays relay) with ⟨hr, hr'⟩ | ⟨r, r', hr, hr', hrr⟩ <;> rw [hr, hr']
    dsimp only
    rw [← own r.failures, ← own r'.failures, hrr.failures]

theorem twins_new (v : View) (rid : String) (settings : Settings) (kind : Kind) :
    Twins v rid (new settings kind) [] (new settings kind) [] := by
  have names : NamesAgree v .none {} {} 0 0 :=
    ⟨fun _ _ => .none, fun _ _ i hi => (by cases hi), fun _ _ i hi => (by cases hi)⟩
  refine ⟨proper_new settings kind, proper_new settings kind, tidy_new settings kind, tidy_new settings kind,
    Receiver.accounted_new kind _, Receiver.accounted_new kind _, ⟨.none, ?_⟩, fun _ => rfl, rfl⟩
  refine ⟨?_, rfl, rfl, fun _ => .none, names, names, fun _ => .inl rfl⟩
  exact ⟨rfl, rfl, rfl, rfl, rfl, ⟨fun _ => rfl, fun _ _ => rfl, fun _ _ _ => rfl⟩,
    ⟨fun _ _ hl => hl.elim, fun _ _ => rfl, fun _ _ => rfl⟩, ⟨rfl, rfl⟩, rfl, rfl, .nil, .nil, fun _ _ => Iff.rfl⟩

/-- A run in which a layer is kept apart from a side shows the same at it as if nothing were done on the side. -/
theorem indistinct_purge (settings : Settings) (kind : Kind) {cs : List Command}
    (h : a.Apart rid (new settings kind) cs) :
    Indistinct rid ((new settings kind).after cs) ((new settings kind).history cs)
      ((new settings kind).after (a.purge cs)) ((new settings kind).history (a.purge cs)) := by
  have hacc := accounted_after settings kind cs
  have hv : (a.view ((new settings kind).after cs).hub rid).rids rid = true := by simp [Side.view, Hub.joins]
  have ht := (twins_new (a.view ((new settings kind).after cs).hub rid) rid settings kind).after hv h.away
    (a.fits_view hacc h.held rid) h.spared rfl rfl
  exact ht.indistinct hv rfl

/-- To a layer that is kept apart from a side, a command about the side may change places with any other. -/
theorem owned_commutes (settings : Settings) (kind : Kind) {cs es : List Command} {c d : Command}
    (hc : a.owns c = true) (h : a.Apart rid (new settings kind) (cs ++ c :: d :: es))
    (h' : a.Apart rid (new settings kind) (cs ++ d :: c :: es)) :
    Indistinct rid ((new settings kind).after (cs ++ c :: d :: es)) ((new settings kind).history (cs ++ c :: d :: es))
      ((new settings kind).after (cs ++ d :: c :: es)) ((new settings kind).history (cs ++ d :: c :: es)) := by
  have hpurge : a.purge (cs ++ c :: d :: es) = a.purge (cs ++ d :: c :: es) := by
    simp [Side.purge, List.filter_cons, hc]
  have hleft := indistinct_purge settings kind h
  rw [hpurge] at hleft
  exact hleft.trans (indistinct_purge settings kind h').symm

/-- Layers are isolated from one another. What is done to the media stream of a layer, and to its outbound tracks and
writers, is the same to a layer that is kept apart: the packets that are relayed for that one, what reads of it come to
(by its name, or because it is the first), the feedback addressed to it and its failures do not depend on it. -/
theorem layers_isolated (settings : Settings) (kind : Kind) (a : Side) (rid : String) {cs ds : List Command}
    (hcs : a.Apart rid (new settings kind) cs) (hds : a.Apart rid (new settings kind) ds)
    (hpurge : a.purge cs = a.purge ds) :
    Indistinct rid ((new settings kind).after cs) ((new settings kind).history cs)
      ((new settings kind).after ds) ((new settings kind).history ds) := by
  have h := indistinct_purge settings kind hds
  rw [← hpurge] at h
  exact (indistinct_purge settings kind hcs).trans h.symm

/-- What goes wrong on the side of a layer, and what comes in another order, does not matter: here the track of the
layer `A` is missing in one run, and in the other a datagram comes that is no packet. The layer `B` is the first, whose
control data is read. -/
theorem layers_isolated_failure :
    let a : Side := ⟨"A", 1, ["a"], ["wa"]⟩
    let packet : Rtp.Packet := { ssrc := 2, payload := [7] }
    let cs : List Command := [.outbound (.add "a" 100 "video" "stream" none (some "wa")),
      .outbound (.add "b" 200 "video" "stream" none (some "wb")), .relay (.add "r" [("A", "a"), ("B", "b")]),
      .receiver (.receive [⟨"B", 2⟩, ⟨"A", 1⟩]), .transport (.push .control 2 [8, 9]),
      .transport (.push .media 1 [0]), .reading (.read ⟨.firstControl, .bytes 4⟩), .transport (.pushMedia 2 packet)]
    let ds : List Command := [.outbound (.add "b" 200 "video" "stream" none (some "wb")),
      .relay (.add "r" [("B", "b")]), .receiver (.receive [⟨"B", 2⟩, ⟨"A", 1⟩]), .transport (.push .control 2 [8, 9]),
      .reading (.read ⟨.firstControl, .bytes 4⟩), .transport (.pushMedia 2 packet), .transport (.close .media 1)]
    a.purge cs = a.purge ds
      ∧ relayed ((new {} .video).history cs) "B" "wb" = [{ packet with ssrc := 200 }]
      ∧ outcomes ((new {} .video).history cs) "B" = [.reply (.data (.bytes [8, 9]))]
      ∧ (((new {} .video).after cs).hub.failuresOf 0 "A").length = 1
      ∧ Indistinct "B" ((new {} .video).after cs) ((new {} .video).history cs) ((new {} .video).after ds)
        ((new {} .video).history ds) :=
  ⟨by decide +kernel, by decide +kernel, rfl, by decide +kernel,
    layers_isolated {} .video ⟨"A", 1, ["a"], ["wa"]⟩ "B"
      ⟨by decide +kernel, by decide +kernel, by decide +kernel, by decide +kernel⟩
      ⟨by decide +kernel, by decide +kernel, by decide +kernel, by decide +kernel⟩ (by decide +kernel)⟩

/-- It is not enough that a layer's own packets do not go to the tracks of the side. Here `B` and `C` share an SSRC, and
the packets of `C` go to the track of `A`: they do so in turn, until writing to that track fails. -/
theorem shared_stream_interferes :
    let a : Side := ⟨"A", 1, ["a"], ["wa"]⟩
    let run (failing : Bool) : List Command := [.outbound (.add "a" 100 "" "" none (some "wa")),
      .outbound (.add "b" 200 "" "" none (some "wb")), .outbound (.setWriter "wa" none (some failing)),
      .relay (.add "r" [("A", "a"), ("B", "b"), ("C", "a")]), .receiver (.receive [⟨"A", 1⟩, ⟨"B", 2⟩, ⟨"C", 2⟩]),
      .transport (.pushMedia 2 { sequence := 1 }), .transport (.pushMedia 2 { sequence := 2 }),
      .transport (.pushMedia 2 { sequence := 3 }), .transport (.pushMedia 2 { sequence := 4 })]
    let s := new { feedback := false } .video
    a.purge (run false) = a.purge (run true)
      ∧ (∀ failing, (s.after (run failing)).hub.held = true ∧ (s.after (run failing)).hub.joins "B" "A" = false
        ∧ (s.after (run failing)).hub.ssrcOf "B" = 2 ∧ ∀ c ∈ run failing, a.spares (· = "B") c = true)
      ∧ (relayed (s.history (run false)) "B" "wb").map Rtp.Packet.sequence = [1, 3]
      ∧ (relayed (s.history (run true)) "B" "wb").map Rtp.Packet.sequence = [1, 3, 4] := by
  decide +kernel

end Session

end MediaRelay
