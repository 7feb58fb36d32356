import MediaRelay.Proofs.Failing

/-!
# How failures are reported

- `Table.HasKeysOnce`: a table has each key once;
- `Session.Takes`: somebody takes the failures of a relay; no other command changes the channels (`channels_perform`);
- `Session.shown_step`: a step shows what has been published and was not shown yet, and so do all that follow
  (`shown_steps`), so that whoever takes the failures of a relay is shown each of them once (`Takes.delivered`);
- `Session.layers_fail_once`: a layer fails once, for a reason, is reported and does nothing ever after.
-/

namespace MediaRelay

/-! ## Tables that have each key once -/

namespace Table

variable {κ α β : Type} [DecidableEq κ] {t : Table κ α} {k l : κ} {a : α}

/-- A table has each key once. -/
def HasKeysOnce (t : Table κ α) : Prop :=
  (t.entries.map Prod.fst).Nodup

theorem mem_keys_insertEntry {es : List (κ × α)} :
    l ∈ (insertEntry k a es).map Prod.fst ↔ l = k ∨ l ∈ es.map Prod.fst := by
  induction es with
  | nil => simp [insertEntry]
  | cons e es ih =>
    obtain ⟨m, b⟩ := e
    by_cases h : m = k
    · simp [insertEntry, h]
    · rw [insertEntry, if_neg h, List.map_cons, List.mem_cons, ih, List.map_cons, List.mem_cons]
      exact or_left_comm

theorem HasKeysOnce.insert (h : t.HasKeysOnce) (k : κ) (a : α) : (t.insert k a).HasKeysOnce := by
  obtain ⟨es⟩ := t
  unfold HasKeysOnce Table.insert at *
  dsimp only at *
  induction es with
  | nil => simp [insertEntry]
  | cons e es ih =>
    obtain ⟨m, b⟩ := e
    obtain ⟨hm, hes⟩ := List.nodup_cons.mp h
    by_cases he : m = k
    · rw [insertEntry, if_pos he]
      exact List.nodup_cons.mpr ⟨he ▸ hm, hes⟩
    · rw [insertEntry, if_neg he, List.map_cons, List.nodup_cons, mem_keys_insertEntry]
      exact ⟨not_or.mpr ⟨he, hm⟩, ih hes⟩

omit [DecidableEq κ] in
theorem HasKeysOnce.map (h : t.HasKeysOnce) (f : α → β) : (t.map f).HasKeysOnce := by
  unfold HasKeysOnce Table.map at *
  rw [List.map_map]
  exact h

/-- What a table holds under a key is found. -/
theorem HasKeysOnce.find?_of_mem (h : t.HasKeysOnce) {e : κ × α} (he : e ∈ t.entries) : t.find? e.1 = some e.2 := by
  obtain ⟨es⟩ := t
  unfold HasKeysOnce find? at *
  dsimp only at *
  induction es with
  | nil => cases he
  | cons e' es ih =>
    obtain ⟨hm, hes⟩ := List.nodup_cons.mp h
    rcases List.mem_cons.mp he with rfl | he
    · rw [List.lookup_cons, beq_self_eq_true]
    · have hne : e.1 ≠ e'.1 := fun hem => hm (hem ▸ List.mem_map_of_mem he)
      rw [List.lookup_cons, beq_false_of_ne hne]
      exact ih hes he

/-- What a table has for a key is all that there is under that key in lists made of its values. -/
theorem HasKeysOnce.filter_flatMap (h : t.HasKeysOnce) (f : α → List β) (ha : t.find? k = some a) :
    ((t.entries.flatMap fun e => (f e.2).map (e.1, ·)).filter (·.1 = k)).map Prod.snd = f a := by
  obtain ⟨es⟩ := t
  unfold HasKeysOnce find? at *
  dsimp only at *
  -- under another key there is nothing
  have other : ∀ {e : κ × α}, e.1 ≠ k → ((f e.2).map (e.1, ·)).filter (·.1 = k) = [] := fun he =>
    List.filter_eq_nil_iff.mpr fun p hp => by
      obtain ⟨b, -, rfl⟩ := List.mem_map.mp hp
      simpa using he
  induction es with
  | nil => cases ha
  | cons e es ih =>
    obtain ⟨hm, hes⟩ := List.nodup_cons.mp h
    rw [List.flatMap_cons, List.filter_append, List.map_append]
    by_cases he : e.1 = k
    · have hrest : (es.flatMap fun e => (f e.2).map (e.1, ·)).filter (·.1 = k) = [] := by
        rw [List.filter_flatMap]
        exact List.flatMap_eq_nil_iff.mpr fun e' he' => other fun e'' =>
          hm (he.trans e''.symm ▸ List.mem_map_of_mem he')
      have hown : ((f e.2).map (e.1, ·)).filter (·.1 = k) = (f e.2).map (e.1, ·) :=
        List.filter_eq_self.mpr fun p hp => by
          obtain ⟨b, -, rfl⟩ := List.mem_map.mp hp
          simpa using he
      rw [hrest, hown, List.map_map, List.map_nil, List.append_nil]
      obtain ⟨m, b⟩ := e
      cases (he : m = k)
      rw [List.lookup_cons, beq_self_eq_true] at ha
      cases ha
      exact (List.map_congr_left fun _ _ => rfl).trans (List.map_id _)
    · rw [other he, List.map_nil, List.nil_append]
      refine ih hes ?_
      obtain ⟨m, b⟩ := e
      rwa [List.lookup_cons, beq_false_of_ne (Ne.symm he)] at ha

end Table

/-! ## Who takes failures -/

/-- The failures that a step shows of those that were taken under a name. -/
def Report.failuresOf (r : Report) (name : String) : List Failure :=
  (r.failures.filter (·.1 = name)).map Prod.snd

namespace Session

variable {s : Session} {c : Command} {name : String} {j n : Nat}

/-- Somebody takes the failures of a relay by its name, which nobody has done before. -/
structure Takes (s : Session) (c : Command) (name : String) (j : Nat) : Prop where
  command : c = .relay (.takeFailures name)
  relay : ∃ r, s.relay? name = some (j, r)
  given : (s.perform c).2 = .flag true

theorem channels_performRead (c : ReadCommand) : (s.performRead c).1.channels = s.channels := by
  cases c with
  | read q =>
    simp only [performRead]
    split <;> rfl
  | spawn name q =>
    cases q with
    | none => rfl
    | some q =>
      simp only [performRead]
      split <;> rfl
  | poll name =>
    simp only [performRead]
    split
    · rfl
    · rfl
    · split <;> rfl
  | abort name =>
    simp only [performRead]
    split <;> rfl

theorem channels_performReceiver (c : ReceiverCommand) : (s.performReceiver c).1.channels = s.channels := by
  have held : (s.performHeld c).1.channels = s.channels := by
    cases c with
    | receive es =>
      simp only [performHeld, Session.receive]
      split <;> rfl
    | layerOfSsrc ssrc =>
      simp only [performHeld]
      split <;> rfl
    | _ => rfl
  unfold performReceiver
  split
  · exact held
  · cases c with
    | drop | layer rid | describeLayer rid => exact held
    | _ => rfl

theorem channels_performToken (c : TokenCommand) : (s.performToken c).1.channels = s.channels := by
  cases c <;> simp only [performToken] <;> split <;> rfl

theorem channels_performTransport (c : TransportCommand) : (s.performTransport c).1.channels = s.channels := by
  cases c <;> rfl

theorem channels_writeOutbound (name : String) (p : Rtp.Packet) :
    (s.writeOutbound name p).1.channels = s.channels := by
  unfold writeOutbound
  split <;> rfl

theorem channels_performOutbound (c : OutboundCommand) : (s.performOutbound c).1.channels = s.channels := by
  cases c with
  | info name | bind name writer | unbind name =>
    simp only [performOutbound]
    split <;> rfl
  | write name p => exact channels_writeOutbound name p
  | writeDatagram name d =>
    simp only [performOutbound]
    split
    · rfl
    · split
      · rfl
      · exact channels_writeOutbound name _
  | _ => rfl

/-- Only who takes failures changes the channels. -/
theorem channels_performRelay (c : RelayCommand) : (s.performRelay c).1.channels = s.channels
    ∨ ∃ name j, s.Takes (.relay c) name j
      ∧ (s.performRelay c).1 = { s with channels := s.channels.insert name { relay := j } } := by
  cases c with
  | takeFailures name =>
    cases hr : s.relay? name with
    | none =>
      left
      simp only [performRelay, hr]
    | some r =>
      obtain ⟨j, r⟩ := r
      by_cases ht : ((s.channels.find? name).any fun c => c.relay = j) = true
      · left
        simp only [performRelay, hr, if_pos ht]
      · have he : s.performRelay (.takeFailures name)
            = ({ s with channels := s.channels.insert name { relay := j } }, .flag true) := by
          simp only [performRelay, hr, if_neg ht]
        exact .inr ⟨name, j, ⟨rfl, ⟨r, hr⟩, congrArg Prod.snd he⟩, congrArg Prod.fst he⟩
  | start name | install name =>
    left
    simp only [performRelay]
    split
    · split <;> rfl
    · rfl
  | addForwarder name map => exact .inl rfl
  | _ =>
    left
    simp only [performRelay]
    split <;> rfl

theorem channels_perform (c : Command) : (s.perform c).1.channels = s.channels
    ∨ ∃ name j, s.Takes c name j
      ∧ (s.perform c).1 = { s with channels := s.channels.insert name { relay := j } } := by
  cases c with
  | reading c => exact .inl (channels_performRead c)
  | receiver c => exact .inl (channels_performReceiver c)
  | token c => exact .inl (channels_performToken c)
  | transport c => exact .inl (channels_performTransport c)
  | outbound c => exact .inl (channels_performOutbound c)
  | relay c => exact channels_performRelay c
  | advance n => exact .inl rfl
  | unknown => exact .inl rfl

/-- What is taken by a name is put under that name. -/
theorem Takes.perform (h : s.Takes c name j) :
    (s.perform c).1 = { s with channels := s.channels.insert name { relay := j } } := by
  obtain ⟨rfl, ⟨r, hr⟩, hg⟩ := h
  have hg : (s.performRelay (.takeFailures name)).2 = .flag true := hg
  show (s.performRelay (.takeFailures name)).1 = _
  simp only [performRelay, hr] at hg ⊢
  split at hg
  · cases hg
  · next ht => rw [if_neg ht]

theorem keysOnce_perform (h : s.channels.HasKeysOnce) (c : Command) : (s.perform c).1.channels.HasKeysOnce := by
  rcases channels_perform (s := s) c with hc | ⟨name, j, -, hc⟩ <;> rw [hc]
  · exact h
  · exact h.insert name _

theorem keysOnce_step (h : s.channels.HasKeysOnce) (c : Command) : (s.step c).1.channels.HasKeysOnce :=
  (keysOnce_perform h c).map _

theorem keysOnce_after (h : s.channels.HasKeysOnce) (cs : List Command) : (s.after cs).channels.HasKeysOnce := by
  induction cs generalizing s with
  | nil => exact h
  | cons c cs ih => exact ih (keysOnce_step h c)

/-! ## What is shown -/

theorem unshown_eq (s : Session) (c : FailureChannel) : s.unshown c = (s.hub.published c.relay).drop c.shown := by
  unfold unshown Hub.published
  cases s.hub.relays[c.relay]? with
  | none => exact List.drop_nil.symm
  | some r => rfl

/-- What is new is shown by the name under which it was taken. -/
theorem newFailures_perm (h : s.channels.HasKeysOnce) (hc : s.channels.find? name = some ⟨j, n⟩) :
    ((s.newFailures.filter (·.1 = name)).map Prod.snd).Perm ((s.hub.published j).drop n) := by
  have hs := s.unshown_eq ⟨j, n⟩
  rw [← h.filter_flatMap s.unshown hc] at hs
  rw [← hs]
  exact ((List.mergeSort_perm _ _).filter _).map _

/-- A step shows what has been published and was not shown yet, and notes that. -/
theorem shown_step (h : s.channels.HasKeysOnce) (hc : (s.perform c).1.channels.find? name = some ⟨j, n⟩)
    (hn : n ≤ ((s.step c).1.hub.published j).length) :
    (((s.step c).2.failuresOf name).Perm (((s.step c).1.hub.published j).drop n))
      ∧ (s.step c).1.channels.find? name = some ⟨j, ((s.step c).1.hub.published j).length⟩ := by
  have hk := keysOnce_perform h c
  refine ⟨newFailures_perm (s := (s.perform c).1.setHub (s.perform c).1.hub.settle) hk hc, ?_⟩
  rw [step_fst, markShown, Table.find?_map, show ((s.perform c).1.setHub (s.perform c).1.hub.settle).channels.find? name
    = some ⟨j, n⟩ from hc, Option.map_some, unshown_eq, List.length_drop]
  refine congrArg (fun m => some (FailureChannel.mk j m)) ?_
  exact Nat.add_sub_of_le hn

/-- Nobody takes failures by a name while some commands are carried out. -/
def Untaken (s : Session) (name : String) (cs : List Command) : Prop :=
  ∀ done c rest, cs = done ++ c :: rest → ∀ j, ¬ (s.after done).Takes c name j

theorem Untaken.tail {cs : List Command} (h : s.Untaken name (c :: cs)) : (s.step c).1.Untaken name cs :=
  fun done d rest he => h (c :: done) d rest (congrArg (c :: ·) he)

theorem published_after (hs : s.hub.receiver.Sound) (cs : List Command) (j : Nat) :
    s.hub.published j <+: (s.after cs).hub.published j :=
  (grown_after hs cs).first.published j

/-- Steps show what is published in them, each failure once. -/
theorem shown_steps (hs : s.hub.receiver.Sound) (hk : s.channels.HasKeysOnce)
    (hc : s.channels.find? name = some ⟨j, (s.hub.published j).length⟩) {cs : List Command}
    (hn : s.Untaken name cs) :
    ((s.steps cs).2.flatMap (·.failuresOf name)).Perm
      (((s.after cs).hub.published j).drop (s.hub.published j).length) := by
  induction cs generalizing s with
  | nil =>
    rw [after_nil, List.drop_length]
    exact .refl _
  | cons c cs ih =>
    have hc' : (s.perform c).1.channels.find? name = some ⟨j, (s.hub.published j).length⟩ := by
      rcases channels_perform (s := s) c with he | ⟨name', i, ht, he⟩ <;> rw [he]
      · exact hc
      · have hne : name ≠ name' := fun e => hn [] c cs rfl i (e ▸ ht)
        rw [Table.find?_insert_of_ne _ _ hne]
        exact hc
    have hs' : (s.step c).1.hub.receiver.Sound := (grown_after hs [c]).sound
    obtain ⟨new, hnew⟩ : s.hub.published j <+: (s.step c).1.hub.published j := published_after hs [c] j
    obtain ⟨later, hlater⟩ := published_after hs' cs j
    obtain ⟨hshown, hnext⟩ := shown_step hk hc' (by rw [← hnew, List.length_append]; exact Nat.le_add_right _ _)
    have hrest := ih hs' (keysOnce_step hk c) hnext hn.tail
    -- what is new now, and what is new later
    rw [← hlater, List.drop_left] at hrest
    rw [← hnew, List.drop_left] at hshown
    rw [after_cons, ← hlater, ← hnew, List.append_assoc, List.drop_left]
    exact hshown.append hrest

/-- Whoever takes the failures of a relay is shown each of them once, those from before too. -/
theorem Takes.delivered (h : s.Takes c name j) (hs : s.hub.receiver.Sound) (hk : s.channels.HasKeysOnce)
    {cs : List Command} (hn : (s.step c).1.Untaken name cs) :
    ((s.steps (c :: cs)).2.flatMap (·.failuresOf name)).Perm ((s.after (c :: cs)).hub.published j) := by
  have hc : (s.perform c).1.channels.find? name = some ⟨j, 0⟩ := by
    rw [h.perform]
    exact Table.find?_insert_self _ _ _
  obtain ⟨hshown, hnext⟩ := shown_step hk hc (Nat.zero_le _)
  have hs' : (s.step c).1.hub.receiver.Sound := (grown_after hs [c]).sound
  obtain ⟨later, hlater⟩ := published_after hs' cs j
  have hrest := shown_steps hs' (keysOnce_step hk c) hnext hn
  rw [← hlater, List.drop_left] at hrest
  rw [after_cons, ← hlater]
  exact hshown.append hrest

/-! ## Layers fail once -/

/-- How the layers of relays fail in a run. -/
structure LayersFailOnce (s : Session) (cs : List Command) : Prop where
  /-- What changes have to do with failures. -/
  changes : ∀ done x rest, s.history cs = done ++ x :: rest → FailsInOrder done x
  /-- The failures that are published in the end are those of the run. -/
  published : ∀ j f, f ∈ (s.after cs).hub.published j ↔ ∃ x ∈ s.history cs, x.Fails j f
  /-- No layer of a relay fails twice. -/
  once : ∀ j, (((s.after cs).hub.published j).map Failure.rid).Nodup
  /-- Whoever takes the failures of a relay, at any time, is shown each of them once, as long as nobody takes those of
  another relay by the same name. -/
  delivered : ∀ done c rest name j, cs = done ++ c :: rest → (s.after done).Takes c name j →
    ((s.after done).step c).1.Untaken name rest →
    (((s.after done).steps (c :: rest)).2.flatMap (·.failuresOf name)).Perm ((s.after cs).hub.published j)

/-- Whatever a session does, a layer of a relay fails exactly if its pump ends with an error while it is not cancelled,
and does so once; the failure is shown to whoever has taken or will take the failures of the relay, and from then on the
relay does nothing for that layer. -/
theorem layers_fail_once (settings : Settings) (kind : Kind) (cs : List Command) :
    (new settings kind).LayersFailOnce cs := by
  have hf := failing_after settings kind cs
  refine ⟨fun done x rest he => failsInOrder_history settings kind cs done x rest he, hf.published, hf.once,
    fun done c rest name j he ht hn => ?_⟩
  have hk := keysOnce_after (s := new settings kind) List.nodup_nil done
  rw [he, after_append]
  exact ht.delivered (proper_after settings kind done).sound hk hn

/-- One layer has no outbound track, and the writer of the other one fails after a packet. The failures are taken in
between; the packets that come after the second one stay in the stream. -/
theorem layers_fail_once_taken_between :
    let cs : List Command := [.outbound (.add "o" 100 "video" "stream" none (some "w")), .relay (.add "r" [("q", "o")]),
      .receiver (.receive [⟨"q", 7⟩, ⟨"h", 0⟩]), .transport (.pushMedia 7 { payload := [1] }),
      .relay (.takeFailures "r"), .outbound (.setWriter "w" none (some true)),
      .transport (.pushMedia 7 { payload := [2] }), .transport (.pushMedia 7 { payload := [3] }), .advance 4000]
    let s := (new {} .video).after cs
    ((new {} .video).steps cs).2.map (·.failuresOf "r") = [[], [], [], [], [⟨"h", 0, .noOutboundTrack "h"⟩], [],
        [⟨"q", 7, .other "mock writer: write failed"⟩], [], []]
      ∧ (s.hub.egress.writer "w").written = [{ ssrc := 100, payload := [1] }] ∧ s.hub.feedback.written = []
      ∧ (s.hub.transport.stream .media 7).taken = 2
      ∧ (new {} .video).LayersFailOnce cs :=
  ⟨by decide +kernel, by decide +kernel, by decide +kernel, by decide +kernel, layers_fail_once {} .video _⟩

end Session

end MediaRelay
