import MediaRelay.Proofs.Beats
import MediaRelay.Proofs.Conservation

/-!
# How encodings are received

- `Watched` is a transport that writes down every attempt to open one of its streams; the receiver does the same with
  it as with the transport alone (`receive_watched`);
- `toOpen` lists the streams that encodings need, `Tries` says what it is to open streams in order up to the first
  failure, and `receive_tries` that receiving does so;
- `TurnedAway` says which encodings are not even tried, and why, in terms of what was called before;
- `receives_once`: in every state encodings are turned away for the first reason that applies and nothing changes, or
  else their streams are tried in order and there is a track if all can be opened; no run has two tracks.
-/

namespace MediaRelay

variable {τ σ : Type}

/-! ## Watching what is opened -/

/-- An attempt to open a stream, and what it came to. -/
structure Opening (σ : Type) where
  channel : Channel
  ssrc : Ssrc
  result : Except Error σ

/-- The stream that was to be opened. -/
def Opening.target (o : Opening σ) : Channel × Ssrc :=
  (o.channel, o.ssrc)

/-- A transport, and the attempts to open streams since the log was begun. -/
structure Watched (τ σ : Type) where
  transport : τ
  log : List (Opening σ) := []

instance [Transport τ σ] : Transport (Watched τ σ) σ where
  openStream t ch ssrc :=
    let (u, r) := Transport.openStream t.transport ch ssrc
    (⟨u, t.log ++ [⟨ch, ssrc, r⟩]⟩, r)
  closeStream t ch s :=
    let (u, r) := Transport.closeStream t.transport ch s
    ({ t with transport := u }, r)
  readStream t ch s n :=
    let (u, r) := Transport.readStream t.transport ch s n
    ({ t with transport := u }, r)

section Watching

variable [Transport τ σ]

/-- Watching changes nothing. -/
theorem alike_watched : Alike fun (t : Watched τ σ) (u : τ) => t.transport = u where
  openStream := by
    rintro t u ch ssrc rfl
    exact ⟨_, _, _, rfl, rfl, rfl⟩
  closeStream := by
    rintro t u ch s rfl
    exact ⟨_, _, _, rfl, rfl, rfl⟩

namespace Receiver

/-- What a receiver attempts to open while it receives. -/
def openings (r : Receiver σ) (t : τ) (es : List Encoding) : List (Opening σ) :=
  (r.receive (⟨t, []⟩ : Watched τ σ) es).2.1.log

/-- Receiving with a watched transport does what receiving does. -/
theorem receive_watched (r : Receiver σ) (t : τ) (es : List Encoding) :
    r.receive (⟨t, []⟩ : Watched τ σ) es
      = ((r.receive t es).1, ⟨(r.receive t es).2.1, r.openings t es⟩, (r.receive t es).2.2) := by
  obtain ⟨hr, hs⟩ := (alike_watched (τ := τ)).receive (t := ⟨t, []⟩) rfl r es
  have ht := hs.fst
  have hx := hs.snd
  rw [← hr, ← ht, ← hx]
  rfl

end Receiver

end Watching

/-! ## Opening in order -/

/-- The streams that encodings need: media, then control, of each whose SSRC is known. -/
def toOpen (es : List Encoding) : List (Channel × Ssrc) :=
  (es.filter fun e => e.ssrc ≠ 0).flatMap fun e => [(.media, e.ssrc), (.control, e.ssrc)]

/-- Opens streams in order up to the first that fails, whose error is the result: the streams that are to be opened,
the attempts, and the result. -/
inductive Tries : List (Channel × Ssrc) → List (Opening σ) → Except Error Unit → Prop
  | done : Tries [] [] (.ok ())
  | failed (ch : Channel) (ssrc : Ssrc) (e : Error) (rest : List (Channel × Ssrc)) :
      Tries ((ch, ssrc) :: rest) [⟨ch, ssrc, .error e⟩] (.error e)
  | opened (ch : Channel) (ssrc : Ssrc) (s : σ) {rest : List (Channel × Ssrc)} {log : List (Opening σ)}
      {r : Except Error Unit} (h : Tries rest log r) : Tries ((ch, ssrc) :: rest) (⟨ch, ssrc, .ok s⟩ :: log) r

namespace Tries

variable {plan rest : List (Channel × Ssrc)} {log log' : List (Opening σ)} {r : Except Error Unit}

/-- Streams that could all be opened, and then more streams. -/
theorem append (h : Tries plan log (.ok ())) (h' : Tries rest log' r) : Tries (plan ++ rest) (log ++ log') r := by
  generalize hr : (.ok () : Except Error Unit) = q at h
  induction h with
  | done => exact h'
  | failed => cases hr
  | opened ch ssrc s _ ih => exact .opened ch ssrc s (ih hr)

/-- After a failure no further streams are tried. -/
theorem append_right {e : Error} (h : Tries plan log (.error e)) (rest : List (Channel × Ssrc)) :
    Tries (plan ++ rest) log (.error e) := by
  generalize hr : (.error e : Except Error Unit) = q at h
  induction h with
  | done => cases hr
  | failed ch ssrc e' => exact .failed ch ssrc e' _
  | opened ch ssrc s _ ih => exact .opened ch ssrc s (ih hr)

/-- The result is a success if every stream could be opened. -/
theorem ok_iff (h : Tries plan log r) : r = .ok () ↔ ∀ o ∈ log, o.result.isOk = true := by
  induction h with
  | done => simp
  | failed ch ssrc e rest => simp [Except.isOk, Except.toBool]
  | opened ch ssrc s _ ih => simpa [Except.isOk, Except.toBool] using ih

/-- If every stream could be opened then all were tried. -/
theorem map_target (h : Tries plan log (.ok ())) : log.map Opening.target = plan := by
  generalize hr : (.ok () : Except Error Unit) = q at h
  induction h with
  | done => rfl
  | failed => cases hr
  | opened ch ssrc s _ ih => exact congrArg ((ch, ssrc) :: ·) (ih hr)

/-- Only streams that are to be opened are tried. -/
theorem mem_plan (h : Tries plan log r) {o : Opening σ} (ho : o ∈ log) : o.target ∈ plan := by
  induction h with
  | done => cases ho
  | failed ch ssrc e rest =>
    rw [List.mem_singleton.mp ho]
    exact List.mem_cons_self
  | opened ch ssrc s _ ih =>
    rcases List.mem_cons.mp ho with rfl | ho
    · exact List.mem_cons_self
    · exact List.mem_cons_of_mem _ (ih ho)

/-- If what comes of opening a stream does not depend on what was opened before, the result is a success if every
stream can be opened. -/
theorem ok_iff_plan {f : Channel → Ssrc → Except Error σ} (h : Tries plan log r)
    (hf : ∀ o ∈ log, o.result = f o.channel o.ssrc) : r = .ok () ↔ ∀ x ∈ plan, (f x.1 x.2).isOk = true := by
  constructor
  · rintro rfl x hx
    obtain ⟨o, ho, rfl⟩ := List.mem_map.mp (h.map_target ▸ hx)
    rw [Opening.target, ← hf o ho]
    exact h.ok_iff.mp rfl o ho
  · intro hp
    refine h.ok_iff.mpr fun o ho => ?_
    rw [hf o ho]
    exact hp o.target (h.mem_plan ho)

/-- The error is that of an attempt. -/
theorem exists_error {e : Error} (h : Tries plan log (.error e)) : ∃ o ∈ log, o.result = .error e := by
  generalize hr : (.error e : Except Error Unit) = q at h
  induction h with
  | done => cases hr
  | failed ch ssrc e' => cases hr; exact ⟨_, List.mem_singleton_self _, rfl⟩
  | opened ch ssrc s _ ih =>
    obtain ⟨o, ho, hoe⟩ := ih hr
    exact ⟨o, List.mem_cons_of_mem _ ho, hoe⟩

end Tries

section Opening

open Transport Receiver

variable [Transport τ σ]

theorem openStream_watched (t : Watched τ σ) (ch : Channel) (ssrc : Ssrc) :
    (openStream t ch ssrc).1.log = t.log ++ [⟨ch, ssrc, (openStream t ch ssrc).2⟩] := rfl

theorem abandon_watched (t : Watched τ σ) (ls : List (Layer σ)) : (abandon t ls).log = t.log := by
  induction ls generalizing t with
  | nil => rfl
  | cons l ls ih =>
    unfold abandon
    split
    · exact ih _
    · exact ih t

/-- A pair of streams is tried media first. -/
theorem openPair_tries (t : Watched τ σ) (ssrc : Ssrc) : ∃ added, (openPair t ssrc).1.log = t.log ++ added
    ∧ Tries [(.media, ssrc), (.control, ssrc)] added ((openPair t ssrc).2.map fun _ => ()) := by
  unfold openPair
  have hm := openStream_watched t .media ssrc
  generalize openStream t .media ssrc = x at hm ⊢
  obtain ⟨u, e | m⟩ := x
  · exact ⟨_, hm, .failed _ _ e _⟩
  · have hc := openStream_watched u .control ssrc
    dsimp only at hm ⊢
    rw [hm, List.append_assoc] at hc
    generalize openStream u .control ssrc = y at hc ⊢
    obtain ⟨v, e | c⟩ := y
    · exact ⟨_, hc, .opened _ _ m (.failed _ _ e _)⟩
    · exact ⟨_, hc, .opened _ _ m (.opened _ _ c .done)⟩

/-- The streams of encodings are tried in order. -/
theorem openLayers_tries (es : List Encoding) : ∀ (t : Watched τ σ) (done : List (Layer σ)), ∃ added,
    (openLayers t done es).1.log = t.log ++ added
      ∧ Tries (toOpen es) added ((openLayers t done es).2.map fun _ => ()) := by
  induction es with
  | nil => exact fun t done => ⟨[], (List.append_nil _).symm, .done⟩
  | cons e es ih =>
    intro t done
    unfold openLayers
    split
    · next hz =>
      have hp : toOpen (e :: es) = toOpen es := by simp [toOpen, hz]
      rw [hp]
      exact ih t _
    · next hz =>
      have hp : toOpen (e :: es) = [(.media, e.ssrc), (.control, e.ssrc)] ++ toOpen es := by simp [toOpen, hz]
      rw [hp]
      obtain ⟨added, hl, ht⟩ := openPair_tries t e.ssrc
      generalize openPair t e.ssrc = x at hl ht ⊢
      obtain ⟨u, err | ⟨m, c⟩⟩ := x
      · exact ⟨added, (abandon_watched u done).trans hl, ht.append_right _⟩
      · obtain ⟨added', hl', ht'⟩ := ih u (done ++ [⟨e.rid, e.ssrc, .bound m c false⟩])
        dsimp only at hl hl' ⊢
        exact ⟨added ++ added', by rw [hl', hl, List.append_assoc], ht.append ht'⟩

namespace Receiver

variable {r : Receiver σ} {t : τ} {es : List Encoding}

/-- A receiver that receives tries the streams of the encodings in order. -/
theorem receive_tries (hr : r.refuseReceive es = none) :
    Tries (toOpen es) (r.openings t es) ((r.receive t es).2.2.map fun _ => ()) := by
  have hx := (alike_watched (τ := τ)).receive (t := ⟨t, []⟩) rfl r es
  obtain ⟨added, hl, ht⟩ := openLayers_tries es (⟨t, []⟩ : Watched τ σ) []
  have he : (r.receive (⟨t, []⟩ : Watched τ σ) es).2.2 = (r.receive t es).2.2 := hx.2.snd
  rw [← he]
  unfold openings receive
  rw [hr]
  dsimp only
  generalize openLayers (⟨t, []⟩ : Watched τ σ) [] es = x at hl ht ⊢
  obtain ⟨u, e | ls⟩ := x
  all_goals
    rw [← show u.log = added from hl] at ht
    exact ht

/-- A receiver that refuses encodings opens nothing. -/
theorem openings_of_refused {e : Error} (hr : r.refuseReceive es = some e) : r.openings t es = [] := by
  unfold openings receive
  rw [hr]

end Receiver

end Opening

/-! ## What queues note of it -/

namespace QueueTransport

/-- The streams of a channel that could be opened, in order. -/
def openedOf (ch : Channel) (log : List (Opening Ssrc)) : List Ssrc :=
  (log.filter fun o => o.channel = ch ∧ o.result.isOk).map Opening.ssrc

/-- What a watched transport has become since its log was begun: the same streams refuse to be opened, those that do
not were opened when that was attempted, and the transport has noted them. -/
structure Noted (t : QueueTransport) (w : Watched QueueTransport Ssrc) : Prop where
  refusesOpen : ∀ ch, (w.transport.channel ch).refusesOpen = (t.channel ch).refusesOpen
  opened : ∀ ch, (w.transport.channel ch).opened = (t.channel ch).opened ++ openedOf ch w.log
  result : ∀ o ∈ w.log, o.result = (t.openStream o.channel o.ssrc).2

theorem opened_onStream {α : Type} (t : QueueTransport) (ch : Channel) (ssrc : Ssrc)
    (f : QueueStream → QueueStream × α) (ch' : Channel) :
    ((t.onStream ch ssrc f).1.channel ch').opened = (t.channel ch').opened := by
  simp only [onStream]
  by_cases hc : ch' = ch
  · subst hc; rw [channel_setChannel_self]; rfl
  · rw [channel_setChannel_of_ne _ _ hc]

/-- What comes of opening a stream is a matter of the streams that refuse. -/
theorem openStream_snd (t : QueueTransport) (ch : Channel) (ssrc : Ssrc) :
    (t.openStream ch ssrc).2
      = if ssrc ∈ (t.channel ch).refusesOpen then .error (openRefusal ch ssrc) else .ok ssrc := by
  unfold openStream
  dsimp only
  split <;> rfl

theorem refusesOpen_openStream (t : QueueTransport) (ch : Channel) (ssrc : Ssrc) (ch' : Channel) :
    ((t.openStream ch ssrc).1.channel ch').refusesOpen = (t.channel ch').refusesOpen := by
  unfold openStream
  dsimp only
  split
  · rfl
  · by_cases hc : ch' = ch
    · subst hc; rw [channel_setChannel_self]
    · rw [channel_setChannel_of_ne _ _ hc]

/-- A stream that could be opened is noted. -/
theorem opened_openStream (t : QueueTransport) (ch : Channel) (ssrc : Ssrc) (ch' : Channel) :
    ((t.openStream ch ssrc).1.channel ch').opened
      = (t.channel ch').opened ++ openedOf ch' [⟨ch, ssrc, (t.openStream ch ssrc).2⟩] := by
  rw [openStream_snd]
  unfold openStream
  dsimp only
  split
  · simp [openedOf, Except.isOk, Except.toBool]
  · by_cases hc : ch' = ch
    · subst hc
      rw [channel_setChannel_self]
      simp [openedOf, Except.isOk, Except.toBool]
    · rw [channel_setChannel_of_ne _ _ hc]
      simp [openedOf, Ne.symm hc]

theorem openedOf_append (ch : Channel) (log log' : List (Opening Ssrc)) :
    openedOf ch (log ++ log') = openedOf ch log ++ openedOf ch log' := by
  simp [openedOf]

/-- Whatever is opened and closed, it is noted. -/
theorem alike_noted (t : QueueTransport) :
    Alike fun w w' : Watched QueueTransport Ssrc => w = w' ∧ t.Noted w := by
  refine .of_keeps (fun w ch ssrc h => ⟨fun ch' => ?_, fun ch' => ?_, fun o ho => ?_⟩)
    fun w ch s h => ⟨fun ch' => ?_, fun ch' => ?_, h.result⟩
  · exact (w.transport.refusesOpen_openStream ch ssrc ch').trans (h.refusesOpen ch')
  · refine (w.transport.opened_openStream ch ssrc ch').trans ?_
    rw [h.opened ch', List.append_assoc, ← openedOf_append]
    rfl
  · rcases List.mem_append.mp ho with ho | ho
    · exact h.result o ho
    · rw [List.mem_singleton.mp ho]
      show (w.transport.openStream ch ssrc).2 = _
      rw [openStream_snd, openStream_snd, h.refusesOpen ch]
  · exact (w.transport.refusesOpen_onStream ch s (fun q => q.close (closeRefusal s)) ch').trans (h.refusesOpen ch')
  · exact (w.transport.opened_onStream ch s (fun q => q.close (closeRefusal s)) ch').trans (h.opened ch')

/-- What is noted when encodings are received. -/
theorem noted_receive (t : QueueTransport) (r : Receiver Ssrc) (es : List Encoding) :
    t.Noted ⟨(r.receive t es).2.1, r.openings t es⟩ := by
  have h₀ : t.Noted ⟨t, []⟩ := ⟨fun _ => rfl, fun _ => (List.append_nil _).symm, fun o ho => by cases ho⟩
  have h := (t.alike_noted.receive ⟨rfl, h₀⟩ r es).2.fst.2
  rwa [Receiver.receive_watched] at h

end QueueTransport

namespace Hub

variable {h g : Hub} {t : Task}

theorem Reads.opened {q : Read} {u : QueueTransport} {r : Except Error Data} (hq : Reads h q u r) (ch : Channel) :
    (u.channel ch).opened = (h.transport.channel ch).opened := by
  cases hq with
  | gone | failed => rfl
  | ended | took => exact h.transport.opened_onStream _ _ _ ch

/-- No task opens a stream. -/
theorem opened_move (hm : h.move? t = some g) (ch : Channel) :
    (g.transport.channel ch).opened = (h.transport.channel ch).opened := by
  cases hq : t.job.query? with
  | none => rw [transport_of_no_query hq hm]
  | some q =>
    cases move_of_move? hm with
    | park | cease => rfl
    | read _ hr | forward _ _ _ hr => exact hr.opened ch
    | refuse _ _ _ hr | fail _ _ _ hr => rw [(failPump_fields _ _ _ _).1]; exact hr.opened ch
    | unrouted => rw [(failPump_fields _ _ _ _).1]
    | greet _ hr =>
      unfold greeted
      split <;> exact hr.opened ch
    | expire hj | round hj | begin hj | announce hj => rw [hj] at hq; cases hq

theorem opened_settle (h : Hub) (ch : Channel) :
    (h.settle.transport.channel ch).opened = (h.transport.channel ch).opened :=
  settle_keeps (P := fun g _ => (g.transport.channel ch).opened = (h.transport.channel ch).opened)
    (fun _ _ _ _ hp hm => (opened_move (of_mover? hm).2 ch).trans hp) rfl

end Hub

/-! ## What was called before -/

/-- The errors with which encodings are turned away. -/
def refusals : List Error :=
  [.noEncodings, .duplicateRid, .receiverStopped, .alreadyReceived]

/-- Whether a change is a call to receive that was not turned away. -/
def Change.attempts (x : Change) : Bool :=
  match x.cause with
  | .command (.receiver (.receive _)) (.track _) => true
  | .command (.receiver (.receive _)) (.failed e) => e ∉ refusals
  | _ => false

/-- Whether a change is a call to receive that has led to a track. -/
def Change.receives (x : Change) : Bool :=
  match x.cause with
  | .command (.receiver (.receive _)) (.track _) => true
  | _ => false

theorem Change.attempts_of_receives (x : Change) (h : x.receives = true) : x.attempts = true := by
  unfold receives at h
  unfold attempts
  split at h
  · next he => rw [he]
  · cases h

/-- Only calls to receive are attempts. -/
theorem Change.attempts_of_ne {c : Command} (hc : ∀ es, c ≠ .receiver (.receive es)) (reply : Reply) (h g : Hub) :
    (Change.mk (.command c reply) h g).attempts = false := by
  unfold attempts
  split
  · next he => exact absurd (Cause.command.inj he).1 (hc _)
  · next he => exact absurd (Cause.command.inj he).1 (hc _)
  · rfl

/-- Why encodings are turned away in a phase and after some past: the first reason that applies. -/
inductive TurnedAway (past : List Change) (phase : Phase) (es : List Encoding) : Error → Prop
  | noEncodings (he : es = []) : TurnedAway past phase es .noEncodings
  | duplicateRid (he : es ≠ []) (hd : ¬ (es.map Encoding.rid).Nodup) : TurnedAway past phase es .duplicateRid
  | receiverStopped (he : es ≠ []) (hd : (es.map Encoding.rid).Nodup) (hs : phase = .stopped) :
      TurnedAway past phase es .receiverStopped
  | alreadyReceived (he : es ≠ []) (hd : (es.map Encoding.rid).Nodup) (hs : phase ≠ .stopped)
      (ha : ∃ x ∈ past, x.attempts) : TurnedAway past phase es .alreadyReceived

namespace Receiver

/-- What a receiver remembers of the calls to receive. -/
structure Remembers (r : Receiver Ssrc) (past : List Change) : Prop where
  attempted : r.attempted = true ↔ ∃ x ∈ past, x.attempts
  once : past.countP Change.receives ≤ r.attempted.toNat

variable {r : Receiver Ssrc} {past : List Change} {es : List Encoding}

/-- There is nothing to remember of a change that is not an attempt. -/
theorem Remembers.other {r' : Receiver Ssrc} {x : Change} (h : r.Remembers past) (ha : r'.attempted = r.attempted)
    (hx : x.attempts = false) : r'.Remembers (past ++ [x]) where
  attempted := by
    rw [ha, h.attempted]
    simp [or_and_right, exists_or, hx]
  once := by
    have hr : x.receives = false := Bool.eq_false_iff.mpr fun hr => by
      rw [x.attempts_of_receives hr] at hx
      cases hx
    simpa [ha, hr] using h.once

/-- The first attempt is remembered. -/
theorem Remembers.first {r' : Receiver Ssrc} {x : Change} (h : r.Remembers past) (hr : r.attempted = false)
    (ha : r'.attempted = true) (hx : x.attempts = true) : r'.Remembers (past ++ [x]) where
  attempted := by simp [ha, hx]
  once := by
    have h₀ : past.countP Change.receives ≤ 0 := le_of_le_of_eq h.once (congrArg Bool.toNat hr)
    have h₁ : [x].countP Change.receives ≤ 1 := List.countP_le_length
    rw [List.countP_append, ha]
    exact Nat.add_le_add h₀ h₁

theorem attempted_bind (r : Receiver Ssrc) (t : QueueTransport) (rid : String) (ssrc : Ssrc) :
    (r.bind t rid ssrc).1.attempted = r.attempted := by
  rcases r.bind_cases t rid ssrc with ⟨e, -, he⟩ | ⟨u, e, -, -, he⟩ | ⟨u, m, c, -, -, he⟩ <;> rw [he]
  rfl

theorem attempted_stop (r : Receiver Ssrc) (t : QueueTransport) : (r.stop t).1.attempted = r.attempted := by
  by_cases hs : r.phase = .stopped
  · rw [stop_of_stopped hs]
  · exact (stop_fields hs t).2.2.2.2

/-- A receiver refuses what is to be turned away. -/
theorem Remembers.refuseReceive_eq_some (h : r.Remembers past) (e : Error) :
    r.refuseReceive es = some e ↔ TurnedAway past r.phase es e := by
  unfold refuseReceive
  constructor
  · intro hr
    split at hr
    · next he => cases hr; exact .noEncodings (by simpa using he)
    · next he =>
      have he : es ≠ [] := by simpa using he
      split at hr
      · next hd => cases hr; exact .duplicateRid he hd
      · next hd =>
        have hd := not_not.mp hd
        split at hr
        · next hs => cases hr; exact .receiverStopped he hd hs
        · next hs =>
          split at hr
          · next ha => cases hr; exact .alreadyReceived he hd hs (h.attempted.mp ha)
          · cases hr
  · intro ht
    cases ht with
    | noEncodings he => simp [he]
    | duplicateRid he hd => simp [he, hd]
    | receiverStopped he hd hs => simp [he, hd, hs]
    | alreadyReceived he hd hs ha => simp [he, hd, hs, h.attempted.mpr ha]

theorem Remembers.refuseReceive_eq_none (h : r.Remembers past) :
    r.refuseReceive es = none ↔ ∀ e, ¬ TurnedAway past r.phase es e := by
  rw [Option.eq_none_iff_forall_ne_some]
  exact forall_congr' fun e => not_congr (h.refuseReceive_eq_some e)

/-- What a receiver refuses is one of the refusals. -/
theorem mem_refusals {e : Error} (hr : r.refuseReceive es = some e) : e ∈ refusals := by
  unfold refuseReceive at hr
  split at hr
  · cases hr; decide
  · split at hr
    · cases hr; decide
    · split at hr
      · cases hr; decide
      · split at hr
        · cases hr; decide
        · cases hr

/-- When a stream cannot be opened, the error is not one of the refusals. -/
theorem not_mem_refusals {t : QueueTransport} {e : Error} (hn : r.refuseReceive es = none)
    (he : (r.receive t es).2.2 = .error e) : e ∉ refusals := by
  have ht := receive_tries (t := t) hn
  rw [he] at ht
  obtain ⟨o, ho, hoe⟩ := ht.exists_error
  have hres := (t.noted_receive r es).result o ho
  rw [hoe, QueueTransport.openStream_snd] at hres
  split at hres
  · cases hres
    simp [refusals, QueueTransport.openRefusal]
  · cases hres

end Receiver

/-! ## The track -/

/-- What is shown of the layer of an encoding that has just been received. -/
def Encoding.view (e : Encoding) : LayerView where
  rid := e.rid
  ssrc := e.ssrc
  ready := e.ssrc ≠ 0
  owned := true

/-- The track of a receiver is that of encodings: it has their layers in order, those ready whose SSRC is known, and
each is found by its RID. -/
structure Receiver.Tracks (r : Receiver Ssrc) (es : List Encoding) : Prop where
  layers : r.layers.map (fun l => (l.rid, l.ssrc, l.isReady)) = es.map fun e => (e.rid, e.ssrc, decide (e.ssrc ≠ 0))
  found : ∀ e ∈ es, ∃ l, r.layer? e.rid = some l ∧ l.ssrc = e.ssrc ∧ ∀ k ∈ r.layers, k.rid = e.rid ↔ k = l
  other : ∀ rid, rid ∉ es.map Encoding.rid → r.layer? rid = none

section Track

variable [Transport τ σ] {es : List Encoding} {ls : List (Layer σ)}

theorem Encoding.Opened.isReady_eq {e : Encoding} {l : Layer σ} (h : e.Opened τ l) :
    l.isReady = decide (e.ssrc ≠ 0) := by
  rw [Bool.eq_iff_iff, h.isReady_iff, h.ssrc, decide_eq_true_iff]

theorem map_opened (h : List.Forall₂ (Encoding.Opened τ) es ls) :
    ls.map (fun l => (l.rid, l.ssrc, l.isReady)) = es.map fun e => (e.rid, e.ssrc, decide (e.ssrc ≠ 0)) := by
  induction h with
  | nil => rfl
  | cons h _ ih => rw [List.map_cons, List.map_cons, ih, h.rid, h.ssrc, h.isReady_eq]

end Track

namespace Receiver

variable {r : Receiver Ssrc} {es : List Encoding} {ls : List (Layer Ssrc)}

/-- A receiver that has opened layers for encodings has their track. -/
theorem Sound.tracks (h : r.Sound) (ho : List.Forall₂ (Encoding.Opened QueueTransport) es r.layers) :
    r.Tracks es where
  layers := map_opened ho
  found e he := by
    obtain ⟨l, hl, hel⟩ := exists_of_mem_left ho he
    refine ⟨l, hel.rid ▸ h.layer?_eq hl, hel.ssrc, fun k hk => ⟨fun hkr => ?_, fun hkl => hkl ▸ hel.rid⟩⟩
    exact List.inj_on_of_nodup_map h.rids hk hl (hkr.trans hel.rid.symm)
  other rid hrid := by
    refine List.find?_eq_none.mpr fun l hl => ?_
    obtain ⟨e, he, hel⟩ := exists_of_mem_right ho hl
    rw [decide_eq_true_iff, hel.rid]
    exact fun hre => hrid (List.mem_map.mpr ⟨e, he, hre⟩)

end Receiver

/-! ## Calls to receive -/

namespace Session

open Receiver

variable {s : Session} {past : List Change} {es : List Encoding}

/-- What a session attempts to open while it receives. -/
def openings (s : Session) (es : List Encoding) : List (Opening Ssrc) :=
  s.hub.receiver.openings s.hub.transport es

/-- What comes of a call to receive, after some past. -/
structure Receives (s : Session) (past : List Change) (es : List Encoding) : Prop where
  /-- Encodings that are turned away change nothing. -/
  turnedAway : ∀ e, TurnedAway past s.hub.receiver.phase es e →
    (s.step (.receiver (.receive es))).1 = s ∧ (s.step (.receiver (.receive es))).2.reply = .failed e
      ∧ s.openings es = []
  /-- Otherwise the streams are tried in order, and there is a track if each of them can be opened. -/
  tried : (∀ e, ¬ TurnedAway past s.hub.receiver.phase es e) → ∃ r, Tries (toOpen es) (s.openings es) r
    ∧ (r = .ok () ↔ ∀ x ∈ toOpen es, (s.hub.transport.openStream x.1 x.2).2.isOk = true)
    ∧ (s.step (.receiver (.receive es))).2.reply = match r with
      | .ok () => .track ⟨s.hub.receiver.kind, es.map Encoding.view⟩
      | .error e => .failed e
  /-- The streams that could be opened are open, and no others were opened. -/
  opened : ∀ ch, ((s.step (.receiver (.receive es))).1.hub.transport.channel ch).opened
    = (s.hub.transport.channel ch).opened ++ QueueTransport.openedOf ch (s.openings es)
  track : ∀ v, (s.step (.receiver (.receive es))).2.reply = .track v →
    (s.step (.receiver (.receive es))).1.hub.receiver.Tracks es

/-- What comes of all calls to receive, those of the past and one that is still to come. -/
structure ReceivesOnce (s : Session) (past : List Change) : Prop where
  next : s.hub.held = true → ∀ es, s.Receives past es
  once : past.countP Change.receives ≤ 1

theorem perform_receive (hh : s.hub.held = true) (es : List Encoding) :
    s.perform (.receiver (.receive es)) = s.receive es :=
  perform_of_held hh _

theorem receive_of_refused {e : Error} (hr : s.hub.receiver.refuseReceive es = some e) :
    s.receive es = (s, .failed e) := by
  unfold Session.receive Receiver.receive
  rw [hr]
  rfl

/-- What is shown of layers that have just been opened. -/
theorem map_view_opened {ls : List (Layer Ssrc)} (ha : s.hub.isAlive = true)
    (h : List.Forall₂ (Encoding.Opened QueueTransport) es ls) : ls.map s.view = es.map Encoding.view := by
  induction h with
  | nil => rfl
  | cons h _ ih => rw [List.map_cons, List.map_cons, ih, view, Encoding.view, h.rid, h.ssrc, h.isReady_eq, ha]

/-- The reply to encodings that are not refused is the result of opening their streams. -/
theorem receive_of_tried (hh : s.hub.held = true) (hr : s.hub.receiver.refuseReceive es = none) :
    (s.receive es).2 = match (s.hub.receiver.receive s.hub.transport es).2.2.map fun _ => () with
      | .ok () => .track ⟨s.hub.receiver.kind, es.map Encoding.view⟩
      | .error e => .failed e := by
  unfold Session.receive
  rcases s.hub.receiver.receive_cases s.hub.transport es with ⟨e, he, -⟩ | ⟨u, e, -, he⟩ | ⟨u, ls, -, ho, he⟩
  · rw [hr] at he
    cases he
  · rw [he]
    rfl
  · rw [he]
    refine congrArg (fun views => Reply.track ⟨s.hub.receiver.kind, views⟩) (map_view_opened ?_ ho)
    exact Bool.or_eq_true_iff.mpr (.inl hh)

/-! ### What is remembered in a run -/

theorem remembers_perform {c : Command} (h : s.hub.receiver.Remembers past) (hc : ∀ n, c ≠ .advance n) :
    (s.perform c).1.hub.receiver.Remembers
      (past ++ [⟨.command c (s.perform c).2, s.hub, (s.perform c).1.hub⟩]) := by
  by_cases hr : ∃ es, c = .receiver (.receive es)
  · obtain ⟨es, rfl⟩ := hr
    cases hh : s.hub.held with
    | false =>
      rw [perform_of_not_held hh rfl]
      exact h.other rfl rfl
    | true =>
      rw [perform_receive hh]
      unfold Session.receive
      rcases s.hub.receiver.receive_cases s.hub.transport es with ⟨e, hr, he⟩ | ⟨u, e, hr, he⟩ | ⟨u, ls, hr, -, he⟩ <;>
        rw [he]
      · exact h.other rfl (decide_eq_false (not_not.mpr (mem_refusals hr)))
      · refine h.first (of_refuseReceive hr).2.2.2 rfl (decide_eq_true ?_)
        exact not_mem_refusals hr (congrArg (fun x => x.2.2) he)
      · exact h.first (of_refuseReceive hr).2.2.2 rfl rfl
  · refine h.other ?_ (Change.attempts_of_ne (not_exists.mp hr) _ _ _)
    rcases (deed_of_perform hc).receiver_cases with ⟨hg, -⟩ | ⟨es, rfl, -⟩ | ⟨rid, ssrc, -, hg⟩ | ⟨-, -, hg⟩
    · rw [hg]
    · exact absurd ⟨es, rfl⟩ hr
    · rw [hg]
      exact attempted_bind _ _ rid ssrc
    · rw [hg]
      exact attempted_stop _ _

theorem remembers_invariant : Invariant fun s past => s.hub.receiver.Remembers past where
  move _ _ _ _ h hm := by
    have hr := (Hub.move_of_move? (Hub.of_mover? hm).2).framed.receiver
    exact h.other (congrArg Receiver.attempted hr) rfl
  clock _ _ _ h := h
  command _ _ _ h hc := remembers_perform h hc
  shown _ _ h := h

/-- What has been shown after a step is all there is to show. -/
theorem markShown_after (hs : s.markShown = s) (cs : List Command) : (s.after cs).markShown = s.after cs := by
  induction cs generalizing s with
  | nil => exact hs
  | cons c cs ih => exact ih (markShown_markShown _)

/-! ### The next call -/

/-- Encodings that are refused when all tasks wait and everything is shown change nothing. -/
theorem step_receive_of_refused (hq : s.hub.step? = none) (hm : s.markShown = s) (hh : s.hub.held = true) {e : Error}
    (hr : s.hub.receiver.refuseReceive es = some e) :
    (s.step (.receiver (.receive es))).1 = s ∧ (s.step (.receiver (.receive es))).2.reply = .failed e := by
  have hp : s.perform (.receiver (.receive es)) = (s, .failed e) := by
    rw [perform_receive hh, receive_of_refused hr]
  refine ⟨?_, congrArg Prod.snd hp⟩
  rw [step_fst, hp, (Hub.settle_of_quiet hq).1]
  exact hm

/-- What comes of the next call to receive. -/
theorem receives_of_remembers (hq : s.hub.step? = none) (hm : s.markShown = s) (hs : s.hub.receiver.Sound)
    (h : s.hub.receiver.Remembers past) (hh : s.hub.held = true) (es : List Encoding) : s.Receives past es := by
  have hp := perform_receive hh es
  have hn := s.hub.transport.noted_receive s.hub.receiver es
  have hg : (s.perform (.receiver (.receive es))).1.hub.receiver = (s.hub.receiver.receive s.hub.transport es).1
      ∧ (s.perform (.receiver (.receive es))).1.hub.transport
        = (s.hub.receiver.receive s.hub.transport es).2.1 := by
    rw [hp]
    unfold Session.receive
    rcases s.hub.receiver.receive s.hub.transport es with ⟨r, u, e | ls⟩ <;> exact ⟨rfl, rfl⟩
  refine ⟨fun e ht => ?_, fun hnone => ?_, fun ch => ?_, fun v hv => ?_⟩
  · have hr := (h.refuseReceive_eq_some e).mpr ht
    obtain ⟨he, hreply⟩ := step_receive_of_refused hq hm hh hr
    exact ⟨he, hreply, openings_of_refused hr⟩
  · have hr := h.refuseReceive_eq_none.mpr hnone
    have ht := receive_tries (t := s.hub.transport) hr
    refine ⟨_, ht, ?_, (congrArg Prod.snd hp).trans (receive_of_tried hh hr)⟩
    exact ht.ok_iff_plan (f := fun ch ssrc => (s.hub.transport.openStream ch ssrc).2) hn.result
  · rw [step_fst]
    show ((s.perform _).1.hub.settle.transport.channel ch).opened = _
    rw [Hub.opened_settle, hg.2]
    exact hn.opened ch
  · have hrec : (s.step (.receiver (.receive es))).1.hub.receiver = (s.hub.receiver.receive s.hub.transport es).1 :=
      (Hub.framed_settle _).receiver.trans hg.1
    have hv : (s.receive es).2 = .track v := (congrArg Prod.snd hp).symm.trans hv
    have hsound := sound_receive hs s.hub.transport es
    unfold Session.receive at hv
    rw [hrec]
    rcases s.hub.receiver.receive_cases s.hub.transport es with ⟨e, -, he⟩ | ⟨u, e, -, he⟩ | ⟨u, ls, -, ho, he⟩ <;>
      rw [he] at hv hsound ⊢
    · cases hv
    · cases hv
    · exact hsound.tracks ho

/-- In every state that a session comes to, encodings are turned away for the first reason that applies, and then
nothing changes; or else their streams are tried in order, and there is a track if each of them can be opened. That
there is a track happens at most once. -/
theorem receives_once (settings : Settings) (kind : Kind) (cs : List Command) :
    ((new settings kind).after cs).ReceivesOnce ((new settings kind).history cs) := by
  have h := @Invariant.after _ remembers_invariant cs (new settings kind) [] ⟨by simp [new, Hub.new], by simp⟩
  have hq : ((new settings kind).after cs).hub.step? = none := step?_after rfl cs
  have hm : ((new settings kind).after cs).markShown = (new settings kind).after cs := markShown_after rfl cs
  have hs := (accounted_after settings kind cs).sound
  exact ⟨fun hh es => receives_of_remembers hq hm hs h hh es, Nat.le_trans h.once (Bool.toNat_le _)⟩

/-- A stream cannot be opened, and no further encodings are received. -/
theorem receives_once_failed :
    let s := (new {} .video).after [.transport (.refuseOpen .control 2), .receiver (.receive [⟨"q", 1⟩, ⟨"h", 2⟩])]
    s.hub.held = true ∧ TurnedAway ((new {} .video).history
        [.transport (.refuseOpen .control 2), .receiver (.receive [⟨"q", 1⟩, ⟨"h", 2⟩])])
        s.hub.receiver.phase [⟨"f", 3⟩] .alreadyReceived
      ∧ s.ReceivesOnce ((new {} .video).history
        [.transport (.refuseOpen .control 2), .receiver (.receive [⟨"q", 1⟩, ⟨"h", 2⟩])]) :=
  ⟨by decide +kernel, .alreadyReceived (by decide) (by decide) (by decide +kernel) (by decide +kernel),
    receives_once {} .video _⟩

end Session

end MediaRelay
