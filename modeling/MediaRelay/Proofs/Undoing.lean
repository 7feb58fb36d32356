import MediaRelay.Proofs.Reception
import Mathlib.Logic.Function.Iterate

/-!
# Streams that are opened in vain

When a stream cannot be opened, the receiver closes those that it has opened for the same encodings.

- `FirstRefused` says which stream is the first that cannot be opened, and which were opened before it; there is such
  a stream if any stream of the encodings cannot be opened (`exists_firstRefused`);
- the receiver tries the streams up to that one (`FirstRefused.openings`) and closes again those it has opened, each
  of them once and control first (`FirstRefused.undone`);
- what that does to the streams themselves is `FirstRefused.stream`: one attempt to close each that was opened, and
  nothing to any other.
-/

namespace MediaRelay

open Transport Receiver

/-! ## The first stream that cannot be opened -/

/-- Encodings up to the first that has a stream that cannot be opened, that stream, and what was opened before. -/
structure FirstRefused (t : QueueTransport) (es : List Encoding) (opened : List (Channel × Ssrc)) (ch : Channel)
    (ssrc : Ssrc) : Prop where
  order : ∃ rest, toOpen es = opened ++ (ch, ssrc) :: rest
  opens : ∀ x ∈ opened, x.2 ∉ (t.channel x.1).refusesOpen
  refuses : ssrc ∈ (t.channel ch).refusesOpen

/-- The streams of the encoding with the stream that cannot be opened that come before it. -/
def half (ssrc : Ssrc) : Channel → List (Channel × Ssrc)
  | .media => []
  | .control => [(.media, ssrc)]

/-- The streams of encodings in the order in which they are closed again: control first. -/
def toUndo (es : List Encoding) : List (Channel × Ssrc) :=
  (es.filter fun e => e.ssrc ≠ 0).flatMap fun e => [(.control, e.ssrc), (.media, e.ssrc)]

theorem toOpen_cons_of_zero {e : Encoding} (he : e.ssrc = 0) (es : List Encoding) : toOpen (e :: es) = toOpen es := by
  simp [toOpen, he]

theorem toOpen_cons_of_ne {e : Encoding} (he : e.ssrc ≠ 0) (es : List Encoding) :
    toOpen (e :: es) = (.media, e.ssrc) :: (.control, e.ssrc) :: toOpen es := by
  simp [toOpen, he]

theorem toUndo_cons_of_zero {e : Encoding} (he : e.ssrc = 0) (es : List Encoding) : toUndo (e :: es) = toUndo es := by
  simp [toUndo, he]

theorem toUndo_cons_of_ne {e : Encoding} (he : e.ssrc ≠ 0) (es : List Encoding) :
    toUndo (e :: es) = (.control, e.ssrc) :: (.media, e.ssrc) :: toUndo es := by
  simp [toUndo, he]

theorem toOpen_append (es es' : List Encoding) : toOpen (es ++ es') = toOpen es ++ toOpen es' := by
  simp [toOpen]

/-- The streams that are closed again are those that were opened. -/
theorem toUndo_perm (es : List Encoding) : (toUndo es).Perm (toOpen es) := by
  induction es with
  | nil => exact .refl _
  | cons e es ih =>
    by_cases he : e.ssrc = 0
    · rw [toUndo_cons_of_zero he, toOpen_cons_of_zero he]
      exact ih
    · rw [toUndo_cons_of_ne he, toOpen_cons_of_ne he]
      exact (ih.cons _ |>.cons _).trans (.swap _ _ _)

/-- Of each encoding both streams are closed again, control first. -/
theorem controlFirst_toUndo {es : List Encoding} {ssrc : Ssrc} (h : (.control, ssrc) ∈ toOpen es) :
    [(.control, ssrc), (.media, ssrc)].Sublist (toUndo es) := by
  induction es with
  | nil => cases h
  | cons e es ih =>
    by_cases he : e.ssrc = 0
    · rw [toOpen_cons_of_zero he] at h
      rw [toUndo_cons_of_zero he]
      exact ih h
    · rw [toOpen_cons_of_ne he] at h
      rw [toUndo_cons_of_ne he]
      rcases List.mem_cons.mp h with heq | h
      · cases heq
      · rcases List.mem_cons.mp h with heq | h
        · cases heq
          exact (List.nil_sublist _).cons_cons _ |>.cons_cons _
        · exact (ih h).cons _ |>.cons _

/-- No stream is needed twice if no SSRC is there twice. -/
theorem nodup_toOpen {es : List Encoding} (hd : ((es.map Encoding.ssrc).filter (· ≠ 0)).Nodup) : (toOpen es).Nodup := by
  have mem_toOpen : ∀ {es : List Encoding} {x : Channel × Ssrc}, x ∈ toOpen es →
      x.2 ∈ (es.map Encoding.ssrc).filter (· ≠ 0) := by
    intro es x hx
    obtain ⟨e, he, hx⟩ := List.mem_flatMap.mp hx
    obtain ⟨he, hz⟩ := List.mem_filter.mp he
    have hs : x.2 = e.ssrc := by rcases List.mem_pair.mp hx with rfl | rfl <;> rfl
    exact List.mem_filter.mpr ⟨hs ▸ List.mem_map_of_mem he, hs ▸ hz⟩
  induction es with
  | nil => exact List.nodup_nil
  | cons e es ih =>
    rw [List.map_cons, List.filter_cons] at hd
    by_cases he : e.ssrc = 0
    · rw [toOpen_cons_of_zero he]
      exact ih (by simpa [he] using hd)
    · rw [if_pos (by simpa using he)] at hd
      obtain ⟨hn, hd⟩ := List.nodup_cons.mp hd
      rw [toOpen_cons_of_ne he]
      refine List.nodup_cons.mpr ⟨fun h => ?_, List.nodup_cons.mpr ⟨fun h => hn (mem_toOpen h), ih hd⟩⟩
      rcases List.mem_cons.mp h with h | h
      · cases h
      · exact hn (mem_toOpen h)

/-- The encodings before the first that has a stream that cannot be opened, and that one. -/
structure Splits (t : QueueTransport) (es before : List Encoding) (e : Encoding) (ch : Channel) : Prop where
  order : ∃ rest, es = before ++ e :: rest
  known : e.ssrc ≠ 0
  opens : ∀ x ∈ toOpen before ++ half e.ssrc ch, x.2 ∉ (t.channel x.1).refusesOpen
  refuses : e.ssrc ∈ (t.channel ch).refusesOpen

/-- If some stream of encodings cannot be opened, there is a first encoding that has one. -/
theorem exists_splits {t : QueueTransport} {es : List Encoding}
    (h : ∃ x ∈ toOpen es, x.2 ∈ (t.channel x.1).refusesOpen) : ∃ before e ch, Splits t es before e ch := by
  induction es with
  | nil =>
    obtain ⟨x, hx, -⟩ := h
    cases hx
  | cons f es ih =>
    by_cases hf : f.ssrc = 0
    · rw [toOpen_cons_of_zero hf] at h
      obtain ⟨before, e, ch, ⟨rest, rfl⟩, hk, ho, hr⟩ := ih h
      exact ⟨f :: before, e, ch, ⟨rest, rfl⟩, hk, by rwa [toOpen_cons_of_zero hf], hr⟩
    · by_cases hm : f.ssrc ∈ (t.channel .media).refusesOpen
      · exact ⟨[], f, .media, ⟨es, rfl⟩, hf, by simp [toOpen, half], hm⟩
      · by_cases hc : f.ssrc ∈ (t.channel .control).refusesOpen
        · exact ⟨[], f, .control, ⟨es, rfl⟩, hf, by simpa [toOpen, half] using hm, hc⟩
        · have h' : ∃ x ∈ toOpen es, x.2 ∈ (t.channel x.1).refusesOpen := by
            rw [toOpen_cons_of_ne hf] at h
            simpa [hm, hc] using h
          obtain ⟨before, e, ch, ⟨rest, rfl⟩, hk, ho, hr⟩ := ih h'
          refine ⟨f :: before, e, ch, ⟨rest, rfl⟩, hk, ?_, hr⟩
          rw [toOpen_cons_of_ne hf]
          simpa [hm, hc] using ho

theorem Splits.firstRefused {t : QueueTransport} {es before : List Encoding} {e : Encoding} {ch : Channel}
    (h : Splits t es before e ch) : FirstRefused t es (toOpen before ++ half e.ssrc ch) ch e.ssrc where
  order := by
    obtain ⟨rest, rfl⟩ := h.order
    rw [toOpen_append, toOpen_cons_of_ne h.known]
    simp only [List.append_assoc, List.append_cancel_left_eq]
    cases ch with
    | media => exact ⟨(.control, e.ssrc) :: toOpen rest, rfl⟩
    | control => exact ⟨toOpen rest, rfl⟩
  opens := h.opens
  refuses := h.refuses

/-- If some stream of encodings cannot be opened, there is a first one. -/
theorem exists_firstRefused {t : QueueTransport} {es : List Encoding}
    (h : ∃ x ∈ toOpen es, x.2 ∈ (t.channel x.1).refusesOpen) : ∃ opened ch ssrc, FirstRefused t es opened ch ssrc := by
  obtain ⟨before, e, ch, hs⟩ := exists_splits h
  exact ⟨_, ch, e.ssrc, hs.firstRefused⟩

/-! ## What is tried -/

/-- If what comes of opening a stream does not depend on what was opened before, the streams are tried up to the first
that cannot be opened. -/
theorem Tries.to_first_failure {σ : Type} {f : Channel → Ssrc → Except Error σ} {opened rest : List (Channel × Ssrc)}
    {ch : Channel} {ssrc : Ssrc} {e : Error} {log : List (Opening σ)} {r : Except Error Unit}
    (h : Tries (opened ++ (ch, ssrc) :: rest) log r) (hf : ∀ o ∈ log, o.result = f o.channel o.ssrc)
    (ho : ∀ x ∈ opened, (f x.1 x.2).isOk = true) (he : f ch ssrc = .error e) :
    log.map Opening.target = opened ++ [(ch, ssrc)] ∧ r = .error e := by
  induction opened generalizing log with
  | nil =>
    cases h with
    | failed =>
      have := (hf _ List.mem_cons_self).trans he
      cases this
      exact ⟨rfl, rfl⟩
    | opened =>
      have := (hf _ List.mem_cons_self).trans he
      cases this
  | cons x opened ih =>
    have hx := ho x List.mem_cons_self
    cases h with
    | failed =>
      rw [← hf _ List.mem_cons_self] at hx
      cases hx
    | opened _ _ _ h =>
      obtain ⟨hl, hr⟩ := ih h (fun o ho => hf o (List.mem_cons_of_mem _ ho))
        fun y hy => ho y (List.mem_cons_of_mem _ hy)
      exact ⟨congrArg (_ :: ·) hl, hr⟩

namespace FirstRefused

variable {t : QueueTransport} {es : List Encoding} {opened : List (Channel × Ssrc)} {ch : Channel} {ssrc : Ssrc}
  {r : Receiver Ssrc}

/-- No stream is opened twice if no SSRC is there twice. -/
theorem nodup (h : FirstRefused t es opened ch ssrc) (hd : ((es.map Encoding.ssrc).filter (· ≠ 0)).Nodup) :
    opened.Nodup := by
  obtain ⟨rest, ho⟩ := h.order
  have hn := nodup_toOpen hd
  rw [ho] at hn
  exact hn.of_append_left

/-- A receiver tries the streams up to the first that cannot be opened, whose error is the result. -/
theorem openings (h : FirstRefused t es opened ch ssrc) (hr : r.refuseReceive es = none) :
    (r.openings t es).map Opening.target = opened ++ [(ch, ssrc)]
      ∧ (r.receive t es).2.2 = .error (QueueTransport.openRefusal ch ssrc) := by
  obtain ⟨rest, hes⟩ := h.order
  have ht := receive_tries (t := t) hr
  rw [hes] at ht
  obtain ⟨hl, he⟩ := ht.to_first_failure (f := fun ch ssrc => (t.openStream ch ssrc).2)
    (t.noted_receive r es).result (fun x hx => by rw [t.openStream_snd, if_neg (h.opens x hx)]; rfl)
    ((t.openStream_snd ch ssrc).trans (if_pos h.refuses))
  refine ⟨hl, ?_⟩
  cases hx : (r.receive t es).2.2 with
  | ok ls => rw [hx] at he; cases he
  | error e => rw [hx] at he; cases he; rfl

/-- The streams that were opened are noted, and no others. -/
theorem noted (h : FirstRefused t es opened ch ssrc) (hr : r.refuseReceive es = none) (ch' : Channel) :
    ((r.receive t es).2.1.channel ch').opened
      = (t.channel ch').opened ++ (opened.filter fun x => x.1 = ch').map Prod.snd := by
  have hn := t.noted_receive r es
  refine (hn.opened ch').trans (congrArg ((t.channel ch').opened ++ ·) ?_)
  obtain ⟨hl, -⟩ := h.openings hr
  obtain ⟨log, o, he, hopened, ho⟩ := List.map_eq_append_iff.mp hl
  obtain ⟨o, rfl, ho⟩ := List.map_eq_singleton_iff.mp ho
  have hres := hn.result
  dsimp only at hres ⊢
  rw [he] at hres ⊢
  cases ho
  have hlast : o.result.isOk = false := by
    rw [hres o (by simp), QueueTransport.openStream_snd, if_pos h.refuses]
    rfl
  have hfirst : ∀ x ∈ log, x.result.isOk = true := fun x hx => by
    rw [hres x (List.mem_append_left _ hx), QueueTransport.openStream_snd]
    exact congrArg Except.isOk (if_neg (h.opens x.target (hopened ▸ List.mem_map_of_mem hx)))
  rw [QueueTransport.openedOf_append, ← hopened, List.filter_map, List.map_map]
  have hnil : QueueTransport.openedOf ch' [o] = [] := by simp [QueueTransport.openedOf, hlast]
  rw [hnil, List.append_nil]
  refine congrArg (List.map Opening.ssrc) (List.filter_congr fun x hx => ?_)
  simp only [hfirst x hx, and_true]
  exact decide_eq_decide.mpr Iff.rfl

end FirstRefused

/-! ## What is closed again -/

/-- The streams of layers in the order in which they are given up. -/
def abandoned {σ : Type} (ls : List (Layer σ)) : List (Channel × σ) :=
  ls.flatMap fun l => match l.binding with
    | .bound m c _ => [(.control, c), (.media, m)]
    | _ => []

theorem targets_abandon {τ σ : Type} [Transport τ σ] (w : Logged τ σ) (ls : List (Layer σ)) :
    (abandon w ls).log.map Closing.target = w.log.map Closing.target ++ abandoned ls := by
  induction ls generalizing w with
  | nil => exact (List.append_nil _).symm
  | cons l ls ih =>
    obtain ⟨rid, ssrc, b⟩ := l
    cases b with
    | unbound | released => exact ih w
    | bound m c cc =>
      refine (ih _).trans ?_
      obtain ⟨t, log⟩ := w
      simp only [closeStream_logged, List.map_append, List.append_assoc]
      rfl

namespace QueueTransport

/-- A logged transport whose streams have had the close attempts of the log, and of which the same streams refuse to be
opened. -/
structure Undergone (t : QueueTransport) (w : Logged QueueTransport Ssrc) : Prop where
  refusesOpen : ∀ ch, (w.transport.channel ch).refusesOpen = (t.channel ch).refusesOpen
  stream : ∀ ch ssrc, w.transport.stream ch ssrc
    = (fun s : QueueStream => (s.close (closeRefusal ssrc)).1)^[(w.log.map Closing.target).count (ch, ssrc)]
      (t.stream ch ssrc)

variable {t : QueueTransport} {w : Logged QueueTransport Ssrc}

theorem Undergone.openStream (h : t.Undergone w) (ch : Channel) (ssrc : Ssrc) :
    t.Undergone (Transport.openStream w ch ssrc).1 where
  refusesOpen ch' := (w.transport.refusesOpen_openStream ch ssrc ch').trans (h.refusesOpen ch')
  stream ch' ssrc' := (w.transport.stream_openStream ch ssrc ch' ssrc').trans (h.stream ch' ssrc')

theorem Undergone.closeStream (h : t.Undergone w) (ch : Channel) (ssrc : Ssrc) :
    t.Undergone (Transport.closeStream w ch ssrc).1 where
  refusesOpen ch' :=
    (w.transport.refusesOpen_onStream ch ssrc (fun s => s.close (closeRefusal ssrc)) ch').trans (h.refusesOpen ch')
  stream ch' ssrc' := by
    have hl : (Transport.closeStream w ch ssrc).1.log.map Closing.target
        = w.log.map Closing.target ++ [(ch, ssrc)] := List.map_append
    rw [hl, List.count_append]
    by_cases hx : ch' = ch ∧ ssrc' = ssrc
    · obtain ⟨rfl, rfl⟩ := hx
      rw [List.count_singleton_self, Function.iterate_succ_apply', ← h.stream ch' ssrc']
      exact w.transport.stream_onStream_self ch' ssrc' fun s => s.close (closeRefusal ssrc')
    · have hne : (ch, ssrc) ≠ (ch', ssrc') := fun e => hx ⟨(Prod.mk.inj e).1.symm, (Prod.mk.inj e).2.symm⟩
      rw [List.count_singleton, if_neg (by simpa using hne), Nat.add_zero, ← h.stream ch' ssrc']
      exact w.transport.stream_onStream_of_ne ch ssrc (fun s => s.close (closeRefusal ssrc)) hx

/-- Whatever a receiver opens and closes, its streams have had the close attempts that are logged. -/
theorem alike_undergone (t : QueueTransport) :
    Alike fun w w' : Logged QueueTransport Ssrc => w = w' ∧ t.Undergone w :=
  .of_keeps (fun _ ch ssrc h => h.openStream ch ssrc) fun _ ch ssrc h => h.closeStream ch ssrc

theorem undergone_new (t : QueueTransport) : t.Undergone ⟨t, []⟩ :=
  ⟨fun _ => rfl, fun _ _ => rfl⟩

/-- Both streams of an SSRC can be opened. -/
theorem Undergone.openPair_ok (h : t.Undergone w) {ssrc : Ssrc} (hm : ssrc ∉ (t.channel .media).refusesOpen)
    (hc : ssrc ∉ (t.channel .control).refusesOpen) :
    ∃ v, openPair w ssrc = (v, .ok (ssrc, ssrc)) ∧ t.Undergone v ∧ v.log = w.log := by
  have hm' : (Transport.openStream w .media ssrc).2 = .ok ssrc :=
    (w.transport.openStream_snd .media ssrc).trans (if_neg (by rwa [h.refusesOpen]))
  have h₁ := h.openStream .media ssrc
  have hc' : (Transport.openStream (Transport.openStream w .media ssrc).1 .control ssrc).2 = .ok ssrc :=
    (QueueTransport.openStream_snd _ .control ssrc).trans (if_neg (by rwa [h₁.refusesOpen]))
  refine ⟨_, ?_, h₁.openStream .control ssrc, rfl⟩
  unfold openPair
  rw [show Transport.openStream w .media ssrc = ((Transport.openStream w .media ssrc).1, .ok ssrc) from
    Prod.ext rfl hm']
  dsimp only
  rw [show Transport.openStream (Transport.openStream w .media ssrc).1 .control ssrc
      = ((Transport.openStream (Transport.openStream w .media ssrc).1 .control ssrc).1, .ok ssrc) from
    Prod.ext rfl hc']

/-- One of the streams of an SSRC cannot be opened; if the other could, it is closed again. -/
theorem Undergone.openPair_failed (h : t.Undergone w) {ssrc : Ssrc} {ch : Channel}
    (ho : ∀ x ∈ half ssrc ch, x.2 ∉ (t.channel x.1).refusesOpen) (hr : ssrc ∈ (t.channel ch).refusesOpen) :
    ∃ v, openPair w ssrc = (v, .error (openRefusal ch ssrc))
      ∧ v.log.map Closing.target = w.log.map Closing.target ++ half ssrc ch := by
  have hm := w.transport.openStream_snd .media ssrc
  have h₁ := h.openStream .media ssrc
  unfold openPair
  cases ch with
  | media =>
    rw [if_pos (by rwa [h.refusesOpen])] at hm
    rw [show Transport.openStream w .media ssrc
      = ((Transport.openStream w .media ssrc).1, .error (openRefusal .media ssrc)) from Prod.ext rfl hm]
    exact ⟨_, rfl, (List.append_nil _).symm⟩
  | control =>
    rw [if_neg (by rw [h.refusesOpen]; exact ho _ (List.mem_singleton_self _))] at hm
    have hc : (Transport.openStream (Transport.openStream w .media ssrc).1 .control ssrc).2
        = .error (openRefusal .control ssrc) :=
      (QueueTransport.openStream_snd _ .control ssrc).trans (if_pos (by rwa [h₁.refusesOpen]))
    rw [show Transport.openStream w .media ssrc = ((Transport.openStream w .media ssrc).1, .ok ssrc) from
      Prod.ext rfl hm]
    dsimp only
    rw [show Transport.openStream (Transport.openStream w .media ssrc).1 .control ssrc
        = ((Transport.openStream (Transport.openStream w .media ssrc).1 .control ssrc).1,
          .error (openRefusal .control ssrc)) from Prod.ext rfl hc]
    exact ⟨_, rfl, List.map_append⟩

end QueueTransport

/-- What is closed again when the streams of encodings are opened in vain, after those of `done`. -/
theorem Splits.targets_openLayers {t : QueueTransport} {es before : List Encoding} {e : Encoding} {ch : Channel}
    (h : Splits t es before e ch) {w : Logged QueueTransport Ssrc} (hw : t.Undergone w) (done : List (Layer Ssrc)) :
    (openLayers w done es).1.log.map Closing.target
      = w.log.map Closing.target ++ half e.ssrc ch ++ abandoned done ++ toUndo before := by
  obtain ⟨⟨rest, rfl⟩, hk, ho, hr⟩ := h
  induction before generalizing w done with
  | nil =>
    obtain ⟨v, he, hl⟩ := hw.openPair_failed ho hr
    simp only [List.nil_append, openLayers, if_neg hk, he, targets_abandon, hl]
    exact (List.append_nil _).symm
  | cons f before ih =>
    by_cases hf : f.ssrc = 0
    · rw [toOpen_cons_of_zero hf] at ho
      rw [toUndo_cons_of_zero hf, List.cons_append, openLayers, if_pos hf, ih hw _ ho]
      simp [abandoned]
    · rw [toOpen_cons_of_ne hf] at ho
      have ho : ∀ x ∈ (.media, f.ssrc) :: (.control, f.ssrc) :: (toOpen before ++ half e.ssrc ch),
          x.2 ∉ (t.channel x.1).refusesOpen := ho
      obtain ⟨hm, ho⟩ := List.forall_mem_cons.mp ho
      obtain ⟨hc, ho⟩ := List.forall_mem_cons.mp ho
      obtain ⟨v, he, hv, hl⟩ := hw.openPair_ok hm hc
      rw [toUndo_cons_of_ne hf, List.cons_append, openLayers, if_neg hf, he]
      dsimp only
      rw [ih hv _ ho, hl]
      simp [abandoned]

namespace FirstRefused

variable {t : QueueTransport} {es : List Encoding} {opened : List (Channel × Ssrc)} {ch : Channel} {ssrc : Ssrc}

/-- Two streams that are both the first that cannot be opened are the same. -/
theorem unique {opened' : List (Channel × Ssrc)} {ch' : Channel} {ssrc' : Ssrc} (h : FirstRefused t es opened ch ssrc)
    (h' : FirstRefused t es opened' ch' ssrc') : opened = opened' ∧ ch = ch' ∧ ssrc = ssrc' := by
  obtain ⟨⟨rest, he⟩, ho, hr⟩ := h
  obtain ⟨⟨rest', he'⟩, ho', hr'⟩ := h'
  rw [he] at he'
  clear he
  induction opened generalizing opened' with
  | nil =>
    cases opened' with
    | nil =>
      cases he'
      exact ⟨rfl, rfl, rfl⟩
    | cons x opened' =>
      cases he'
      exact absurd hr (ho' _ List.mem_cons_self)
  | cons x opened ih =>
    cases opened' with
    | nil =>
      cases he'
      exact absurd hr' (ho _ List.mem_cons_self)
    | cons y opened' =>
      obtain ⟨rfl, htail⟩ := List.cons_eq_cons.mp he'
      obtain ⟨rfl, hs⟩ := ih (fun z hz => ho z (List.mem_cons_of_mem _ hz))
        (fun z hz => ho' z (List.mem_cons_of_mem _ hz)) htail
      exact ⟨rfl, hs⟩

/-- What a receiver closes again is what it has opened, each stream as often as it was opened, and of a layer whose
streams are both open the control stream before the media stream. -/
theorem undone (h : FirstRefused t es opened ch ssrc) {r : Receiver Ssrc} (hr : r.refuseReceive es = none) :
    ((r.closingsOfReceive t es).map Closing.target).Perm opened
      ∧ ∀ x, (.control, x) ∈ opened →
        [(.control, x), (.media, x)].Sublist ((r.closingsOfReceive t es).map Closing.target) := by
  obtain ⟨rest, hes⟩ := h.order
  obtain ⟨before, e, ch', hs⟩ := exists_splits ⟨(ch, ssrc), by rw [hes]; simp, h.refuses⟩
  obtain ⟨rfl, rfl, -⟩ := h.unique hs.firstRefused
  have hl : (r.closingsOfReceive t es).map Closing.target = half e.ssrc ch ++ toUndo before := by
    have ht := hs.targets_openLayers t.undergone_new []
    unfold closingsOfReceive Receiver.receive
    rw [hr]
    dsimp only
    generalize openLayers (⟨t, []⟩ : Logged QueueTransport Ssrc) [] es = x at ht ⊢
    rw [show abandoned ([] : List (Layer Ssrc)) = [] from rfl, List.append_nil, List.map_nil, List.nil_append] at ht
    obtain ⟨u, err | ls⟩ := x <;> exact ht
  rw [hl]
  constructor
  · exact ((toUndo_perm before).append_left _).trans List.perm_append_comm
  · intro x hx
    refine (controlFirst_toUndo ?_).trans (List.sublist_append_right _ _)
    rcases List.mem_append.mp hx with hx | hx
    · exact hx
    · cases ch with
      | media => cases hx
      | control =>
        rcases List.mem_singleton.mp hx with hx
        cases hx

/-- Each stream that was opened gets one attempt to close it, and no other stream is touched. -/
theorem stream (h : FirstRefused t es opened ch ssrc) {r : Receiver Ssrc} (hr : r.refuseReceive es = none)
    (hd : opened.Nodup) (ch' : Channel) (ssrc' : Ssrc) :
    (r.receive t es).2.1.stream ch' ssrc' = if (ch', ssrc') ∈ opened
      then ((t.stream ch' ssrc').close (QueueTransport.closeRefusal ssrc')).1 else t.stream ch' ssrc' := by
  have hu := ((t.alike_undergone).receive ⟨rfl, t.undergone_new⟩ r es).2.fst.2
  obtain ⟨added, ha⟩ := receive_logged r t es
  have hx : (r.receive (⟨t, []⟩ : Logged QueueTransport Ssrc) es).2.1.transport = (r.receive t es).2.1 := by
    rw [ha]
  have hc : (r.receive (⟨t, []⟩ : Logged QueueTransport Ssrc) es).2.1.log = r.closingsOfReceive t es := rfl
  rw [← hx, hu.stream, hc, (h.undone hr).1.count_eq, hd.count]
  split <;> rfl

end FirstRefused

end MediaRelay
