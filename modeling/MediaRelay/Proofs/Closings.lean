import MediaRelay.Receiver
import Mathlib.Data.List.Forall2

/-!
# What a receiver closes

- `Logged` is a transport that writes down every attempt to close one of its streams; the receiver does the same
  with it as with the transport alone (`receive_logged`, `bind_logged`, `stop_logged`);
- `toClose` lists the streams that a receiver still has to close, `Sweep` says what it is to close streams in order
  up to the first failure, and `stop_sweep` that a stop does so;
- `Layer.Closed` says how far a layer has got, and `stop_closed` what a stop does to it.
-/

namespace MediaRelay

/-- An attempt to close a stream, and what it came to. -/
structure Closing (σ : Type) where
  channel : Channel
  stream : σ
  result : Except Error Unit

/-- The stream that was to be closed. -/
def Closing.target {σ : Type} (c : Closing σ) : Channel × σ :=
  (c.channel, c.stream)

/-- A transport, and the attempts to close its streams since the log was begun. -/
structure Logged (τ σ : Type) where
  transport : τ
  log : List (Closing σ) := []

variable {τ σ : Type}

instance [Transport τ σ] : Transport (Logged τ σ) σ where
  openStream t ch ssrc :=
    let (u, r) := Transport.openStream t.transport ch ssrc
    ({ t with transport := u }, r)
  closeStream t ch s :=
    let (u, r) := Transport.closeStream t.transport ch s
    (⟨u, t.log ++ [⟨ch, s, r⟩]⟩, r)
  readStream t ch s n :=
    let (u, r) := Transport.readStream t.transport ch s n
    ({ t with transport := u }, r)

/-! ## Logging changes nothing -/

/-- An operation does with a logged transport what it does with the transport alone, and adds to the log something
that does not depend on what is there. -/
def Faithful {α : Type} (f : Logged τ σ → Logged τ σ × α) (g : τ → τ × α) : Prop :=
  ∀ t, ∃ added, ∀ log, f ⟨t, log⟩ = (⟨(g t).1, log ++ added⟩, (g t).2)

section Logging

open Transport Receiver

variable [Transport τ σ]

theorem openStream_logged (t : τ) (log : List (Closing σ)) (ch : Channel) (ssrc : Ssrc) :
    openStream (⟨t, log⟩ : Logged τ σ) ch ssrc = (⟨(openStream t ch ssrc).1, log⟩, (openStream t ch ssrc).2) := rfl

theorem closeStream_logged (t : τ) (log : List (Closing σ)) (ch : Channel) (s : σ) :
    closeStream (⟨t, log⟩ : Logged τ σ) ch s
      = (⟨(closeStream t ch s).1, log ++ [⟨ch, s, (closeStream t ch s).2⟩]⟩, (closeStream t ch s).2) := rfl

theorem openPair_logged (ssrc : Ssrc) :
    Faithful (fun t : Logged τ σ => openPair t ssrc) fun t : τ => openPair t ssrc := by
  intro t
  simp only [openPair, openStream_logged]
  rcases openStream t .media ssrc with ⟨u, e | m⟩
  · exact ⟨[], by simp⟩
  · simp only [openStream_logged]
    rcases openStream u .control ssrc with ⟨v, e | c⟩
    · exact ⟨[⟨.media, m, (closeStream v .media m).2⟩], fun _ => by simp only [closeStream_logged]⟩
    · exact ⟨[], by simp⟩

/-- While a pair is opened only a media stream that was just opened is closed. -/
theorem mem_log_openPair {t : τ} {ssrc : Ssrc} {c : Closing σ} :
    c ∈ (openPair (⟨t, []⟩ : Logged τ σ) ssrc).1.log → (openStream t .media ssrc).2 = .ok c.stream := by
  simp only [openPair, openStream_logged]
  rcases openStream t .media ssrc with ⟨u, e | m⟩
  · intro hc
    cases hc
  · simp only [openStream_logged]
    rcases openStream u .control ssrc with ⟨v, e | c'⟩
    · simp only [closeStream_logged, List.nil_append, List.mem_singleton]
      rintro rfl
      rfl
    · intro hc
      cases hc

theorem abandon_logged (ls : List (Layer σ)) :
    ∀ t : τ, ∃ added, ∀ log, abandon (⟨t, log⟩ : Logged τ σ) ls = ⟨abandon t ls, log ++ added⟩ := by
  induction ls with
  | nil => intro t; exact ⟨[], fun _ => by simp [abandon]⟩
  | cons l ls ih =>
    intro t
    unfold abandon
    cases l.binding with
    | unbound => exact ih t
    | released => exact ih t
    | bound m c cc =>
      obtain ⟨added, h⟩ := ih (closeStream (closeStream t .control c).1 .media m).1
      exact ⟨_, fun log => by simp only [closeStream_logged, h, List.append_assoc]; rfl⟩

theorem openLayers_logged (es : List Encoding) : ∀ done : List (Layer σ),
    Faithful (fun t : Logged τ σ => openLayers t done es) fun t : τ => openLayers t done es := by
  induction es with
  | nil => intro done t; exact ⟨[], fun _ => by simp [openLayers]⟩
  | cons e es ih =>
    intro done t
    simp only [openLayers]
    split
    · exact ih _ t
    · obtain ⟨k, hk⟩ := openPair_logged (τ := τ) (σ := σ) e.ssrc t
      simp only [hk]
      rcases openPair t e.ssrc with ⟨u, err | ⟨m, c⟩⟩
      · obtain ⟨k', hk'⟩ := abandon_logged done u
        exact ⟨k ++ k', fun log => by simp [hk']⟩
      · obtain ⟨k', hk'⟩ := ih (done ++ [⟨e.rid, e.ssrc, .bound m c false⟩]) u
        exact ⟨k ++ k', fun log => by simp [hk']⟩

theorem receive_logged (r : Receiver σ) (t : τ) (es : List Encoding) : ∃ added, ∀ log,
    r.receive (⟨t, log⟩ : Logged τ σ) es
      = ((r.receive t es).1, ⟨(r.receive t es).2.1, log ++ added⟩, (r.receive t es).2.2) := by
  unfold Receiver.receive
  split
  · exact ⟨[], fun log => by simp⟩
  · obtain ⟨k, hk⟩ := openLayers_logged (τ := τ) (σ := σ) es [] t
    simp only [hk]
    rcases openLayers t [] es with ⟨u, e | ls⟩
    · exact ⟨k, fun log => rfl⟩
    · exact ⟨k, fun log => rfl⟩

theorem bind_logged (r : Receiver σ) (t : τ) (rid : String) (ssrc : Ssrc) : ∃ added, ∀ log,
    r.bind (⟨t, log⟩ : Logged τ σ) rid ssrc
      = ((r.bind t rid ssrc).1, ⟨(r.bind t rid ssrc).2.1, log ++ added⟩, (r.bind t rid ssrc).2.2) := by
  unfold Receiver.bind
  split
  · exact ⟨[], fun log => by simp⟩
  · obtain ⟨k, hk⟩ := openPair_logged (τ := τ) (σ := σ) ssrc t
    simp only [hk]
    rcases openPair t ssrc with ⟨u, e | ⟨m, c⟩⟩
    · exact ⟨k, fun log => rfl⟩
    · exact ⟨k, fun log => rfl⟩

end Logging

/-! ## Closing in order -/

/-- The streams of a layer that are still to be closed, in the order in which that is done. -/
def Layer.toClose (l : Layer σ) : List (Channel × σ) :=
  match l.binding with
  | .bound m c controlClosed => (if controlClosed then [] else [(.control, c)]) ++ [(.media, m)]
  | _ => []

/-- The streams of layers that are still to be closed, in the order in which that is done. -/
def toClose (ls : List (Layer σ)) : List (Channel × σ) :=
  ls.flatMap Layer.toClose

/-- Closes streams in order up to the first that fails, whose error is the result: the streams that are to be closed,
the attempts, the result, and the streams that are still to be closed then. -/
inductive Sweep : List (Channel × σ) → List (Closing σ) → Except Error Unit → List (Channel × σ) → Prop
  | done : Sweep [] [] (.ok ()) []
  | failed (ch : Channel) (s : σ) (e : Error) (rest : List (Channel × σ)) :
      Sweep ((ch, s) :: rest) [⟨ch, s, .error e⟩] (.error e) ((ch, s) :: rest)
  | closed (ch : Channel) (s : σ) {rest left : List (Channel × σ)} {log : List (Closing σ)} {r : Except Error Unit}
      (h : Sweep rest log r left) : Sweep ((ch, s) :: rest) (⟨ch, s, .ok ()⟩ :: log) r left

/-- How a layer comes out of closes: as it was, with its control stream closed, or with both streams closed. -/
inductive Layer.Closed (log : List (Closing σ)) : Layer σ → Layer σ → Prop
  | kept (l : Layer σ) : Closed log l l
  | half {l : Layer σ} {m c : σ} (hb : l.binding = .bound m c false) (hc : ⟨.control, c, .ok ()⟩ ∈ log) :
      Closed log l { l with binding := .bound m c true }
  | full {l : Layer σ} {m c : σ} {cc : Bool} (hb : l.binding = .bound m c cc)
      (hc : cc = false → ⟨.control, c, .ok ()⟩ ∈ log) (hm : ⟨.media, m, .ok ()⟩ ∈ log) :
      Closed log l { l with binding := .released }

section Sweeps

variable {plan rest left : List (Channel × σ)} {log log' : List (Closing σ)} {r : Except Error Unit}

/-- Nothing is left after a sweep that succeeded. -/
theorem Sweep.left_eq_nil (h : Sweep plan log (.ok ()) left) : left = [] := by
  generalize hr : (.ok () : Except Error Unit) = r at h
  induction h with
  | done => rfl
  | failed => cases hr
  | closed _ _ _ ih => exact ih hr

/-- A sweep that succeeded, and one over more streams. -/
theorem Sweep.append (h : Sweep plan log (.ok ()) []) (h' : Sweep rest log' r left) :
    Sweep (plan ++ rest) (log ++ log') r left := by
  generalize hr : (.ok () : Except Error Unit) = q at h
  generalize hl : ([] : List (Channel × σ)) = k at h
  induction h with
  | done => exact h'
  | failed => cases hr
  | closed ch s _ ih => exact .closed ch s (ih hr hl)

/-- A sweep that failed does not come to further streams. -/
theorem Sweep.append_right {e : Error} (h : Sweep plan log (.error e) left) (rest : List (Channel × σ)) :
    Sweep (plan ++ rest) log (.error e) (left ++ rest) := by
  generalize hr : (.error e : Except Error Unit) = q at h
  induction h with
  | done => cases hr
  | failed ch s e' => exact .failed ch s e' _
  | closed ch s _ ih => exact .closed ch s (ih hr)

/-- What is attempted are the first of the streams that are to be closed. -/
theorem Sweep.prefix_plan (h : Sweep plan log r left) : log.map Closing.target <+: plan := by
  induction h with
  | done => exact List.prefix_refl _
  | failed ch s e rest => exact ⟨rest, rfl⟩
  | closed ch s _ ih => exact List.cons_prefix_cons.mpr ⟨rfl, ih⟩

/-- The streams that are to be closed are those that get closed, and those that are left. -/
theorem Sweep.plan_eq (h : Sweep plan log r left) :
    plan = (log.filter fun c => c.result.isOk).map Closing.target ++ left := by
  induction h with
  | done => rfl
  | failed ch s e rest => rfl
  | closed ch s _ ih => exact congrArg ((ch, s) :: ·) ih

/-- A sweep succeeds if all its attempts do. -/
theorem Sweep.ok_iff (h : Sweep plan log r left) : r = .ok () ↔ ∀ c ∈ log, c.result = .ok () := by
  induction h with
  | done => simp
  | failed ch s e rest => simp
  | closed ch s _ ih => simpa using ih

/-- All attempts before another one have succeeded. -/
theorem Sweep.ok_before {done rest : List (Closing σ)} {c : Closing σ} (h : Sweep plan log r left)
    (hl : log = done ++ c :: rest) {d : Closing σ} (hd : d ∈ done) : d.result = .ok () := by
  induction h generalizing done with
  | done => simp at hl
  | failed ch s e _ =>
    cases done with
    | nil => cases hd
    | cons d' done => simp at hl
  | closed ch s _ ih =>
    cases done with
    | nil => cases hd
    | cons d' done =>
      obtain ⟨hc, hrest⟩ := List.cons_eq_cons.mp hl
      rcases List.mem_cons.mp hd with rfl | hd
      · rw [← hc]
      · exact ih hrest hd

/-- What is to be closed of a layer is still to be closed later, or has been closed. -/
theorem Layer.Closed.toClose {l l' : Layer σ} (h : l.Closed log l') {x : Channel × σ} (hx : x ∈ l.toClose) :
    x ∈ l'.toClose ∨ ⟨x.1, x.2, .ok ()⟩ ∈ log := by
  cases h with
  | kept => exact .inl hx
  | half hb hc =>
    simp only [Layer.toClose, hb, Bool.false_eq_true, if_false, List.cons_append, List.nil_append, List.mem_cons,
      List.not_mem_nil, or_false] at hx
    rcases hx with rfl | rfl
    · exact .inr hc
    · exact .inl (by simp [Layer.toClose])
  | @full m c cc hb hc hm =>
    cases cc <;> simp [Layer.toClose, hb] at hx
    · rcases hx with rfl | rfl
      · exact .inr (hc rfl)
      · exact .inr hm
    · rw [hx]
      exact .inr hm

theorem Layer.Closed.mono {l l' : Layer σ} (h : l.Closed log l') (hs : ∀ c ∈ log, c ∈ log') : l.Closed log' l' := by
  cases h with
  | kept => exact .kept l
  | half hb hc => exact .half hb (hs _ hc)
  | full hb hc hm => exact .full hb (fun h => hs _ (hc h)) (hs _ hm)

theorem Layer.Closed.rid_eq {l l' : Layer σ} (h : l.Closed log l') : l'.rid = l.rid := by
  cases h <;> rfl

theorem Layer.Closed.ssrc_eq {l l' : Layer σ} (h : l.Closed log l') : l'.ssrc = l.ssrc := by
  cases h <;> rfl

theorem Layer.Closed.isReady_eq {l l' : Layer σ} (h : l.Closed log l') : l'.isReady = l.isReady := by
  cases h with
  | kept => rfl
  | half hb | full hb => simp [Layer.isReady, hb, Binding.isReady]

end Sweeps

section Stopping

open Transport Receiver

variable [Transport τ σ]

/-- Closing a layer sweeps over its streams. -/
theorem closeLayer_logged (l : Layer σ) (t : τ) : ∃ added,
    (∀ log, closeLayer (⟨t, log⟩ : Logged τ σ) l = (⟨(closeLayer t l).1, log ++ added⟩, (closeLayer t l).2))
      ∧ Sweep l.toClose added (closeLayer t l).2.2 (closeLayer t l).2.1.toClose
      ∧ l.Closed added (closeLayer t l).2.1 := by
  unfold closeLayer
  cases hb : l.binding with
  | unbound => exact ⟨[], fun _ => by simp, by simp only [Layer.toClose, hb]; exact .done, .kept l⟩
  | released => exact ⟨[], fun _ => by simp, by simp only [Layer.toClose, hb]; exact .done, .kept l⟩
  | bound m c cc =>
    cases cc with
    | true =>
      simp only [if_true, closeStream_logged, Layer.toClose, hb]
      rcases closeStream t .media m with ⟨u, e | ⟨⟩⟩
      · refine ⟨[⟨.media, m, .error e⟩], fun _ => rfl, .failed _ _ _ _, ?_⟩
        have : { l with binding := .bound m c true } = l := by rw [← hb]
        rw [this]
        exact .kept l
      · exact ⟨[⟨.media, m, .ok ()⟩], fun _ => rfl, .closed _ _ .done,
          .full hb (fun h => by cases h) List.mem_cons_self⟩
    | false =>
      simp only [Bool.false_eq_true, if_false, closeStream_logged, Layer.toClose, hb]
      rcases closeStream t .control c with ⟨u, e | ⟨⟩⟩
      · exact ⟨[⟨.control, c, .error e⟩], fun _ => rfl, by simp only [hb]; exact .failed _ _ _ _, .kept l⟩
      · dsimp only
        rcases closeStream u .media m with ⟨v, e | ⟨⟩⟩
        · exact ⟨[⟨.control, c, .ok ()⟩, ⟨.media, m, .error e⟩], fun _ => by simp,
            .closed _ _ (.failed _ _ _ _), .half hb List.mem_cons_self⟩
        · exact ⟨[⟨.control, c, .ok ()⟩, ⟨.media, m, .ok ()⟩], fun _ => by simp,
            .closed _ _ (.closed _ _ .done), .full hb (fun _ => List.mem_cons_self) (by simp)⟩

/-- Closing layers sweeps over the streams of all of them. -/
theorem closeLayers_logged (ls : List (Layer σ)) : ∀ t : τ, ∃ added,
    (∀ log, closeLayers (⟨t, log⟩ : Logged τ σ) ls = (⟨(closeLayers t ls).1, log ++ added⟩, (closeLayers t ls).2))
      ∧ Sweep (toClose ls) added (closeLayers t ls).2.2 (toClose (closeLayers t ls).2.1)
      ∧ List.Forall₂ (Layer.Closed added) ls (closeLayers t ls).2.1 := by
  induction ls with
  | nil => intro t; exact ⟨[], fun _ => by simp [closeLayers], .done, .nil⟩
  | cons l ls ih =>
    intro t
    obtain ⟨k, hk, hs, hc⟩ := closeLayer_logged l t
    simp only [closeLayers, hk]
    generalize closeLayer t l = x at hs hc
    obtain ⟨u, l', e | ⟨⟩⟩ := x
    · refine ⟨k, fun _ => rfl, ?_, .cons hc (List.forall₂_same.mpr fun l _ => .kept l)⟩
      exact hs.append_right _
    · obtain ⟨k', hk', hs', hc'⟩ := ih u
      simp only [hk']
      refine ⟨k ++ k', fun _ => by simp, ?_, ?_⟩
      · have hl : l'.toClose = [] := hs.left_eq_nil
        dsimp only at hs
        rw [hl] at hs
        simp only [toClose, List.flatMap_cons, hl, List.nil_append]
        exact hs.append hs'
      · refine .cons (hc.mono fun x hx => List.mem_append_left _ hx) (hc'.imp fun _ _ h => ?_)
        exact h.mono fun x hx => List.mem_append_right _ hx

end Stopping

/-! ## The closes of each operation -/

namespace Receiver

/-- Layers that take the place of those of a receiver without a track are forgotten. -/
theorem layers_setLayers {r : Receiver σ} {ls : List (Layer σ)} (h : r.layers = [] → ls = []) :
    (r.setLayers ls).layers = ls := by
  unfold layers setLayers at *
  cases ht : r.track with
  | none => simp [h (by simp [ht])]
  | some ls' => simp

variable [Transport τ σ]

/-- What a receiver attempts to close while it receives. -/
def closingsOfReceive (r : Receiver σ) (t : τ) (es : List Encoding) : List (Closing σ) :=
  (r.receive (⟨t, []⟩ : Logged τ σ) es).2.1.log

/-- What a receiver attempts to close while it binds a layer. -/
def closingsOfBind (r : Receiver σ) (t : τ) (rid : String) (ssrc : Ssrc) : List (Closing σ) :=
  (r.bind (⟨t, []⟩ : Logged τ σ) rid ssrc).2.1.log

/-- What a receiver attempts to close while it stops. -/
def closingsOfStop (r : Receiver σ) (t : τ) : List (Closing σ) :=
  (r.stop (⟨t, []⟩ : Logged τ σ)).2.1.log

/-- A stopped receiver does nothing when it is to stop. -/
theorem stop_of_stopped {r : Receiver σ} (h : r.phase = .stopped) (t : τ) : r.stop t = (r, t, .ok ()) := by
  rw [stop, if_pos h]

theorem closingsOfStop_of_stopped {r : Receiver σ} (h : r.phase = .stopped) (t : τ) : r.closingsOfStop t = [] := by
  rw [closingsOfStop, stop_of_stopped h]

/-- Closing the track is closing its layers; a receiver that has not received has none. -/
theorem closeTrack_eq {r : Receiver σ} (hr : r.received = r.track.isSome) (t : τ) :
    r.closeTrack t = closeLayers t r.layers := by
  unfold closeTrack
  split
  · rfl
  · next h =>
    have ht : r.layers = [] := by
      rw [hr] at h
      simpa [layers] using congrArg (Option.getD · []) (Option.not_isSome_iff_eq_none.mp h)
    rw [ht]
    rfl

/-- What stopping comes to, in terms of closing the track. -/
theorem stop_of_ne_stopped {r : Receiver σ} (h : r.phase ≠ .stopped) (t : τ) :
    r.stop t = ({ r.setLayers (r.closeTrack t).2.1 with
        closing := true, phase := if (r.closeTrack t).2.2 = .ok () then .stopped else r.phase },
      (r.closeTrack t).1, (r.closeTrack t).2.2) := by
  simp only [stop, if_neg h]
  rcases r.closeTrack t with ⟨u, ls, e | ⟨⟩⟩ <;> rfl

section Stop

variable {r : Receiver σ} (hr : r.received = r.track.isSome)

include hr

theorem layers_stop (h : r.phase ≠ .stopped) (t : τ) : (r.stop t).1.layers = (closeLayers t r.layers).2.1 := by
  rw [stop_of_ne_stopped h, closeTrack_eq hr]
  exact layers_setLayers fun h => by rw [h]; rfl

/-- Stopping with a logged transport does what stopping does. -/
theorem stop_logged (t : τ) (log : List (Closing σ)) :
    r.stop (⟨t, log⟩ : Logged τ σ) = ((r.stop t).1, ⟨(r.stop t).2.1, log ++ r.closingsOfStop t⟩, (r.stop t).2.2) := by
  by_cases h : r.phase = .stopped
  · rw [closingsOfStop_of_stopped h, stop_of_stopped h, stop_of_stopped h, List.append_nil]
  · obtain ⟨k, hk, -⟩ := closeLayers_logged r.layers t
    simp only [closingsOfStop, stop_of_ne_stopped h, closeTrack_eq hr, hk, List.nil_append]

/-- A receiver that is not stopped yet sweeps over the streams of its layers. -/
theorem stop_sweep (h : r.phase ≠ .stopped) (t : τ) :
    Sweep (toClose r.layers) (r.closingsOfStop t) (r.stop t).2.2 (toClose (r.stop t).1.layers) := by
  obtain ⟨k, hk, hs, -⟩ := closeLayers_logged r.layers t
  rw [layers_stop hr h, closingsOfStop, stop_of_ne_stopped h, stop_of_ne_stopped h, closeTrack_eq hr,
    closeTrack_eq hr, hk]
  exact hs

/-- How the layers come out of a stop. -/
theorem stop_closed (t : τ) : List.Forall₂ (Layer.Closed (r.closingsOfStop t)) r.layers (r.stop t).1.layers := by
  by_cases h : r.phase = .stopped
  · rw [stop_of_stopped h]
    exact List.forall₂_same.mpr fun l _ => .kept l
  · obtain ⟨k, hk, -, hc⟩ := closeLayers_logged r.layers t
    rw [layers_stop hr h, closingsOfStop, stop_of_ne_stopped h, closeTrack_eq hr, hk]
    exact hc

end Stop

end Receiver

end MediaRelay
