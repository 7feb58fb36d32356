import MediaRelay.Proofs.Streams
import MediaRelay.Receiver

/-!
# Transports that behave alike

A receiver does the same with two transports that open and close streams with the same results (`Alike.receive`,
`Alike.bind`, `Alike.stop`), and leaves them in states that are again alike. So it keeps what all openings and closings
keep (`Alike.of_keeps`); in particular it never pushes to a queue nor reads from one (`untouched_receive`,
`untouched_bind`, `untouched_stop`).
-/

namespace MediaRelay

open Transport Receiver

/-- Two results of operations on transports: the transports are related, the rest is the same. -/
def Same {τ υ α : Type} (R : τ → υ → Prop) (x : τ × α) (y : υ × α) : Prop :=
  ∃ t u a, x = (t, a) ∧ y = (u, a) ∧ R t u

theorem Same.mk {τ υ α : Type} {R : τ → υ → Prop} {t : τ} {u : υ} (h : R t u) (a : α) : Same R (t, a) (u, a) :=
  ⟨t, u, a, rfl, rfl, h⟩

theorem Same.fst {τ υ α : Type} {R : τ → υ → Prop} {x : τ × α} {y : υ × α} (h : Same R x y) : R x.1 y.1 := by
  obtain ⟨t, u, a, rfl, rfl, h⟩ := h
  exact h

theorem Same.snd {τ υ α : Type} {R : τ → υ → Prop} {x : τ × α} {y : υ × α} (h : Same R x y) : x.2 = y.2 := by
  obtain ⟨t, u, a, rfl, rfl, -⟩ := h
  rfl

/-- Related transports give the same results when streams are opened and closed, and stay related. -/
structure Alike {τ υ σ : Type} [Transport τ σ] [Transport υ σ] (R : τ → υ → Prop) : Prop where
  openStream : ∀ {t u} ch ssrc, R t u → Same R (openStream t ch ssrc) (openStream u ch ssrc)
  closeStream : ∀ {t u} ch s, R t u → Same R (closeStream t ch s) (closeStream u ch s)

namespace Alike

variable {τ υ σ : Type} [Transport τ σ] [Transport υ σ] {R : τ → υ → Prop} (a : Alike R) {t : τ} {u : υ}

include a

theorem openPair (h : R t u) (ssrc : Ssrc) : Same R (openPair t ssrc) (openPair u ssrc) := by
  obtain ⟨t₁, u₁, x, ht, hu, h₁⟩ := a.openStream .media ssrc h
  simp only [Receiver.openPair, ht, hu]
  cases x with
  | error e => exact .mk h₁ _
  | ok m =>
    obtain ⟨t₂, u₂, y, ht, hu, h₂⟩ := a.openStream .control ssrc h₁
    simp only [ht, hu]
    cases y with
    | error e => exact .mk (a.closeStream .media m h₂).fst _
    | ok c => exact .mk h₂ _

theorem abandon (h : R t u) (ls : List (Layer σ)) : R (abandon t ls) (abandon u ls) := by
  induction ls generalizing t u with
  | nil => exact h
  | cons l ls ih =>
    unfold Receiver.abandon
    cases l.binding with
    | bound m c cc => exact ih (a.closeStream .media m (a.closeStream .control c h).fst).fst
    | _ => exact ih h

theorem openLayers (h : R t u) (done : List (Layer σ)) (es : List Encoding) :
    Same R (openLayers t done es) (openLayers u done es) := by
  induction es generalizing t u done with
  | nil => exact .mk h _
  | cons e es ih =>
    unfold Receiver.openLayers
    split
    · exact ih h _
    · obtain ⟨t₁, u₁, x, ht, hu, h₁⟩ := a.openPair h e.ssrc
      simp only [ht, hu]
      cases x with
      | error err => exact .mk (a.abandon h₁ done) _
      | ok p => exact ih h₁ _

theorem receive (h : R t u) (r : Receiver σ) (es : List Encoding) :
    (r.receive t es).1 = (r.receive u es).1 ∧ Same R (r.receive t es).2 (r.receive u es).2 := by
  unfold Receiver.receive
  split
  · exact ⟨rfl, .mk h _⟩
  · obtain ⟨t₁, u₁, x, ht, hu, h₁⟩ := a.openLayers h [] es
    simp only [ht, hu]
    cases x with
    | error err => exact ⟨rfl, .mk h₁ _⟩
    | ok ls => exact ⟨rfl, .mk h₁ _⟩

theorem bind (h : R t u) (r : Receiver σ) (rid : String) (ssrc : Ssrc) :
    (r.bind t rid ssrc).1 = (r.bind u rid ssrc).1 ∧ Same R (r.bind t rid ssrc).2 (r.bind u rid ssrc).2 := by
  unfold Receiver.bind
  split
  · exact ⟨rfl, .mk h _⟩
  · obtain ⟨t₁, u₁, x, ht, hu, h₁⟩ := a.openPair h ssrc
    simp only [ht, hu]
    cases x with
    | error err => exact ⟨rfl, .mk h₁ _⟩
    | ok p => exact ⟨rfl, .mk h₁ _⟩

theorem closeLayer (h : R t u) (l : Layer σ) : Same R (closeLayer t l) (closeLayer u l) := by
  unfold Receiver.closeLayer
  cases l.binding with
  | unbound => exact .mk h _
  | released => exact .mk h _
  | bound m c cc =>
    -- the control stream is closed, or was closed before
    have hc : Same R (if cc then (t, .ok ()) else Transport.closeStream t .control c)
        (if cc then (u, .ok ()) else Transport.closeStream u .control c) := by
      cases cc with
      | true => exact .mk h _
      | false => exact a.closeStream .control c h
    obtain ⟨t₁, u₁, x, ht, hu, h₁⟩ := hc
    simp only [ht, hu]
    cases x with
    | error e => exact .mk h₁ _
    | ok _ =>
      obtain ⟨t₂, u₂, y, ht, hu, h₂⟩ := a.closeStream .media m h₁
      simp only [ht, hu]
      cases y with
      | error e => exact .mk h₂ _
      | ok _ => exact .mk h₂ _

theorem closeLayers (h : R t u) (ls : List (Layer σ)) : Same R (closeLayers t ls) (closeLayers u ls) := by
  induction ls generalizing t u with
  | nil => exact .mk h _
  | cons l ls ih =>
    unfold Receiver.closeLayers
    obtain ⟨t₁, u₁, ⟨l', x⟩, ht, hu, h₁⟩ := a.closeLayer h l
    simp only [ht, hu]
    cases x with
    | error e => exact .mk h₁ _
    | ok _ =>
      obtain ⟨t₂, u₂, y, ht, hu, h₂⟩ := ih h₁
      simp only [ht, hu]
      exact .mk h₂ _

theorem stop (h : R t u) (r : Receiver σ) :
    (r.stop t).1 = (r.stop u).1 ∧ Same R (r.stop t).2 (r.stop u).2 := by
  have hc : Same R (r.closeTrack t) (r.closeTrack u) := by
    unfold closeTrack
    split
    · exact a.closeLayers h r.layers
    · exact .mk h _
  unfold Receiver.stop
  split
  · exact ⟨rfl, .mk h _⟩
  · obtain ⟨t₁, u₁, ⟨ls, x⟩, ht, hu, h₁⟩ := hc
    simp only [ht, hu]
    cases x with
    | error e => exact ⟨rfl, .mk h₁ _⟩
    | ok _ => exact ⟨rfl, .mk h₁ _⟩

end Alike

/-! ## What is kept -/

section Keeps

variable {τ σ : Type} [Transport τ σ] {P : τ → Prop}

/-- What all openings and closings keep, a receiver keeps, whatever it does. -/
theorem Alike.of_keeps (hopen : ∀ t ch ssrc, P t → P (Transport.openStream t ch ssrc).1)
    (hclose : ∀ t ch (m : σ), P t → P (Transport.closeStream t ch m).1) : Alike fun t u : τ => t = u ∧ P t where
  openStream := by
    rintro t u ch ssrc ⟨rfl, h⟩
    exact ⟨_, _, _, rfl, rfl, rfl, hopen t ch ssrc h⟩
  closeStream := by
    rintro t u ch m ⟨rfl, h⟩
    exact ⟨_, _, _, rfl, rfl, rfl, hclose t ch m h⟩

variable (hclose : ∀ t ch (m : σ), P t → P (closeStream t ch m).1)

include hclose

theorem Receiver.closeLayer_keeps {t : τ} (l : Layer σ) (ht : P t) : P (closeLayer t l).1 := by
  unfold closeLayer
  split
  · next m c controlClosed _ =>
    have hc : P (if controlClosed then (t, .ok ()) else Transport.closeStream t .control c :
        τ × Except Error Unit).1 := by
      split
      · exact ht
      · exact hclose _ _ _ ht
    dsimp only
    split
    · exact hc
    · have hm := hclose _ .media m hc
      split
      · next h => rwa [h] at hm
      · next h => rwa [h] at hm
  · exact ht

theorem Receiver.closeLayers_keeps {t : τ} (ls : List (Layer σ)) (ht : P t) : P (closeLayers t ls).1 := by
  induction ls generalizing t with
  | nil => exact ht
  | cons l ls ih =>
    have hl := closeLayer_keeps hclose l ht
    unfold closeLayers
    split
    · next h => rwa [h] at hl
    · next h =>
      rw [h] at hl
      exact ih hl

/-- Stopping opens nothing. -/
theorem Receiver.stop_keeps (r : Receiver σ) {t : τ} (ht : P t) : P (r.stop t).2.1 := by
  unfold stop
  split
  · exact ht
  · have hc : P (r.closeTrack t).1 := by
      unfold closeTrack
      split
      · exact closeLayers_keeps hclose _ ht
      · exact ht
    split
    · next h => rwa [h] at hc
    · next h => rwa [h] at hc

end Keeps

/-! ## Queues are opened and closed only -/

namespace QueueTransport

/-- A transport is alike to itself, whatever was opened and closed since some time. -/
theorem alike_untouched (t : QueueTransport) : Alike fun u v : QueueTransport => u = v ∧ t.Untouched u :=
  .of_keeps (fun u ch ssrc h ch' ssrc' => (h ch' ssrc').trans (u.untouched_open ch ssrc ch' ssrc'))
    fun u ch s h ch' ssrc' => (h ch' ssrc').trans (u.untouched_close ch s ch' ssrc')

theorem untouched_receive (t : QueueTransport) (r : Receiver Ssrc) (es : List Encoding) :
    t.Untouched (r.receive t es).2.1 :=
  (t.alike_untouched.receive ⟨rfl, fun _ _ => .refl _⟩ r es).2.fst.2

theorem untouched_bind (t : QueueTransport) (r : Receiver Ssrc) (rid : String) (ssrc : Ssrc) :
    t.Untouched (r.bind t rid ssrc).2.1 :=
  (t.alike_untouched.bind ⟨rfl, fun _ _ => .refl _⟩ r rid ssrc).2.fst.2

theorem untouched_stop (t : QueueTransport) (r : Receiver Ssrc) : t.Untouched (r.stop t).2.1 :=
  (t.alike_untouched.stop ⟨rfl, fun _ _ => .refl _⟩ r).2.fst.2

end QueueTransport

end MediaRelay
