import MediaRelay.Encoding
import MediaRelay.Kind
import MediaRelay.Phase
import MediaRelay.Transport

/-!
# The receiver

A receiver turns negotiated encodings into the layers of one track. Each layer is bound to a pair of read streams,
one for media and one for control data, as soon as its SSRC is known.

* `Receiver.receive` opens the streams of all layers whose SSRC is known, or of none; it is attempted at most once.
* `Receiver.bind` binds a layer whose SSRC was learned later.
* `Receiver.stop` closes the streams in order, and goes on where an earlier attempt failed.

Each is a function of the receiver and of the transport `τ` whose open streams are named by `σ`.
-/

namespace MediaRelay

/-! ## Layers -/

/-- The streams of a layer: none yet, a pair of them, or none any more. -/
inductive Binding (σ : Type) where
  | unbound
  | bound (media control : σ) (controlClosed : Bool)
  | released
deriving DecidableEq, Repr

/-- Whether the layer has been bound. -/
def Binding.isReady {σ : Type} : Binding σ → Bool
  | .unbound => false
  | _ => true

/-- One encoding of a track. -/
structure Layer (σ : Type) where
  rid : String
  ssrc : Ssrc
  binding : Binding σ := .unbound
deriving DecidableEq, Repr

/-- Whether the layer has been bound. -/
def Layer.isReady {σ : Type} (l : Layer σ) : Bool :=
  l.binding.isReady

/-! ## Receivers -/

/-- A receiver. Receiving leaves a track and sets `received`; `closing` is set by the first attempt to stop it. -/
structure Receiver (σ : Type) where
  kind : Kind
  mtu : Nat
  phase : Phase := .created
  attempted : Bool := false
  received : Bool := false
  closing : Bool := false
  track : Option (List (Layer σ)) := none
deriving DecidableEq, Repr

namespace Receiver

variable {τ σ : Type}

/-- The layers of the track, in the order of negotiation. -/
def layers (r : Receiver σ) : List (Layer σ) :=
  r.track.getD []

/-- The layer of a RID. -/
def layer? (r : Receiver σ) (rid : String) : Option (Layer σ) :=
  r.layers.find? fun l => l.rid = rid

/-- The first layer that has an SSRC. -/
def layerOfSsrc? (r : Receiver σ) (ssrc : Ssrc) : Option (Layer σ) :=
  r.layers.find? fun l => l.ssrc = ssrc

section Operations

variable [Transport τ σ]

open Transport

/-! ## Receiving -/

/-- Opens the media and the control stream of an SSRC; if only the first can be opened it is closed again. -/
def openPair (t : τ) (ssrc : Ssrc) : τ × Except Error (σ × σ) :=
  match openStream t .media ssrc with
  | (t, .error e) => (t, .error e)
  | (t, .ok m) =>
    match openStream t .control ssrc with
    | (t, .ok c) => (t, .ok (m, c))
    | (t, .error e) => ((closeStream t .media m).1, .error e)

/-- Closes both streams of each layer, control first, whatever that comes to. -/
def abandon (t : τ) : List (Layer σ) → τ
  | [] => t
  | l :: ls =>
    match l.binding with
    | .bound m c _ => abandon (closeStream (closeStream t .control c).1 .media m).1 ls
    | _ => abandon t ls

/-- Opens the streams of the layers of encodings, after those of `done`. At the first failure all that was opened
is closed. -/
def openLayers (t : τ) (done : List (Layer σ)) : List Encoding → τ × Except Error (List (Layer σ))
  | [] => (t, .ok done)
  | e :: es =>
    if e.ssrc = 0 then openLayers t (done ++ [⟨e.rid, e.ssrc, .unbound⟩]) es
    else
      match openPair t e.ssrc with
      | (t, .ok (m, c)) => openLayers t (done ++ [⟨e.rid, e.ssrc, .bound m c false⟩]) es
      | (t, .error err) => (abandon t done, .error err)

/-- Why encodings are not received, whatever the transport does. -/
def refuseReceive (r : Receiver σ) (es : List Encoding) : Option Error :=
  if es.isEmpty then some .noEncodings
  else if ¬ (es.map Encoding.rid).Nodup then some .duplicateRid
  else if r.phase = .stopped then some .receiverStopped
  else if r.attempted then some .alreadyReceived
  else none

/-- Receives the encodings: either every layer whose SSRC is known is bound, or there is no track. -/
def receive (r : Receiver σ) (t : τ) (es : List Encoding) : Receiver σ × τ × Except Error (List (Layer σ)) :=
  match r.refuseReceive es with
  | some e => (r, t, .error e)
  | none =>
    let r := { r with attempted := true }
    match openLayers t [] es with
    | (t, .error e) => (r, t, .error e)
    | (t, .ok ls) => ({ r with track := some ls, phase := .receiving, received := true }, t, .ok ls)

/-! ## Late binding -/

/-- Replaces the layers of the track. -/
def setLayers (r : Receiver σ) (ls : List (Layer σ)) : Receiver σ :=
  { r with track := r.track.map fun _ => ls }

/-- Why a layer cannot be bound, whatever the transport does. -/
def refuseBind (r : Receiver σ) (rid : String) (ssrc : Ssrc) : Option Error :=
  if ssrc = 0 then some .zeroSsrc
  else if r.phase = .stopped then some .receiverStopped
  else
    match r.layer? rid with
    | none => some .unknownRid
    | some l => if l.isReady then some .layerAlreadyBound else none

/-- Binds the layer of a RID to an SSRC. -/
def bind (r : Receiver σ) (t : τ) (rid : String) (ssrc : Ssrc) : Receiver σ × τ × Except Error Unit :=
  match r.refuseBind rid ssrc with
  | some e => (r, t, .error e)
  | none =>
    match openPair t ssrc with
    | (t, .error e) => (r, t, .error e)
    | (t, .ok (m, c)) =>
      (r.setLayers (r.layers.map fun l => if l.rid = rid then { l with ssrc, binding := .bound m c false } else l),
        t, .ok ())

/-! ## Stopping -/

/-- Closes the control stream of a layer unless that has been done, and then its media stream. -/
def closeLayer (t : τ) (l : Layer σ) : τ × Layer σ × Except Error Unit :=
  match l.binding with
  | .bound m c controlClosed =>
    let (t, result) := if controlClosed then (t, .ok ()) else closeStream t .control c
    match result with
    | .error e => (t, l, .error e)
    | .ok () =>
      match closeStream t .media m with
      | (t, .ok ()) => (t, { l with binding := .released }, .ok ())
      | (t, .error e) => (t, { l with binding := .bound m c true }, .error e)
  | _ => (t, l, .ok ())

/-- Closes layers in order, up to the first that cannot be closed. -/
def closeLayers (t : τ) : List (Layer σ) → τ × List (Layer σ) × Except Error Unit
  | [] => (t, [], .ok ())
  | l :: ls =>
    match closeLayer t l with
    | (t, l, .error e) => (t, l :: ls, .error e)
    | (t, l, .ok ()) =>
      let (t, ls, result) := closeLayers t ls
      (t, l :: ls, result)

/-- Closes the layers of a receiver that has received. -/
def closeTrack (r : Receiver σ) (t : τ) : τ × List (Layer σ) × Except Error Unit :=
  if r.received then closeLayers t r.layers else (t, r.layers, .ok ())

/-- Stops the receiver. Whatever that comes to, its reads end; it counts as stopped once all streams are closed. -/
def stop (r : Receiver σ) (t : τ) : Receiver σ × τ × Except Error Unit :=
  if r.phase = .stopped then (r, t, .ok ())
  else
    match r.closeTrack t with
    | (t, ls, .error e) => ({ r.setLayers ls with closing := true }, t, .error e)
    | (t, ls, .ok ()) => ({ r.setLayers ls with closing := true, phase := .stopped }, t, .ok ())

end Operations

end Receiver

end MediaRelay
