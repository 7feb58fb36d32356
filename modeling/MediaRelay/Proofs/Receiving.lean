import MediaRelay.Proofs.Closings
import Mathlib.Data.List.Nodup

/-!
# What a receiver goes through

- what receiving and binding come to (`receive_cases`, `bind_cases`);
- `Receiver.Sound`: the phase, the track, the beginning of the end and the layers of a receiver agree
  (`sound_receive`, `sound_bind`, `sound_stop`);
- `Receiver.Onward`: nothing that a receiver has got to is undone (`onward_receive`, `onward_bind`, `onward_stop`).

All of this holds with every transport.
-/

namespace MediaRelay

variable {τ σ : Type}

/-! ## Lists side by side -/

section Forall₂

variable {α β : Type} {R : α → β → Prop} {as : List α} {bs : List β}

theorem exists_of_mem_left (h : List.Forall₂ R as bs) {a : α} (ha : a ∈ as) : ∃ b ∈ bs, R a b := by
  induction h with
  | nil => cases ha
  | cons h _ ih =>
    rcases List.mem_cons.mp ha with rfl | ha
    · exact ⟨_, List.mem_cons_self, h⟩
    · obtain ⟨b, hb, hr⟩ := ih ha
      exact ⟨b, List.mem_cons_of_mem _ hb, hr⟩

theorem exists_of_mem_right (h : List.Forall₂ R as bs) {b : β} (hb : b ∈ bs) : ∃ a ∈ as, R a b :=
  exists_of_mem_left h.flip hb

end Forall₂

/-! ## Receiving and binding -/

section Cases

variable [Transport τ σ]

/-- The layer of an encoding when its streams have just been opened, on some transport of the type `τ`. -/
structure Encoding.Opened (τ : Type) {σ : Type} [Transport τ σ] (e : Encoding) (l : Layer σ) : Prop where
  rid : l.rid = e.rid
  ssrc : l.ssrc = e.ssrc
  unbound : e.ssrc = 0 → l.binding = .unbound
  bound : e.ssrc ≠ 0 → ∃ (t u : τ) (m c : σ),
    Receiver.openPair t e.ssrc = (u, .ok (m, c)) ∧ l.binding = .bound m c false

namespace Receiver

/-- The layers that were opened for encodings. -/
theorem openLayers_ok {t u : τ} {done ls : List (Layer σ)} {es : List Encoding}
    (h : openLayers t done es = (u, .ok ls)) : ∃ new, ls = done ++ new ∧ List.Forall₂ (Encoding.Opened τ) es new := by
  induction es generalizing t done with
  | nil => cases h; exact ⟨[], (List.append_nil _).symm, .nil⟩
  | cons e es ih =>
    unfold openLayers at h
    split at h
    · next h0 =>
      obtain ⟨new, rfl, hn⟩ := ih h
      refine ⟨⟨e.rid, e.ssrc, .unbound⟩ :: new, by simp, .cons ⟨rfl, rfl, fun _ => rfl, fun hne => ?_⟩ hn⟩
      exact absurd h0 hne
    · next h0 =>
      split at h
      · next u' m c hp =>
        obtain ⟨new, rfl, hn⟩ := ih h
        refine ⟨⟨e.rid, e.ssrc, .bound m c false⟩ :: new, by simp, .cons ⟨rfl, rfl, fun he => ?_, fun _ => ?_⟩ hn⟩
        · exact absurd he h0
        · exact ⟨t, u', m, c, hp, rfl⟩
      · cases h

/-- What receiving comes to: it is refused, or some stream cannot be opened, or there is a track. -/
theorem receive_cases (r : Receiver σ) (t : τ) (es : List Encoding) :
    (∃ e, r.refuseReceive es = some e ∧ r.receive t es = (r, t, .error e))
      ∨ (∃ u e, r.refuseReceive es = none ∧ r.receive t es = ({ r with attempted := true }, u, .error e))
      ∨ ∃ u ls, r.refuseReceive es = none ∧ List.Forall₂ (Encoding.Opened τ) es ls
          ∧ r.receive t es
            = ({ r with attempted := true, track := some ls, phase := .receiving, received := true }, u, .ok ls) := by
  unfold receive
  cases hr : r.refuseReceive es with
  | some e => exact .inl ⟨e, rfl, rfl⟩
  | none =>
    right
    dsimp only
    rcases ho : openLayers t [] es with ⟨u, e | ls⟩
    · exact .inl ⟨u, e, rfl, rfl⟩
    · obtain ⟨new, hl, hn⟩ := openLayers_ok ho
      rw [List.nil_append] at hl
      exact .inr ⟨u, ls, rfl, hl ▸ hn, rfl⟩

/-- Encodings that are not refused are new to the receiver, and each has a RID of its own. -/
theorem of_refuseReceive {r : Receiver σ} {es : List Encoding} (h : r.refuseReceive es = none) :
    es ≠ [] ∧ (es.map Encoding.rid).Nodup ∧ r.phase ≠ .stopped ∧ r.attempted = false := by
  unfold refuseReceive at h
  split at h
  · cases h
  · next he =>
    split at h
    · cases h
    · next hd =>
      split at h
      · cases h
      · next hs =>
        split at h
        · cases h
        · next ha => exact ⟨by simpa using he, by simpa using hd, hs, by simpa using ha⟩

/-- A layer when it has just been bound. -/
def bindLayer (rid : String) (ssrc : Ssrc) (m c : σ) (l : Layer σ) : Layer σ :=
  if l.rid = rid then { l with ssrc, binding := .bound m c false } else l

/-- What binding comes to: it is refused, or a stream cannot be opened, or the layer has its streams. -/
theorem bind_cases (r : Receiver σ) (t : τ) (rid : String) (ssrc : Ssrc) :
    (∃ e, r.refuseBind rid ssrc = some e ∧ r.bind t rid ssrc = (r, t, .error e))
      ∨ (∃ u e, r.refuseBind rid ssrc = none ∧ openPair t ssrc = (u, .error e) ∧ r.bind t rid ssrc = (r, u, .error e))
      ∨ ∃ u m c, r.refuseBind rid ssrc = none ∧ openPair t ssrc = (u, .ok (m, c))
          ∧ r.bind t rid ssrc = (r.setLayers (r.layers.map (bindLayer rid ssrc m c)), u, .ok ()) := by
  unfold bind
  cases hr : r.refuseBind rid ssrc with
  | some e => exact .inl ⟨e, rfl, rfl⟩
  | none =>
    right
    dsimp only
    rcases ho : openPair t ssrc with ⟨u, e | ⟨m, c⟩⟩
    · exact .inl ⟨u, e, rfl, rfl, rfl⟩
    · exact .inr ⟨u, m, c, rfl, rfl, rfl⟩

/-- A layer that may be bound is there and has no streams. -/
theorem of_refuseBind {r : Receiver σ} {rid : String} {ssrc : Ssrc} (h : r.refuseBind rid ssrc = none) :
    ssrc ≠ 0 ∧ r.phase ≠ .stopped ∧ ∃ l, r.layer? rid = some l ∧ l.isReady = false := by
  unfold refuseBind at h
  split at h
  · cases h
  · next hz =>
    split at h
    · cases h
    · next hs =>
      split at h
      · cases h
      · next l hl =>
        split at h
        · cases h
        · next hr => exact ⟨hz, hs, l, hl, by simpa using hr⟩

end Receiver

end Cases

/-! ## The invariant -/

namespace Receiver

variable {r : Receiver σ}

/-- The parts of a receiver agree with one another. -/
structure Sound (r : Receiver σ) : Prop where
  specified : r.phase ≠ .unspecified
  received : r.received = r.track.isSome
  created : r.phase = .created → r.received = false
  receiving : r.phase = .receiving → r.received = true
  stopped : r.phase = .stopped → r.closing ∧ toClose r.layers = []
  attempted : r.received → r.attempted
  rids : (r.layers.map Layer.rid).Nodup
  ready : ∀ l ∈ r.layers, l.isReady = true ↔ l.ssrc ≠ 0
  bound : r.closing = false → ∀ l ∈ r.layers, l.isReady → ∃ m c, l.binding = .bound m c false

/-- A RID names one layer. -/
theorem Sound.layer_unique {rid : String} {k l : Layer σ} (h : r.Sound) (hk : k ∈ r.layers) (hr : k.rid = rid)
    (hl : r.layer? rid = some l) : k = l := by
  have hm := List.mem_of_find?_eq_some hl
  have he : l.rid = rid := by simpa using List.find?_some hl
  exact List.inj_on_of_nodup_map h.rids hk hm (hr.trans he.symm)

/-- The layer of a RID is found. -/
theorem Sound.layer?_eq {k : Layer σ} (h : r.Sound) (hk : k ∈ r.layers) : r.layer? k.rid = some k := by
  have hsome : (r.layer? k.rid).isSome = true := List.find?_isSome.mpr ⟨k, hk, by simp⟩
  obtain ⟨k', hk'⟩ := Option.isSome_iff_exists.mp hsome
  rw [hk', h.layer_unique hk rfl hk']

theorem sound_new (kind : Kind) (mtu : Nat) : Sound (σ := σ) { kind, mtu } where
  specified := by intro h; cases h
  received := rfl
  created _ := rfl
  receiving h := by cases h
  stopped h := by cases h
  attempted h := by cases h
  rids := List.nodup_nil
  ready l hl := by cases hl
  bound _ l hl := by cases hl

end Receiver

section Opened

variable [Transport τ σ] {e : Encoding} {l : Layer σ} {es : List Encoding} {ls : List (Layer σ)}

/-- A layer that has just been opened is ready if it has an SSRC. -/
theorem Encoding.Opened.isReady_iff (h : e.Opened τ l) : l.isReady = true ↔ l.ssrc ≠ 0 := by
  rw [h.ssrc]
  by_cases hz : e.ssrc = 0
  · simp [Layer.isReady, h.unbound hz, Binding.isReady, hz]
  · obtain ⟨-, -, m, c, -, hb⟩ := h.bound hz
    simp [Layer.isReady, hb, Binding.isReady, hz]

/-- A layer that has just been opened and is ready has both streams. -/
theorem Encoding.Opened.binding (h : e.Opened τ l) (hr : l.isReady = true) : ∃ m c, l.binding = .bound m c false := by
  have hz := h.isReady_iff.mp hr
  rw [h.ssrc] at hz
  obtain ⟨-, -, m, c, -, hb⟩ := h.bound hz
  exact ⟨m, c, hb⟩

theorem map_rid_opened (h : List.Forall₂ (Encoding.Opened τ) es ls) : ls.map Layer.rid = es.map Encoding.rid := by
  induction h with
  | nil => rfl
  | cons h _ ih => rw [List.map_cons, List.map_cons, ih, h.rid]

theorem map_rid_closed {log : List (Closing σ)} {ls ls' : List (Layer σ)}
    (h : List.Forall₂ (Layer.Closed log) ls ls') : ls'.map Layer.rid = ls.map Layer.rid := by
  induction h with
  | nil => rfl
  | cons h _ ih => rw [List.map_cons, List.map_cons, ih, h.rid_eq]

end Opened

/-! ## Each operation keeps the invariant -/

namespace Receiver

variable {r : Receiver σ}

theorem layers_of_track {ls : List (Layer σ)} (h : r.track = some ls) : r.layers = ls := by
  rw [layers, h, Option.getD_some]

theorem track_of_layers_ne_nil (h : r.layers ≠ []) : r.track = some r.layers := by
  unfold layers at *
  cases ht : r.track with
  | none => rw [ht] at h; exact absurd rfl h
  | some ls => rfl

theorem track_setLayers (ls : List (Layer σ)) : (r.setLayers ls).track = r.track.map fun _ => ls := rfl

theorem layers_map (f : Layer σ → Layer σ) : (r.setLayers (r.layers.map f)).layers = r.layers.map f :=
  layers_setLayers fun h => by rw [h]; rfl

/-- The layers after binding are the layers before, of which one was bound. -/
theorem rid_bindLayer (rid : String) (ssrc : Ssrc) (m c : σ) (l : Layer σ) :
    (bindLayer rid ssrc m c l).rid = l.rid := by
  unfold bindLayer
  split <;> rfl

variable [Transport τ σ]

theorem sound_receive (h : r.Sound) (t : τ) (es : List Encoding) : (r.receive t es).1.Sound := by
  rcases r.receive_cases t es with ⟨e, -, he⟩ | ⟨u, e, hr, he⟩ | ⟨u, ls, hr, ho, he⟩ <;> rw [he]
  · exact h
  · exact { h with attempted := fun _ => rfl }
  · obtain ⟨-, hd, -, -⟩ := of_refuseReceive hr
    exact {
      specified := by intro h; cases h
      received := rfl
      created := by intro h; cases h
      receiving := fun _ => rfl
      stopped := by intro h; cases h
      attempted := fun _ => rfl
      rids := by rw [← map_rid_opened ho] at hd; exact hd
      ready := fun l hl => (exists_of_mem_right ho hl).elim fun e he => he.2.isReady_iff
      bound := fun _ l hl hr => (exists_of_mem_right ho hl).elim fun e he => he.2.binding hr }

theorem sound_bind (h : r.Sound) (t : τ) (rid : String) (ssrc : Ssrc) : (r.bind t rid ssrc).1.Sound := by
  rcases r.bind_cases t rid ssrc with ⟨e, -, he⟩ | ⟨u, e, -, -, he⟩ | ⟨u, m, c, hr, -, he⟩ <;> rw [he]
  · exact h
  · exact h
  · obtain ⟨hz, hs, l, hl, -⟩ := of_refuseBind hr
    have hls := r.layers_map (bindLayer rid ssrc m c)
    exact {
      specified := h.specified
      received := by rw [track_setLayers, Option.isSome_map]; exact h.received
      created := h.created
      receiving := h.receiving
      stopped := fun hp => absurd hp hs
      attempted := h.attempted
      rids := by
        rw [hls, List.map_map]
        have : Layer.rid ∘ bindLayer rid ssrc m c = Layer.rid := funext (rid_bindLayer rid ssrc m c)
        rw [this]
        exact h.rids
      ready := fun l hl => by
        rw [hls] at hl
        obtain ⟨k, hk, rfl⟩ := List.mem_map.mp hl
        unfold bindLayer
        split
        · simp [Layer.isReady, Binding.isReady, hz]
        · exact h.ready k hk
      bound := fun hc l hl hr => by
        rw [hls] at hl
        obtain ⟨k, hk, rfl⟩ := List.mem_map.mp hl
        unfold bindLayer at hr ⊢
        split
        · exact ⟨m, c, rfl⟩
        · next hne => rw [if_neg hne] at hr; exact h.bound hc k hk hr }

/-- What stopping leaves as it was, and what it sets. -/
theorem stop_fields (hs : r.phase ≠ .stopped) (t : τ) :
    (r.stop t).1.phase = (if (r.stop t).2.2 = .ok () then .stopped else r.phase) ∧ (r.stop t).1.closing = true
      ∧ (r.stop t).1.received = r.received ∧ (r.stop t).1.track.isSome = r.track.isSome
      ∧ (r.stop t).1.attempted = r.attempted := by
  rw [stop_of_ne_stopped hs]
  exact ⟨rfl, rfl, rfl, by simp [track_setLayers], rfl⟩

theorem sound_stop (h : r.Sound) (t : τ) : (r.stop t).1.Sound := by
  by_cases hs : r.phase = .stopped
  · rw [stop_of_stopped hs]
    exact h
  · obtain ⟨hp, hc, hr, ht, ha⟩ := stop_fields hs t
    have hsw := stop_sweep h.received hs t
    have hcl := stop_closed h.received t
    have hold : (r.stop t).1.phase ≠ .stopped → (r.stop t).1.phase = r.phase := fun hn => by
      split at hp
      · exact absurd hp hn
      · exact hp
    have hback : ∀ p, p ≠ .stopped → (r.stop t).1.phase = p → r.phase = p := fun p hn hu => by
      rw [← hold (by rw [hu]; exact hn), hu]
    exact {
      specified := fun hu => h.specified (hback _ (by decide) hu)
      received := by rw [hr, ht]; exact h.received
      created := fun hu => by rw [hr]; exact h.created (hback _ (by decide) hu)
      receiving := fun hu => by rw [hr]; exact h.receiving (hback _ (by decide) hu)
      stopped := fun hu => by
        refine ⟨hc, ?_⟩
        split at hp
        · next hok => rw [hok] at hsw; exact hsw.left_eq_nil
        · exact absurd (hp.symm.trans hu) hs
      attempted := fun hu => by rw [ha]; exact h.attempted (by rw [← hr]; exact hu)
      rids := by rw [map_rid_closed hcl]; exact h.rids
      ready := fun l hl => by
        obtain ⟨k, hk, hkl⟩ := exists_of_mem_right hcl hl
        rw [hkl.isReady_eq, hkl.ssrc_eq]
        exact h.ready k hk
      bound := fun hn => by rw [hc] at hn; cases hn }

end Receiver

/-! ## Nothing is undone -/

/-- A later state of the same layer: it keeps its RID, stays ready, and may only get an SSRC if it has none. -/
structure Layer.Onward (l l' : Layer σ) : Prop where
  rid : l'.rid = l.rid
  ready : l.isReady → l'.isReady
  ssrc : l'.ssrc = l.ssrc ∨ (l.ssrc = 0 ∧ l'.ssrc ≠ 0)

/-- A later state of the same receiver. -/
structure Receiver.Onward (r r' : Receiver σ) : Prop where
  phase : r.phase.number ≤ r'.phase.number
  received : r.received → r'.received
  closing : r.closing → r'.closing
  kind : r'.kind = r.kind
  mtu : r'.mtu = r.mtu
  track : ∀ ls, r.track = some ls → ∃ ls', r'.track = some ls' ∧ List.Forall₂ Layer.Onward ls ls'

theorem Layer.Onward.refl (l : Layer σ) : l.Onward l :=
  ⟨rfl, id, .inl rfl⟩

theorem Layer.Onward.trans {l l' l'' : Layer σ} (h : l.Onward l') (h' : l'.Onward l'') : l.Onward l'' where
  rid := h'.rid.trans h.rid
  ready := h'.ready ∘ h.ready
  ssrc := by
    rcases h.ssrc with e | ⟨hz, hn⟩ <;> rcases h'.ssrc with e' | ⟨hz', hn'⟩
    · exact .inl (e'.trans e)
    · exact .inr ⟨e ▸ hz', hn'⟩
    · exact .inr ⟨hz, e' ▸ hn⟩
    · exact absurd hz' hn

theorem Layer.Closed.onward {log : List (Closing σ)} {l l' : Layer σ} (h : l.Closed log l') : l.Onward l' :=
  ⟨h.rid_eq, fun hr => by rw [h.isReady_eq]; exact hr, .inl h.ssrc_eq⟩

theorem forall_onward_trans {ls ls' ls'' : List (Layer σ)} (h : List.Forall₂ Layer.Onward ls ls')
    (h' : List.Forall₂ Layer.Onward ls' ls'') : List.Forall₂ Layer.Onward ls ls'' := by
  induction h generalizing ls'' with
  | nil => exact h'
  | cons hl _ ih =>
    cases h' with
    | cons hl' h' => exact .cons (hl.trans hl') (ih h')

theorem map_rid_onward {ls ls' : List (Layer σ)} (h : List.Forall₂ Layer.Onward ls ls') :
    ls'.map Layer.rid = ls.map Layer.rid := by
  induction h with
  | nil => rfl
  | cons h _ ih => rw [List.map_cons, List.map_cons, ih, h.rid]

/-- A layer that is found by its RID is found later, too. -/
theorem find?_onward {ls ls' : List (Layer σ)} (h : List.Forall₂ Layer.Onward ls ls') {rid : String} {l : Layer σ}
    (hl : ls.find? (fun l => l.rid = rid) = some l) :
    ∃ l', ls'.find? (fun l => l.rid = rid) = some l' ∧ l.Onward l' := by
  induction h with
  | nil => cases hl
  | @cons k k' ls ls' hk _ ih =>
    rw [List.find?_cons] at hl ⊢
    rw [hk.rid]
    split at hl
    · cases hl
      exact ⟨k', rfl, hk⟩
    · exact ih hl

namespace Receiver

theorem Onward.layer? {r r' : Receiver σ} (h : r.Onward r') {rid : String} {l : Layer σ} (hl : r.layer? rid = some l) :
    ∃ l', r'.layer? rid = some l' ∧ l.Onward l' := by
  have hne : r.layers ≠ [] := List.ne_nil_of_mem (List.mem_of_find?_eq_some hl)
  obtain ⟨ls', hls', hf⟩ := h.track _ (track_of_layers_ne_nil hne)
  unfold Receiver.layer?
  rw [layers_of_track hls']
  exact find?_onward hf hl

theorem Onward.refl (r : Receiver σ) : r.Onward r :=
  ⟨Nat.le_refl _, id, id, rfl, rfl, fun ls h => ⟨ls, h, List.forall₂_same.mpr fun l _ => .refl l⟩⟩

theorem Onward.trans {r r' r'' : Receiver σ} (h : r.Onward r') (h' : r'.Onward r'') : r.Onward r'' where
  phase := Nat.le_trans h.phase h'.phase
  received := h'.received ∘ h.received
  closing := h'.closing ∘ h.closing
  kind := h'.kind.trans h.kind
  mtu := h'.mtu.trans h.mtu
  track ls hls := by
    obtain ⟨ls', hls', hf⟩ := h.track ls hls
    obtain ⟨ls'', hls'', hf'⟩ := h'.track ls' hls'
    exact ⟨ls'', hls'', forall_onward_trans hf hf'⟩

/-- Replacing the layers by later states of them leads onward. -/
theorem onward_setLayers {r : Receiver σ} {ls : List (Layer σ)} (h : List.Forall₂ Layer.Onward r.layers ls) :
    r.Onward (r.setLayers ls) where
  phase := Nat.le_refl _
  received := id
  closing := id
  kind := rfl
  mtu := rfl
  track ls' hls := ⟨ls, by rw [track_setLayers, hls]; rfl, by rwa [layers_of_track hls] at h⟩

variable [Transport τ σ] {r : Receiver σ}

theorem onward_receive (h : r.Sound) (t : τ) (es : List Encoding) : r.Onward (r.receive t es).1 := by
  rcases r.receive_cases t es with ⟨e, -, he⟩ | ⟨u, e, -, he⟩ | ⟨u, ls, hr, -, he⟩ <;> rw [he]
  · exact .refl r
  · exact { Onward.refl r with }
  · obtain ⟨-, -, hs, ha⟩ := of_refuseReceive hr
    have hn : r.track = none := by
      cases ht : r.track with
      | none => rfl
      | some ls => have := h.attempted (by rw [h.received, ht]; rfl); rw [ha] at this; cases this
    exact {
      phase := by
        cases hp : r.phase with
        | stopped => exact absurd hp hs
        | _ => simp [Phase.number]
      received := fun _ => rfl
      closing := id
      kind := rfl
      mtu := rfl
      track := fun ls' hls => by rw [hn] at hls; cases hls }

/-- Binding a layer that is not ready leads onward. -/
theorem onward_bindLayer {rid : String} {ssrc : Ssrc} {l : Layer σ} (hz : ssrc ≠ 0) (m c : σ)
    (hl : l.rid = rid → l.ssrc = 0) : l.Onward (bindLayer rid ssrc m c l) := by
  unfold bindLayer
  split
  · next hr => exact ⟨rfl, fun _ => rfl, .inr ⟨hl hr, hz⟩⟩
  · exact .refl l

theorem onward_bind (h : r.Sound) (t : τ) (rid : String) (ssrc : Ssrc) : r.Onward (r.bind t rid ssrc).1 := by
  rcases r.bind_cases t rid ssrc with ⟨e, -, he⟩ | ⟨u, e, -, -, he⟩ | ⟨u, m, c, hr, -, he⟩ <;> rw [he]
  · exact .refl r
  · exact .refl r
  · obtain ⟨hz, -, l, hl, hn⟩ := of_refuseBind hr
    refine onward_setLayers (List.forall₂_map_right_iff.mpr (List.forall₂_same.mpr fun k hk => ?_))
    apply onward_bindLayer hz m c
    intro hkr
    have hkl : k = l := h.layer_unique hk hkr hl
    apply Decidable.byContradiction
    intro hne
    rw [hkl] at hne
    have := (h.ready l (List.mem_of_find?_eq_some hl)).mpr hne
    rw [hn] at this
    cases this

theorem onward_stop (h : r.Sound) (t : τ) : r.Onward (r.stop t).1 := by
  by_cases hs : r.phase = .stopped
  · rw [stop_of_stopped hs]
    exact .refl r
  · have hf := (stop_closed h.received t).imp fun _ _ h => h.onward
    rw [layers_stop h.received hs, ← closeTrack_eq h.received] at hf
    rw [stop_of_ne_stopped hs]
    refine (onward_setLayers hf).trans { Onward.refl (r.setLayers _) with phase := ?_, closing := fun _ => rfl }
    dsimp only
    split
    · cases (r.setLayers _).phase <;> decide
    · exact Nat.le_refl _

end Receiver

end MediaRelay
