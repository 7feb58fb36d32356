import MediaRelay.Proofs.Fate
import MediaRelay.Proofs.Time

/-!
# Views of a hub

A `View` looks at some layers that read one media stream. Two hubs agree in a view (`Hub.Agree`) if they differ only in
what those layers have nothing to do with: other media streams, other outbound tracks and writers, and the reads, pumps
and schedulers of other layers. Outbound tracks may have other numbers in the one hub than in the other (`Links`).

- `QueueTransport.Agree.alike`: receivers do the same with transports that agree;
- `Egress.Agree.fate`: what is forwarded to tracks that agree has the same fate.
-/

namespace MediaRelay

/-- What is looked at: some layers, and what they have outside. -/
structure View where
  /-- Whether a layer is looked at. -/
  rids : String → Bool
  /-- The SSRC of the media stream that the layers read, or zero if none of them is bound. -/
  ssrc : Ssrc
  /-- The names of outbound tracks that belong to others. -/
  tracks : List String
  /-- The names of writers that belong to others. -/
  writers : List String

/-- Which outbound tracks, or which tasks, of one hub are which of another. -/
structure Links where
  Rel : Nat → Nat → Prop
  functional : ∀ {i j k}, Rel i j → Rel i k → j = k
  injective : ∀ {i j k}, Rel i k → Rel j k → i = j

namespace Links

/-- Nothing has been added yet. -/
def none : Links where
  Rel _ _ := False
  functional h := h.elim
  injective h := h.elim

/-- The links seen from the other hub. -/
def symm (l : Links) : Links where
  Rel i j := l.Rel j i
  functional := l.injective
  injective := l.functional

/-- The links when one more has been added to both hubs. -/
def add (l : Links) {m n : Nat} (hm : ∀ j, ¬ l.Rel m j) (hn : ∀ i, ¬ l.Rel i n) : Links where
  Rel i j := l.Rel i j ∨ i = m ∧ j = n
  functional := by
    rintro i j k (hj | ⟨rfl, rfl⟩) (hk | ⟨hi, rfl⟩)
    · exact l.functional hj hk
    · exact absurd (hi ▸ hj) (hm j)
    · exact absurd hk (hm k)
    · rfl
  injective := by
    rintro i j k (hi | ⟨rfl, rfl⟩) (hj | ⟨rfl, hk⟩)
    · exact l.injective hi hj
    · exact absurd (hk ▸ hi) (hn i)
    · exact absurd hj (hn j)
    · rfl

/-- All links of one are links of the other. -/
def Le (l l' : Links) : Prop :=
  ∀ i j, l.Rel i j → l'.Rel i j

end Links

/-! ## Transports -/

/-- Whether a stream is looked at; control streams always are. -/
def View.Sees (v : View) : Channel → Ssrc → Prop
  | .control, _ => True
  | .media, ssrc => v.ssrc ≠ 0 ∧ ssrc = v.ssrc

namespace QueueTransport

/-- Streams that are looked at are the same, and others refuse to be opened and closed as well. -/
structure Agree (v : View) (t u : QueueTransport) : Prop where
  refusesOpen : ∀ ch, (t.channel ch).refusesOpen = (u.channel ch).refusesOpen
  refusesClose : ∀ ch ssrc, (t.stream ch ssrc).refusesClose = (u.stream ch ssrc).refusesClose
  stream : ∀ ch ssrc, v.Sees ch ssrc → t.stream ch ssrc = u.stream ch ssrc

namespace Agree

variable {v : View} {t u : QueueTransport} {α : Type} {ch : Channel} {ssrc : Ssrc}

theorem symm (h : t.Agree v u) : u.Agree v t :=
  ⟨fun ch => (h.refusesOpen ch).symm, fun ch ssrc => (h.refusesClose ch ssrc).symm,
    fun ch ssrc hs => (h.stream ch ssrc hs).symm⟩

/-- The same is done to a stream of both transports. -/
theorem onStream (h : t.Agree v u) (ch : Channel) (ssrc : Ssrc) {f : QueueStream → QueueStream × α}
    (hf : ∀ s s' : QueueStream, s.refusesClose = s'.refusesClose → (f s).1.refusesClose = (f s').1.refusesClose) :
    (t.onStream ch ssrc f).1.Agree v (u.onStream ch ssrc f).1 := by
  refine ⟨fun ch' => ?_, fun ch' ssrc' => ?_, fun ch' ssrc' hs => ?_⟩
  · rw [refusesOpen_onStream, refusesOpen_onStream]
    exact h.refusesOpen ch'
  · by_cases he : ch' = ch ∧ ssrc' = ssrc
    · obtain ⟨rfl, rfl⟩ := he
      rw [stream_onStream_self, stream_onStream_self]
      exact hf _ _ (h.refusesClose ch' ssrc')
    · rw [stream_onStream_of_ne _ _ _ _ he, stream_onStream_of_ne _ _ _ _ he]
      exact h.refusesClose ch' ssrc'
  · by_cases he : ch' = ch ∧ ssrc' = ssrc
    · obtain ⟨rfl, rfl⟩ := he
      rw [stream_onStream_self, stream_onStream_self, h.stream ch' ssrc' hs]
    · rw [stream_onStream_of_ne _ _ _ _ he, stream_onStream_of_ne _ _ _ _ he]
      exact h.stream ch' ssrc' hs

/-- Something is done to a stream that is not looked at. -/
theorem onStream_left (h : t.Agree v u) (hs : ¬ v.Sees ch ssrc) {f : QueueStream → QueueStream × α}
    (hf : ∀ s : QueueStream, (f s).1.refusesClose = s.refusesClose) : (t.onStream ch ssrc f).1.Agree v u := by
  refine ⟨fun ch' => ?_, fun ch' ssrc' => ?_, fun ch' ssrc' hs' => ?_⟩
  · rw [refusesOpen_onStream]
    exact h.refusesOpen ch'
  · by_cases he : ch' = ch ∧ ssrc' = ssrc
    · obtain ⟨rfl, rfl⟩ := he
      rw [stream_onStream_self, hf]
      exact h.refusesClose ch' ssrc'
    · rw [stream_onStream_of_ne _ _ _ _ he]
      exact h.refusesClose ch' ssrc'
  · have he : ¬ (ch' = ch ∧ ssrc' = ssrc) := by
      rintro ⟨rfl, rfl⟩
      exact hs hs'
    rw [stream_onStream_of_ne _ _ _ _ he]
    exact h.stream ch' ssrc' hs'

theorem push (h : t.Agree v u) (ch : Channel) (ssrc : Ssrc) (d : Datagram) :
    (t.push ch ssrc d).1.Agree v (u.push ch ssrc d).1 := by
  apply h.onStream ch ssrc
  intro s s' hs
  unfold QueueStream.push
  split <;> split <;> exact hs

theorem push_left (h : t.Agree v u) (hs : ¬ v.Sees ch ssrc) (d : Datagram) : (t.push ch ssrc d).1.Agree v u := by
  apply h.onStream_left hs
  intro s
  unfold QueueStream.push
  split <;> rfl

theorem close (h : t.Agree v u) (ch : Channel) (ssrc : Ssrc) :
    (t.closeStream ch ssrc).1.Agree v (u.closeStream ch ssrc).1 := by
  apply h.onStream ch ssrc
  intro s s' hs
  unfold QueueStream.close
  dsimp only
  split <;> split <;> exact hs

theorem close_left (h : t.Agree v u) (hs : ¬ v.Sees ch ssrc) : (t.closeStream ch ssrc).1.Agree v u := by
  apply h.onStream_left hs
  intro s
  unfold QueueStream.close
  dsimp only
  split <;> rfl

theorem refusesClose_read (s : QueueStream) (n : Nat) : (s.read n).1.refusesClose = s.refusesClose := by
  rcases s.read_cases n with ⟨-, h⟩ | ⟨-, -, h⟩ | ⟨d, -, -, h⟩ <;> rw [h]

theorem readStream (h : t.Agree v u) (ch : Channel) (ssrc : Ssrc) (n : Nat) :
    (t.readStream ch ssrc n).1.Agree v (u.readStream ch ssrc n).1 :=
  h.onStream ch ssrc fun s s' hs => by rw [refusesClose_read, refusesClose_read, hs]

theorem readStream_left (h : t.Agree v u) (hs : ¬ v.Sees ch ssrc) (n : Nat) :
    (t.readStream ch ssrc n).1.Agree v u :=
  h.onStream_left hs fun s => refusesClose_read s n

theorem refuseClose (h : t.Agree v u) (ch : Channel) (ssrc : Ssrc) (b : Bool) :
    (t.refuseClose ch ssrc b).Agree v (u.refuseClose ch ssrc b) :=
  h.onStream ch ssrc fun _ _ _ => rfl

/-- What is changed is not the streams. -/
theorem setChannel (h : t.Agree v u) (ch : Channel) {c d : QueueChannel} (hc : c.streams = (t.channel ch).streams)
    (hd : d.streams = (u.channel ch).streams) (hr : c.refusesOpen = d.refusesOpen) :
    (t.setChannel ch c).Agree v (u.setChannel ch d) := by
  refine ⟨fun ch' => ?_, fun ch' ssrc' => ?_, fun ch' ssrc' hs => ?_⟩
  · by_cases he : ch' = ch
    · subst he
      rw [channel_setChannel_self, channel_setChannel_self, hr]
    · rw [channel_setChannel_of_ne _ _ he, channel_setChannel_of_ne _ _ he]
      exact h.refusesOpen ch'
  · rw [stream_setChannel_of_streams_eq _ _ _ hc, stream_setChannel_of_streams_eq _ _ _ hd]
    exact h.refusesClose ch' ssrc'
  · rw [stream_setChannel_of_streams_eq _ _ _ hc, stream_setChannel_of_streams_eq _ _ _ hd]
    exact h.stream ch' ssrc' hs

theorem refuseOpen (h : t.Agree v u) (ch : Channel) (ssrc : Ssrc) :
    (t.refuseOpen ch ssrc).Agree v (u.refuseOpen ch ssrc) :=
  h.setChannel ch rfl rfl (congrArg (ssrc :: ·) (h.refusesOpen ch))

/-- A receiver does the same with transports that agree. -/
theorem alike (v : View) : Alike (QueueTransport.Agree v) where
  openStream := by
    intro t u ch ssrc h
    show Same _ (t.openStream ch ssrc) (u.openStream ch ssrc)
    unfold QueueTransport.openStream
    dsimp only
    rw [h.refusesOpen ch]
    split
    · exact .mk h _
    · refine .mk (h.setChannel ch ?_ ?_ ?_) _ <;> rfl
  closeStream := by
    intro t u ch ssrc h
    have he : (t.closeStream ch ssrc).2 = (u.closeStream ch ssrc).2 := by
      unfold closeStream
      rw [onStream_snd, onStream_snd]
      unfold QueueStream.close
      dsimp only
      rw [h.refusesClose ch ssrc]
      split <;> rfl
    exact ⟨_, _, _, rfl, Prod.ext rfl he.symm, h.close ch ssrc⟩

end Agree

end QueueTransport

/-! ## Outbound tracks -/

/-- The writer that a track is bound to. -/
def Outbound.writer? : Outbound → Option String
  | .static t => t.writer
  | .refusing _ _ => none

namespace Egress

/-- Linked tracks are the same, and so is the state of their writers; what they have written may differ. -/
structure Agree (v : View) (l : Links) (e f : Egress) : Prop where
  track : ∀ i j, l.Rel i j → ∃ o, e.tracks[i]? = some o ∧ f.tracks[j]? = some o
    ∧ ∀ name, o.writer? = some name → name ∉ v.writers
  closed : ∀ name ∉ v.writers, (e.writer name).closed = (f.writer name).closed
  failing : ∀ name ∉ v.writers, (e.writer name).failing = (f.writer name).failing

namespace Agree

variable {v : View} {l : Links} {e f : Egress}

theorem symm (h : e.Agree v l f) : f.Agree v l.symm e := by
  refine ⟨fun i j hl => ?_, fun name hn => (h.closed name hn).symm, fun name hn => (h.failing name hn).symm⟩
  obtain ⟨o, he, hf, hw⟩ := h.track j i hl
  exact ⟨o, hf, he, hw⟩

/-- A packet has the same fate at linked tracks. -/
theorem fate (h : e.Agree v l f) {i j : Nat} (hl : l.Rel i j) (p : Rtp.Packet) : e.fate i p = f.fate j p := by
  obtain ⟨o, he, hf, hw⟩ := h.track i j hl
  unfold Egress.fate
  rw [he, hf]
  cases o with
  | refusing s cause => rfl
  | static t =>
    dsimp only
    cases ht : t.writer with
    | none => rfl
    | some name =>
      have hn := hw name ht
      dsimp only
      rw [h.closed name hn, h.failing name hn]

/-- What is written changes only what has been written. -/
theorem write_left (h : e.Agree v l f) (i : Nat) (p : Rtp.Packet) : (e.write i p).1.Agree v l f := by
  have flags : ∀ (w : Writer) (p : Rtp.Packet),
      (w.write p).1.closed = w.closed ∧ (w.write p).1.failing = w.failing := by
    intro w p
    unfold Writer.write
    split
    · exact ⟨rfl, rfl⟩
    · split <;> exact ⟨rfl, rfl⟩
  have written : ∀ name p, (e.setWriter name ((e.writer name).write p).1).Agree v l f := by
    intro name p
    refine ⟨h.track, fun name' hn => ?_, fun name' hn => ?_⟩
    · by_cases he : name' = name
      · rw [he, writer_setWriter_self, (flags _ _).1, ← he]
        exact h.closed name' hn
      · rw [writer_setWriter_of_ne _ _ he]
        exact h.closed name' hn
    · by_cases he : name' = name
      · rw [he, writer_setWriter_self, (flags _ _).2, ← he]
        exact h.failing name' hn
      · rw [writer_setWriter_of_ne _ _ he]
        exact h.failing name' hn
  unfold Egress.write
  split
  · split
    · exact h
    · exact written _ _
  · exact h
  · exact h

theorem forward_left (h : e.Agree v l f) (r : Forwarder) (rid : String) (p : Rtp.Packet) :
    (r.forward e rid p).1.Agree v l f := by
  unfold Forwarder.forward
  split
  · exact h
  · exact h.write_left _ _

theorem forward (h : e.Agree v l f) (r r' : Forwarder) (rid : String) (p : Rtp.Packet) :
    (r.forward e rid p).1.Agree v l (r'.forward f rid p).1 :=
  ((h.forward_left r rid p).symm.forward_left r' rid p).symm

/-- Links are between tracks that are there. -/
theorem lt_left (h : e.Agree v l f) {i j : Nat} (hl : l.Rel i j) : i < e.tracks.length := by
  obtain ⟨o, he, -, -⟩ := h.track i j hl
  exact (List.getElem?_eq_some_iff.mp he).1

/-- The next track of one side has no links. -/
theorem next_left (h : e.Agree v l f) (j : Nat) : ¬ l.Rel e.tracks.length j :=
  fun hl => Nat.lt_irrefl _ (h.lt_left hl)

theorem next_right (h : e.Agree v l f) (i : Nat) : ¬ l.Rel i f.tracks.length :=
  h.symm.next_left i

/-- A track is added to one side. -/
theorem addTrack_left (h : e.Agree v l f) (o : Outbound) : (e.addTrack o).Agree v l f := by
  refine { h with track := fun i j hl => ?_ }
  obtain ⟨o', he, hf, hw⟩ := h.track i j hl
  exact ⟨o', (List.getElem?_append_left (h.lt_left hl)).trans he, hf, hw⟩

/-- A track is added to both sides. -/
theorem addTrack (h : e.Agree v l f) {o : Outbound} (ho : ∀ name, o.writer? = some name → name ∉ v.writers) :
    (e.addTrack o).Agree v (l.add h.next_left h.next_right) (f.addTrack o) := by
  have hef := ((h.addTrack_left o).symm.addTrack_left o).symm
  refine { hef with track := fun i j hl => ?_ }
  rcases hl with hl | ⟨rfl, rfl⟩
  · exact hef.track i j hl
  · exact ⟨o, List.getElem?_concat_length, List.getElem?_concat_length, ho⟩

/-- A track without a link is bound. -/
theorem bind_left (h : e.Agree v l f) {i : Nat} (hi : ∀ j, ¬ l.Rel i j) (writer : Option String) :
    (e.bind i writer).Agree v l f := by
  refine { h with track := fun i' j hl => ?_ }
  obtain ⟨o, he, hf, hw⟩ := h.track i' j hl
  refine ⟨o, ?_, hf, hw⟩
  have hne : i ≠ i' := fun he => hi j (he ▸ hl)
  simp only [Egress.bind, List.getElem?_modify, if_neg hne, he]
  rfl

/-- Linked tracks are bound. -/
theorem bind (h : e.Agree v l f) {i j : Nat} (hij : l.Rel i j) {writer : Option String}
    (hn : ∀ name, writer = some name → name ∉ v.writers) : (e.bind i writer).Agree v l (f.bind j writer) := by
  refine { h with track := fun i' j' hl => ?_ }
  obtain ⟨o, he, hf, hw⟩ := h.track i' j' hl
  simp only [Egress.bind, List.getElem?_modify, he, hf, Option.map_eq_map, Option.map_some]
  by_cases hi : i = i'
  · obtain rfl := hi
    obtain rfl := l.functional hij hl
    rw [if_pos rfl, if_pos rfl]
    refine ⟨_, rfl, rfl, ?_⟩
    cases o with
    | static t => exact hn
    | refusing s cause => exact hw
  · have hj : j ≠ j' := fun hj => hi (l.injective hij (hj ▸ hl))
    rw [if_neg hi, if_neg hj]
    exact ⟨o, rfl, rfl, hw⟩

/-- A writer is stored that is not looked at. -/
theorem setWriter_left (h : e.Agree v l f) {name : String} (hn : name ∈ v.writers) (w : Writer) :
    (e.setWriter name w).Agree v l f := by
  have hne : ∀ name' ∉ v.writers, name' ≠ name := fun name' hn' he => hn' (he ▸ hn)
  refine ⟨h.track, fun name' hn' => ?_, fun name' hn' => ?_⟩
  · rw [writer_setWriter_of_ne _ _ (hne name' hn')]
    exact h.closed name' hn'
  · rw [writer_setWriter_of_ne _ _ (hne name' hn')]
    exact h.failing name' hn'

/-- Writers are stored that are in the same state. -/
theorem setWriter (h : e.Agree v l f) (name : String) {w w' : Writer}
    (hc : name ∉ v.writers → w.closed = w'.closed) (hf : name ∉ v.writers → w.failing = w'.failing) :
    (e.setWriter name w).Agree v l (f.setWriter name w') := by
  refine ⟨h.track, fun name' hn => ?_, fun name' hn => ?_⟩
  · by_cases he : name' = name
    · rw [he, writer_setWriter_self, writer_setWriter_self]
      exact hc (he ▸ hn)
    · rw [writer_setWriter_of_ne _ _ he, writer_setWriter_of_ne _ _ he]
      exact h.closed name' hn
  · by_cases he : name' = name
    · rw [he, writer_setWriter_self, writer_setWriter_self]
      exact hf (he ▸ hn)
    · rw [writer_setWriter_of_ne _ _ he, writer_setWriter_of_ne _ _ he]
      exact h.failing name' hn

end Agree

end Egress

end MediaRelay
