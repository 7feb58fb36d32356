import MediaRelay.Proofs.Addressing
import MediaRelay.Proofs.Replay
import MediaRelay.Secure.Link

/-!
# Sorting into streams

What an inbox does, as seen from one SSRC. `Inbox.streamFor` is the stream that an SSRC has, or would have if it had
one, so that making a stream changes nothing. As long as the inbox does not stall, a datagram goes to the streams of
exactly the SSRCs that it is for (`Inbox.deliver_spec`), and other SSRCs have no part in what becomes of the stream of
one (`Inbox.Along`).

- `Inbox.streamOf_spec`, `Inbox.put_spec`, `Inbox.deliver_spec`, `Inbox.close_spec`: what each step does to a stream;
- `Inbox.authenticate_spec`: the reader's part of a `Guard`;
- `Inbox.arrive_eq`: what arrives at an inbox that flows.
-/

namespace MediaRelay

namespace SecureStream

/-- The stream after a datagram was offered to it. -/
def offer (t : SecureStream) (capacity : Nat) (d : Datagram) : SecureStream :=
  match t.write capacity d with
  | .error _ => t
  | .ok u => u

@[simp] theorem ssrc_offer (t : SecureStream) (capacity : Nat) (d : Datagram) : (t.offer capacity d).ssrc = t.ssrc := by
  unfold offer
  split
  · rfl
  · next h =>
    unfold write at h
    split at h
    · cases h
    · split at h
      · cases h
      · cases h
        rfl

/-- An open stream takes a datagram that it has room for. -/
theorem offer_of_room {t : SecureStream} {capacity : Nat} {d : Datagram} (hc : t.closed = false)
    (h : t.size + d.length + 2 ≤ capacity) : t.offer capacity d = { t with accepted := t.accepted ++ [d] } := by
  simp [offer, write, hc, Nat.not_lt.mpr h]

end SecureStream

namespace Inbox

variable {b c : Inbox} {s k : Ssrc} {id : Nat} {t : SecureStream} {g : Guard}

/-! ## Streams and their numbers -/

/-- The SSRC that the stream of a number was made for. -/
def ssrcOf (b : Inbox) (id : Nat) : Option Ssrc :=
  b.streams[id]?.map (·.ssrc)

/-- What is registered for an SSRC is a stream that was made for it. -/
def Sound (b : Inbox) : Prop :=
  ∀ k id, b.registered.find? k = some id → b.ssrcOf id = some k

/-- The stream that an SSRC has, or would have. -/
def streamFor (b : Inbox) (s : Ssrc) : SecureStream :=
  ((b.registered.find? s).bind (b.streams[·]?)).getD { ssrc := s }

theorem streamFor_of_registered (hid : b.registered.find? s = some id) (ht : b.streams[id]? = some t) :
    b.streamFor s = t := by
  rw [streamFor, hid, Option.bind_some, ht, Option.getD_some]

theorem streamFor_of_none (h : b.registered.find? s = none) : b.streamFor s = { ssrc := s } := by
  rw [streamFor, h]
  rfl

theorem Sound.streams (hb : b.Sound) (hid : b.registered.find? s = some id) :
    b.streams[id]? = some (b.streamFor s) ∧ (b.streamFor s).ssrc = s := by
  obtain ⟨t, ht, hs⟩ := Option.map_eq_some_iff.mp (hb s id hid)
  rw [streamFor_of_registered hid ht]
  exact ⟨ht, hs⟩

/-- Streams keep the SSRC that they were made for, and an SSRC keeps its stream. -/
structure Keeps (s : Ssrc) (b c : Inbox) : Prop where
  numbered : ∀ id k, b.ssrcOf id = some k → c.ssrcOf id = some k
  registered : ∀ id, b.registered.find? s = some id → c.registered.find? s = some id

theorem Keeps.refl (s : Ssrc) (b : Inbox) : b.Keeps s b :=
  ⟨fun _ _ h => h, fun _ h => h⟩

theorem Keeps.trans {d : Inbox} (h : Keeps s b c) (h' : Keeps s c d) : Keeps s b d where
  numbered id k hk := h'.numbered id k (h.numbered id k hk)
  registered id hid := h'.registered id (h.registered id hid)

theorem Sound.ssrc_streamFor (hb : b.Sound) (k : Ssrc) : (b.streamFor k).ssrc = k := by
  cases hk : b.registered.find? k with
  | none => rw [streamFor_of_none hk]
  | some id => exact (hb.streams hk).2

/-- The second inbox is the first after steps that, as far as an SSRC is concerned, can have touched nothing but its
stream. -/
structure Along (s : Ssrc) (b c : Inbox) : Prop extends Keeps s b c where
  sound : c.Sound
  channel : c.channel = b.channel
  finished : c.finished = b.finished
  backlog : c.backlog = b.backlog
  windows : c.windows = b.windows
  indices : c.indices = b.indices

theorem Along.refl (hb : b.Sound) : b.Along s b :=
  ⟨.refl s b, hb, rfl, rfl, rfl, rfl, rfl⟩

theorem Along.trans {d : Inbox} (h : Along s b c) (h' : Along s c d) : Along s b d where
  toKeeps := h.toKeeps.trans h'.toKeeps
  sound := h'.sound
  channel := h'.channel.trans h.channel
  finished := h'.finished.trans h.finished
  backlog := h'.backlog.trans h.backlog
  windows := h'.windows.trans h.windows
  indices := h'.indices.trans h.indices

theorem capacity_of_channel (h : c.channel = b.channel) : c.capacity = b.capacity := by
  rw [capacity, h]
  rfl

/-! ## Making and changing a stream -/

/-- The stream of an SSRC is found or made; no stream is changed by that. -/
theorem streamOf_spec (hb : b.Sound) (k s : Ssrc) :
    b.Along s (b.streamOf k).1 ∧ (b.streamOf k).1.streamFor s = b.streamFor s
      ∧ (b.streamOf k).1.registered.find? k = some (b.streamOf k).2.1
      ∧ (b.streamOf k).1.stalled = b.stalled := by
  unfold streamOf
  cases hk : b.registered.find? k with
  | some id => exact ⟨.refl hb, rfl, hk, rfl⟩
  | none =>
    have hold : ∀ id, id < b.streams.length → (b.streams ++ [{ ssrc := k : SecureStream }])[id]? = b.streams[id]? :=
      fun id h => List.getElem?_append_left h
    have hlt : ∀ l id, b.ssrcOf id = some l → id < b.streams.length := fun l id h => by
      obtain ⟨t, ht, -⟩ := Option.map_eq_some_iff.mp h
      exact (List.getElem?_eq_some_iff.mp ht).1
    have hnew : (b.streams ++ [{ ssrc := k : SecureStream }])[b.streams.length]? = some { ssrc := k } := by simp
    dsimp only
    refine ⟨⟨⟨fun id l h => ?_, fun id h => ?_⟩, fun l id h => ?_, rfl, rfl, rfl, rfl, rfl⟩, ?_, ?_, rfl⟩
    · rw [ssrcOf, hold id (hlt l id h)]
      exact h
    · have hs : s ≠ k := fun hs => by
        rw [hs, hk] at h
        cases h
      rw [Table.find?_insert_of_ne _ _ hs]
      exact h
    · by_cases hl : l = k
      · subst hl
        rw [Table.find?_insert_self] at h
        cases h
        simp [ssrcOf]
      · rw [Table.find?_insert_of_ne _ _ hl] at h
        have := hb l id h
        rw [ssrcOf, hold id (hlt l id this)]
        exact this
    · by_cases hs : s = k
      · subst hs
        rw [streamFor_of_none hk]
        exact streamFor_of_registered (Table.find?_insert_self _ _ _) hnew
      · unfold streamFor
        rw [Table.find?_insert_of_ne _ _ hs]
        cases hid : b.registered.find? s with
        | none => rfl
        | some id =>
          rw [Option.bind_some, Option.bind_some, hold id (hlt s id (hb s id hid))]
    · exact Table.find?_insert_self _ _ _

/-- Puts a stream in the place of the one with a number. -/
def put (b : Inbox) (id : Nat) (t : SecureStream) : Inbox :=
  { b with streams := b.streams.set id t }

theorem put_self (ht : b.streams[id]? = some t) : b.put id t = b := by
  obtain ⟨hlt, rfl⟩ := List.getElem?_eq_some_iff.mp ht
  rw [put, List.set_getElem_self]

/-- A stream is replaced by another for the same SSRC. -/
theorem put_spec (hb : b.Sound) (hid : b.ssrcOf id = some k) (ht : t.ssrc = k) (s : Ssrc) :
    b.Along s (b.put id t) ∧ (s ≠ k → (b.put id t).streamFor s = b.streamFor s)
      ∧ (b.registered.find? k = some id → (b.put id t).streamFor k = t) := by
  obtain ⟨u, hu, hk⟩ := Option.map_eq_some_iff.mp hid
  have hlt := (List.getElem?_eq_some_iff.mp hu).1
  have hssrc : ∀ i l, b.ssrcOf i = some l → (b.put id t).ssrcOf i = some l := fun i l h => by
    by_cases hi : i = id
    · subst hi
      rw [hid] at h
      cases h
      simp [ssrcOf, put, hlt, ht]
    · rw [ssrcOf, put, List.getElem?_set_ne (Ne.symm hi)]
      exact h
  refine ⟨⟨⟨hssrc, fun _ h => h⟩, fun l i h => hssrc i l (hb l i h), rfl, rfl, rfl, rfl, rfl⟩, fun hs => ?_,
    fun h => ?_⟩
  · unfold streamFor put
    cases hi : b.registered.find? s with
    | none => rfl
    | some i =>
      have hne : id ≠ i := fun hne => by
        have := hb s i hi
        rw [← hne, hid] at this
        exact hs (Option.some.inj this).symm
      rw [Option.bind_some, Option.bind_some, List.getElem?_set_ne hne]
  · exact streamFor_of_registered h (by simp [put, hlt])

/-! ## Delivery -/

theorem along_claim (hb : b.Sound) (s : Ssrc) : b.Along s b.claim ∧ b.claim.streamFor s = b.streamFor s := by
  unfold claim
  split <;> exact ⟨⟨⟨fun _ _ h => h, fun _ h => h⟩, hb, rfl, rfl, rfl, rfl, rfl⟩, rfl⟩

/-- What the delivery of a datagram does first: the stream of an SSRC is made if there is none, and taken notice of. -/
def enroll (b : Inbox) (k : Ssrc) : Inbox :=
  if (b.streamOf k).2.2 then (b.streamOf k).1.claim else (b.streamOf k).1

theorem enroll_spec (hb : b.Sound) (k s : Ssrc) :
    b.Along s (b.enroll k) ∧ (b.enroll k).streamFor s = b.streamFor s
      ∧ (b.enroll k).registered.find? k = some (b.streamOf k).2.1 := by
  obtain ⟨ha, hs, hk, -⟩ := streamOf_spec hb k s
  unfold enroll
  split
  · obtain ⟨hc, hcs⟩ := along_claim ha.sound s
    exact ⟨ha.trans hc, hcs.trans hs, (along_claim ha.sound k).1.registered _ hk⟩
  · exact ⟨ha, hs, hk⟩

/-- Delivery to an inbox that does not stall at the first SSRC. -/
theorem deliver_cons (hb : b.Sound) {k : Ssrc} {ks : List Ssrc} {d : Datagram} (h : (b.enroll k).stalled = false) :
    b.deliver d (k :: ks)
      = ((b.enroll k).put (b.streamOf k).2.1 ((b.streamFor k).offer b.capacity d)).deliver d ks := by
  obtain ⟨ha, hs, hk⟩ := enroll_spec hb k k
  obtain ⟨hstream, -⟩ := ha.sound.streams hk
  have hcap := capacity_of_channel ha.channel
  rw [hs] at hstream
  have henroll : b.enroll k = if (b.streamOf k).2.2 then (b.streamOf k).1.claim else (b.streamOf k).1 := rfl
  conv => lhs; unfold deliver
  generalize hr : b.streamOf k = r at *
  obtain ⟨c, id, isNew⟩ := r
  dsimp only at henroll hstream ⊢
  rw [← henroll, if_neg (by rw [h]; exact Bool.false_ne_true), hstream, SecureStream.offer]
  dsimp only
  rw [hcap]
  cases hw : (b.streamFor k).write b.capacity d with
  | ok u => rfl
  | error f =>
    dsimp only
    rw [put_self hstream]

/-- Delivery ends where the inbox stalls. -/
theorem deliver_of_stalled {k : Ssrc} (h : (b.enroll k).stalled = true) (d : Datagram) (ks : List Ssrc) :
    b.deliver d (k :: ks) = b.enroll k := by
  unfold deliver
  exact if_pos h

/-- A datagram goes to the streams of exactly the SSRCs that it is for, unless the inbox stalls. -/
theorem deliver_spec (hb : b.Sound) {d : Datagram} {ks : List Ssrc} (hks : ks.Nodup)
    (h : (b.deliver d ks).stalled = false) (s : Ssrc) :
    b.Along s (b.deliver d ks)
      ∧ (b.deliver d ks).streamFor s = if s ∈ ks then (b.streamFor s).offer b.capacity d else b.streamFor s := by
  induction ks generalizing b with
  | nil => exact ⟨.refl hb, rfl⟩
  | cons k ks ih =>
    obtain ⟨hk, hks⟩ := List.nodup_cons.mp hks
    obtain ⟨ha, hs, -⟩ := enroll_spec hb k s
    obtain ⟨-, -, hreg⟩ := enroll_spec hb k k
    have hflow : (b.enroll k).stalled = false := by
      cases hst : (b.enroll k).stalled with
      | false => rfl
      | true => rwa [deliver_of_stalled hst, hst] at h
    rw [deliver_cons hb hflow] at h ⊢
    have hssrc : ((b.streamFor k).offer b.capacity d).ssrc = k := by rw [SecureStream.ssrc_offer, hb.ssrc_streamFor]
    obtain ⟨hset, hother, hself⟩ := put_spec ha.sound (ha.sound k _ hreg) hssrc s
    obtain ⟨hrest, hstream⟩ := ih hset.sound hks h
    refine ⟨ha.trans (hset.trans hrest), ?_⟩
    rw [hstream, capacity_of_channel (hset.channel.trans ha.channel)]
    by_cases hsk : s = k
    · subst hsk
      rw [if_neg hk, if_pos List.mem_cons_self, hself hreg]
    · rw [hother hsk, hs]
      simp [hsk]

/-! ## Reading and closing -/

theorem read_spec (hb : b.Sound) (hid : b.ssrcOf id = some k) (n : Nat) (s : Ssrc) :
    b.Along s (b.readStream id n).1 ∧ (b.readStream id n).1.stalled = b.stalled
      ∧ (s ≠ k → (b.readStream id n).1.streamFor s = b.streamFor s)
      ∧ (b.registered.find? k = some id → (b.readStream id n).1.streamFor k = ((b.streamFor k).read n).1
        ∧ (b.readStream id n).2 = ((b.streamFor k).read n).2) := by
  obtain ⟨u, hu, hk⟩ := Option.map_eq_some_iff.mp hid
  have hssrc : (u.read n).1.ssrc = k := by
    unfold SecureStream.read
    split <;> exact hk
  obtain ⟨ha, hother, hself⟩ := put_spec hb hid hssrc s
  unfold readStream
  rw [hu]
  refine ⟨ha, rfl, hother, fun hreg => ?_⟩
  rw [streamFor_of_registered hreg hu]
  exact ⟨hself hreg, rfl⟩

/-- Another SSRC is forgotten while the inbox flows. -/
theorem forget_spec (hb : b.Sound) (hs : s ≠ k) (hst : b.stalled = false) (hlog : b.backlog = []) :
    b.Along s (b.forget k) ∧ (b.forget k).stalled = false ∧ (b.forget k).streamFor s = b.streamFor s := by
  unfold forget
  split
  · exact ⟨.refl hb, hst, rfl⟩
  · rw [hlog, take]
    refine ⟨⟨⟨fun _ _ h => h, fun i h => ?_⟩, fun l i h => hb l i (Table.find?_of_erase h), rfl, rfl, hlog.symm, rfl,
      rfl⟩, rfl, ?_⟩
    · rwa [Table.find?_erase_of_ne _ hs]
    · unfold streamFor
      rw [Table.find?_erase_of_ne _ hs]

/-- The stream of another SSRC is closed while the inbox flows. -/
theorem close_spec (hb : b.Sound) (hid : b.ssrcOf id = some k) (hs : s ≠ k) (hst : b.stalled = false)
    (hlog : b.backlog = []) :
    b.Along s (b.closeStream id) ∧ (b.closeStream id).stalled = false
      ∧ (b.closeStream id).streamFor s = b.streamFor s := by
  obtain ⟨u, hu, hk⟩ := Option.map_eq_some_iff.mp hid
  obtain ⟨ha, hother, -⟩ := put_spec hb hid (show ({ u with closed := true } : SecureStream).ssrc = k from hk) s
  obtain ⟨hf, hfst, hfs⟩ := forget_spec ha.sound hs hst hlog
  have hclose : b.closeStream id = (b.put id { u with closed := true }).forget k := by
    rw [closeStream, hu, ← hk]
    rfl
  rw [hclose]
  exact ⟨ha.trans hf, hfst, hfs.trans (hother hs)⟩

/-! ## Judgement -/

/-- The reader's part of what is known about an SSRC. -/
def Knows (b : Inbox) (s : Ssrc) (g : Guard) : Prop :=
  b.windows.find? s = g.window ∧ b.indices.find? s = g.reader

/-- A media packet of an SSRC that arrives is judged as its guard says, and leaves others alone. -/
theorem authenticate_spec (hb : b.Knows s g) (seq : UInt16) (d : Datagram) :
    (b.authenticate s seq (PacketIndex.next g.writer seq).wraps).2 = g.lets seq
      ∧ (b.authenticate s seq (PacketIndex.next g.writer seq).wraps).1.Knows s (g.after ⟨seq, d, true⟩) := by
  obtain ⟨hw, hi⟩ := hb
  unfold authenticate Guard.after Guard.lets Guard.windowFor
  rw [hw, hi]
  dsimp only
  cases ha : (g.window.getD (.before seq)).admits seq with
  | false =>
    have hsome : g.window = some (g.window.getD (.before seq)) := by
      cases hg : g.window with
      | some w => rfl
      | none =>
        rw [hg, Option.getD_none, ReplayWindow.admits_before] at ha
        cases ha
    refine ⟨rfl, ?_, hi⟩
    simpa [hw] using hsome
  | true =>
    by_cases hwraps : (PacketIndex.next g.reader seq).wraps = (PacketIndex.next g.writer seq).wraps
    · simp [hwraps, Knows]
    · simp [hwraps, Knows, hi]

theorem authenticate_of_ne (hb : b.Knows s g) (hs : s ≠ k) (seq : UInt16) (wraps : Nat) :
    (b.authenticate k seq wraps).1.Knows s g := by
  unfold authenticate
  dsimp only
  split
  · exact hb
  · split
    · exact ⟨by rw [Table.find?_insert_of_ne _ _ hs]; exact hb.1, hb.2⟩
    · exact ⟨by rw [Table.find?_insert_of_ne _ _ hs]; exact hb.1, by rw [Table.find?_insert_of_ne _ _ hs]; exact hb.2⟩

/-- Judging a packet only changes what is known about SSRCs. -/
theorem exists_authenticate (b : Inbox) (k : Ssrc) (seq : UInt16) (wraps : Nat) :
    ∃ w i, (b.authenticate k seq wraps).1 = { b with windows := w, indices := i } := by
  unfold authenticate
  dsimp only
  split
  · exact ⟨_, _, rfl⟩
  · split <;> exact ⟨_, _, rfl⟩

theorem judge_media {m : Protected} {p : Rtp.Packet} (hch : b.channel = .media)
    (hm : Rtp.decodeHeader m.datagram = .ok p) :
    (b.judge m).1 = (b.authenticate p.ssrc p.sequence m.wraps).1
      ∧ (b.judge m).2 = if (b.authenticate p.ssrc p.sequence m.wraps).2 then [p.ssrc] else [] := by
  unfold judge
  rw [hch]
  dsimp only
  rw [hm]
  dsimp only
  split
  · next h => rw [h]; exact ⟨rfl, rfl⟩
  · next h => rw [h]; exact ⟨rfl, rfl⟩

theorem nodup_eraseDups : ∀ l : List Ssrc, l.eraseDups.Nodup
  | [] => List.nodup_nil
  | a :: l => by
    rw [List.eraseDups_cons, List.nodup_cons]
    exact ⟨fun h => by simpa using List.mem_eraseDups.mp h, nodup_eraseDups _⟩
termination_by l => l.length
decreasing_by exact Nat.lt_succ_of_le (List.length_filter_le _ _)

theorem judge_control {m : Protected} (hch : b.channel = .control) :
    (b.judge m).1 = b ∧ (b.judge m).2.Nodup ∧ ∀ s, s ∈ (b.judge m).2 ↔ s ∈ Rtcp.addressees m.datagram := by
  unfold judge Rtcp.addressees
  rw [hch]
  cases Rtcp.decode m.datagram with
  | error f => exact ⟨rfl, List.nodup_nil, fun _ => Iff.rfl⟩
  | ok ps => exact ⟨rfl, nodup_eraseDups _, fun _ => List.mem_eraseDups⟩

/-- Judging a datagram only changes what is known about SSRCs. -/
theorem exists_judge (b : Inbox) (m : Protected) :
    (∃ w i, (b.judge m).1 = { b with windows := w, indices := i }) ∧ (b.judge m).2.Nodup := by
  obtain hch | hch : b.channel = .control ∨ b.channel = .media := by cases b.channel <;> simp
  · obtain ⟨h, hnodup, -⟩ := judge_control (m := m) hch
    exact ⟨⟨b.windows, b.indices, h⟩, hnodup⟩
  · cases hm : Rtp.decodeHeader m.datagram with
    | error f =>
      have h : b.judge m = (b, []) := by simp [judge, hch, hm]
      exact ⟨⟨b.windows, b.indices, congrArg Prod.fst h⟩, by rw [h]; exact List.nodup_nil⟩
    | ok p =>
      obtain ⟨h, hks⟩ := judge_media hch hm
      rw [h, hks]
      refine ⟨exists_authenticate b _ _ _, ?_⟩
      split
      · simp
      · exact List.nodup_nil

/-- What arrives while the inbox flows is judged and delivered. -/
theorem arrive_eq (hf : b.finished = false) (hst : b.stalled = false) (m : Protected) :
    b.arrive m = (b.judge m).1.deliver m.datagram (b.judge m).2 := by
  simp [arrive, hf, take, hst]

/-- What arrives goes to the streams of exactly the SSRCs that it is judged to be for, unless the inbox stalls. -/
theorem arrive_spec (hb : b.Sound) (hf : b.finished = false) (hst : b.stalled = false) {m : Protected}
    (h : (b.arrive m).stalled = false) (s : Ssrc) :
    (b.judge m).1.Along s (b.arrive m) ∧ b.Keeps s (b.arrive m)
      ∧ (b.arrive m).channel = b.channel ∧ (b.arrive m).finished = b.finished ∧ (b.arrive m).backlog = b.backlog
      ∧ (b.arrive m).streamFor s
        = if s ∈ (b.judge m).2 then (b.streamFor s).offer b.capacity m.datagram else b.streamFor s := by
  obtain ⟨⟨w, i, hjudge⟩, hks⟩ := b.exists_judge m
  rw [arrive_eq hf hst] at h ⊢
  generalize (b.judge m).2 = ks at *
  rw [hjudge] at h ⊢
  obtain ⟨ha, hstream⟩ := @deliver_spec { b with windows := w, indices := i } hb m.datagram ks hks h s
  exact ⟨ha, ⟨ha.numbered, ha.registered⟩, ha.channel, ha.finished, ha.backlog, hstream⟩

theorem arrive_of_finished (hf : b.finished = true) (m : Protected) : b.arrive m = b := by
  simp [arrive, hf]

theorem stalled_arrive (h : b.stalled = true) (m : Protected) : (b.arrive m).stalled = true := by
  unfold arrive
  split
  · exact h
  · simp [take, h]

end Inbox

end MediaRelay
