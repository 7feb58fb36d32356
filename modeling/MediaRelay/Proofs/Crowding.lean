import MediaRelay.Proofs.Listening
import Mathlib.Data.List.Perm.Subperm

/-!
# When an inbox stalls

An inbox stalls when there are more new streams than its queue holds. Only streams that came to be by arrival are new,
so nothing stalls as long as no more than eight SSRCs come up on a channel without having been opened, and no stream is
closed (`SecureSession.never_stalls`).

- `Inbox.Crowd`: the new streams are those of different SSRCs of a list;
- `Inbox.Crowd.deliver`, `SecureLink.crowd_writeMedia`, `SecureLink.crowd_writeControl`: what arrives keeps that.
-/

namespace MediaRelay

namespace Inbox

variable {ch : Channel} {b c : Inbox} {ks ls : List Ssrc} {k : Ssrc}

/-- The inbox of a channel flows, and its new streams are those of different SSRCs of a list. -/
structure Crowd (ch : Channel) (ks : List Ssrc) (b : Inbox) : Prop where
  sound : b.Sound
  channel : b.channel = ch
  flows : b.stalled = false
  made : ∃ made : List Ssrc, made.Nodup ∧ made ⊆ ks ∧ (∀ k ∈ made, b.registered.find? k ≠ none)
    ∧ b.unclaimed = made.length

/-- Every SSRC keeps its stream. -/
def KeepsAll (b c : Inbox) : Prop :=
  ∀ k, b.Keeps k c

theorem KeepsAll.refl (b : Inbox) : b.KeepsAll b :=
  fun k => .refl k b

theorem KeepsAll.trans {d : Inbox} (h : b.KeepsAll c) (h' : c.KeepsAll d) : b.KeepsAll d :=
  fun k => (h k).trans (h' k)

theorem KeepsAll.known (h : b.KeepsAll c) (hk : b.registered.find? k ≠ none) : c.registered.find? k ≠ none := by
  obtain ⟨id, hid⟩ := Option.ne_none_iff_exists'.mp hk
  rw [(h k).registered id hid]
  exact Option.some_ne_none id

theorem Crowd.keep (h : Crowd ch ks b) (hs : c.Sound) (hch : c.channel = b.channel) (hst : c.stalled = b.stalled)
    (hu : c.unclaimed = b.unclaimed) (hk : b.KeepsAll c) : Crowd ch ks c := by
  obtain ⟨made, hnodup, hsub, hreg, hlen⟩ := h.made
  exact ⟨hs, hch.trans h.channel, hst.trans h.flows, made, hnodup, hsub, fun k hm => hk.known (hreg k hm),
    hu.trans hlen⟩

/-- There is room in the queue for the stream of an SSRC of the list. -/
theorem Crowd.enroll (h : Crowd ch ks b) (hks : ks.length ≤ claimLimit) (hk : k ∈ ks ∨ b.registered.find? k ≠ none) :
    Crowd ch ks (b.enroll k) := by
  obtain ⟨made, hnodup, hsub, hreg, hlen⟩ := h.made
  obtain ⟨ha, -, hnew⟩ := enroll_spec h.sound k k
  have hkeeps : b.KeepsAll (b.enroll k) := fun s => (enroll_spec h.sound k s).1.toKeeps
  cases hid : b.registered.find? k with
  | some id =>
    have hsame : b.enroll k = b := by simp [Inbox.enroll, streamOf, hid]
    rwa [hsame]
  | none =>
    have hmem : k ∈ ks := hk.resolve_right fun hne => hne hid
    have hmade : k ∉ made := fun hm => hreg k hm hid
    have hnodup' : (k :: made).Nodup := List.nodup_cons.mpr ⟨hmade, hnodup⟩
    have hsub' : k :: made ⊆ ks := List.cons_subset.mpr ⟨hmem, hsub⟩
    have hroom : made.length < claimLimit :=
      Nat.lt_of_lt_of_le (Nat.lt_of_succ_le (List.subperm_of_subset hnodup' hsub').length_le) hks
    have hclaim : (b.enroll k).stalled = false ∧ (b.enroll k).unclaimed = made.length + 1 := by
      simp [Inbox.enroll, streamOf, hid, claim, hlen, hroom, h.flows]
    refine ⟨ha.sound, ha.channel.trans h.channel, hclaim.1, k :: made, hnodup', hsub', fun l hl => ?_, hclaim.2⟩
    rcases List.mem_cons.mp hl with rfl | hl
    · rw [hnew]
      exact Option.some_ne_none _
    · exact hkeeps.known (hreg l hl)

theorem Crowd.deliver (h : Crowd ch ks b) (hks : ks.length ≤ claimLimit) (d : Datagram)
    (hls : ∀ k ∈ ls, k ∈ ks ∨ b.registered.find? k ≠ none) :
    Crowd ch ks (b.deliver d ls) ∧ b.KeepsAll (b.deliver d ls) := by
  induction ls generalizing b with
  | nil => exact ⟨h, .refl b⟩
  | cons k ls ih =>
    have ha := h.enroll hks (hls k List.mem_cons_self)
    have henroll : b.KeepsAll (b.enroll k) := fun s => (enroll_spec h.sound k s).1.toKeeps
    obtain ⟨-, -, hreg⟩ := enroll_spec h.sound k k
    have hssrc : ((b.streamFor k).offer b.capacity d).ssrc = k := by
      rw [SecureStream.ssrc_offer, h.sound.ssrc_streamFor]
    have hput := fun s => (put_spec ha.sound (ha.sound k _ hreg) hssrc s).1
    have hkeeps : b.KeepsAll ((b.enroll k).put (b.streamOf k).2.1 ((b.streamFor k).offer b.capacity d)) :=
      henroll.trans fun s => (hput s).toKeeps
    rw [deliver_cons h.sound ha.flows]
    obtain ⟨hd, hrest⟩ := ih (ha.keep (hput k).sound rfl rfl rfl fun s => (hput s).toKeeps) fun l hl =>
      (hls l (List.mem_cons_of_mem k hl)).imp_right hkeeps.known
    exact ⟨hd, hkeeps.trans hrest⟩

theorem Crowd.arrive (h : Crowd ch ks b) (hks : ks.length ≤ claimLimit) {m : Protected}
    (hm : ∀ k ∈ (b.judge m).2, k ∈ ks ∨ b.registered.find? k ≠ none) :
    Crowd ch ks (b.arrive m) ∧ b.KeepsAll (b.arrive m) := by
  cases hf : b.finished with
  | true =>
    rw [arrive_of_finished hf]
    exact ⟨h, .refl b⟩
  | false =>
    rw [arrive_eq hf h.flows]
    obtain ⟨⟨w, i, hjudge⟩, -⟩ := b.exists_judge m
    rw [hjudge]
    have hsame : b.KeepsAll { b with windows := w, indices := i } := fun _ => ⟨fun _ _ h => h, fun _ h => h⟩
    obtain ⟨hd, hkeeps⟩ := (h.keep (c := { b with windows := w, indices := i }) h.sound rfl rfl rfl hsame).deliver hks
      m.datagram hm
    exact ⟨hd, hsame.trans hkeeps⟩

end Inbox

namespace SecureLink

variable {l : SecureLink} {ks : List Ssrc} {ch : Channel}

theorem crowd_send (h : (l.inbox ch).Crowd ch ks) (hks : ks.length ≤ Inbox.claimLimit) {m : Protected}
    (hm : ∀ k ∈ ((l.inbox ch).judge m).2, k ∈ ks ∨ (l.inbox ch).registered.find? k ≠ none) :
    ((l.send ch m).1.inbox ch).Crowd ch ks ∧ (l.inbox ch).KeepsAll ((l.send ch m).1.inbox ch) := by
  rw [fst_send]
  split
  · rw [inbox_setInbox_self]
    exact h.arrive hks hm
  · exact ⟨h, .refl _⟩

/-- A media packet is written for an SSRC of the list or one that has a stream. -/
theorem crowd_writeMedia (h : (l.inbox .media).Crowd .media ks) (hks : ks.length ≤ Inbox.claimLimit) {p : Rtp.Packet}
    (hp : p.ssrc ∈ ks ∨ (l.inbox .media).registered.find? p.ssrc ≠ none) :
    ((l.writeMedia p).1.inbox .media).Crowd .media ks
      ∧ (l.inbox .media).KeepsAll ((l.writeMedia p).1.inbox .media) := by
  rw [fst_writeMedia]
  cases hd : Rtp.encode p with
  | error f => exact ⟨h, .refl _⟩
  | ok d =>
    cases hh : Rtp.decodeHeader d with
    | error f => simpa [Except.isOk, Except.toBool, hh] using ⟨h, Inbox.KeepsAll.refl _⟩
    | ok header =>
      obtain ⟨-, hj⟩ := Inbox.judge_media (m := ⟨d, (l.indexFor p).wraps⟩) h.channel hh
      rw [(Rtp.header_of_encode hd hh).1] at hj
      have hm : ∀ k ∈ ((l.inbox .media).judge ⟨d, (l.indexFor p).wraps⟩).2,
          k ∈ ks ∨ (l.inbox .media).registered.find? k ≠ none := fun k hk => by
        rw [hj] at hk
        split at hk
        · rw [List.mem_singleton.mp hk]
          exact hp
        · exact absurd hk List.not_mem_nil
      have hok : (Rtp.decodeHeader d).isOk = true := by rw [hh]; rfl
      simp only [hok, if_true]
      exact @crowd_send { l with indices := l.indices.insert p.ssrc (l.indexFor p) } ks .media h hks _ hm

/-- Control packets are written for SSRCs of the list and ones that have streams. -/
theorem crowd_writeControl (h : (l.inbox .control).Crowd .control ks) (hks : ks.length ≤ Inbox.claimLimit)
    {ps : List Rtcp.Packet} (hps : ∀ p ∈ ps, ∀ d, p.encode = .ok d → ∀ k ∈ p.audience d,
      k ∈ ks ∨ (l.inbox .control).registered.find? k ≠ none) :
    ((l.writeControl ps).1.inbox .control).Crowd .control ks
      ∧ (l.inbox .control).KeepsAll ((l.writeControl ps).1.inbox .control) := by
  induction ps generalizing l with
  | nil => exact ⟨h, .refl _⟩
  | cons p ps ih =>
    rw [fst_writeControl_cons]
    cases hd : p.encode with
    | error f => exact ⟨h, .refl _⟩
    | ok d =>
      dsimp only
      split
      · obtain ⟨-, -, hmem⟩ := Inbox.judge_control (m := ⟨d, 0⟩) h.channel
        obtain ⟨hsent, hkeeps⟩ := crowd_send (m := ⟨d, 0⟩) h hks fun k hk =>
          hps p List.mem_cons_self d hd k (by rw [Rtcp.audience_eq hd]; exact (hmem k).mp hk)
        obtain ⟨hrest, hkeeps'⟩ := ih hsent fun q hq d hd k hk =>
          (hps q (List.mem_cons_of_mem p hq) d hd k hk).imp_right hkeeps.known
        exact ⟨hrest, hkeeps.trans hkeeps'⟩
      · exact ⟨h, .refl _⟩

end SecureLink

/-- Whether a command writes something for an SSRC on a channel. -/
def SecureCommand.Writes (ch : Channel) (k : Ssrc) : SecureCommand → Prop
  | .writeMedia p => ch = .media ∧ p.ssrc = k
  | .forward ssrc _ => ch = .media ∧ ssrc = k
  | .writeControl ps => ch = .control ∧ ∃ p ∈ ps, ∃ d, p.encode = .ok d ∧ k ∈ p.audience d
  | _ => False

/-- Whether a command closes a stream. -/
def SecureCommand.isClose : SecureCommand → Bool
  | .close _ => true
  | _ => false

namespace SecureSession

variable {r : Receiver Nat} {ch : Channel} {ks : List Ssrc} {x : SecureSession} {cs : List SecureCommand}

/-- The inbox of a channel is changed, or that of the other one. -/
theorem crowd_setInbox {l : SecureLink} {c : Channel} {b : Inbox} (h : (l.inbox ch).Crowd ch ks)
    (hb : c = ch → b.Crowd ch ks ∧ (l.inbox ch).KeepsAll b) :
    ((l.setInbox c b).inbox ch).Crowd ch ks ∧ (l.inbox ch).KeepsAll ((l.setInbox c b).inbox ch) := by
  by_cases hc : c = ch
  · rw [← hc] at hb ⊢
    rw [SecureLink.inbox_setInbox_self]
    exact hb rfl
  · rw [SecureLink.inbox_setInbox_of_ne _ _ _ (Ne.symm hc)]
    exact ⟨h, .refl _⟩

/-- One command that closes nothing, and writes only for SSRCs of the list and ones that have streams. -/
theorem crowd_step (h : (x.link.inbox ch).Crowd ch ks) (hks : ks.length ≤ Inbox.claimLimit) {c : SecureCommand}
    (hd : c.isDirect = true) (hopen : c.isClose = false)
    (hw : ∀ k, c.Writes ch k → k ∈ ks ∨ (x.link.inbox ch).registered.find? k ≠ none) :
    ((x.step c).1.link.inbox ch).Crowd ch ks ∧ (x.link.inbox ch).KeepsAll ((x.step c).1.link.inbox ch) := by
  have hrefl : (x.link.inbox ch).Crowd ch ks ∧ (x.link.inbox ch).KeepsAll (x.link.inbox ch) := ⟨h, .refl _⟩
  have media : ∀ p : Rtp.Packet, (ch = .media → p.ssrc ∈ ks ∨ (x.link.inbox ch).registered.find? p.ssrc ≠ none) →
      ((x.link.writeMedia p).1.inbox ch).Crowd ch ks
        ∧ (x.link.inbox ch).KeepsAll ((x.link.writeMedia p).1.inbox ch) := fun p hp => by
    cases ch with
    | media => exact SecureLink.crowd_writeMedia h hks (hp rfl)
    | control =>
      show (x.link.writeMedia p).1.control.Crowd .control ks ∧ x.link.control.KeepsAll (x.link.writeMedia p).1.control
      rwa [(x.link.writeMedia_control p).1]
  cases c with
  | openStream name c k =>
    refine crowd_setInbox h fun hc => ?_
    subst hc
    have hs := fun s => Inbox.streamOf_spec h.sound k s
    have hu : ((x.link.inbox c).streamOf k).1.unclaimed = (x.link.inbox c).unclaimed := by
      unfold Inbox.streamOf
      split <;> rfl
    have hkeeps : (x.link.inbox c).KeepsAll ((x.link.inbox c).streamOf k).1 := fun s => (hs s).1.toKeeps
    exact ⟨h.keep (hs k).1.sound (hs k).1.channel (hs k).2.2.2 hu hkeeps, hkeeps⟩
  | read name n =>
    cases hx : x.names.find? name with
    | none => simpa [step, onStream, hx] using hrefl
    | some y =>
      obtain ⟨c, id⟩ := y
      rw [Follows.step_read hx]
      refine crowd_setInbox h fun hc => ?_
      subst hc
      cases hid : (x.link.inbox c).streams[id]? with
      | none =>
        rw [Inbox.readStream, hid]
        exact hrefl
      | some u =>
        have hs := fun s => Inbox.read_spec h.sound (by rw [Inbox.ssrcOf, hid]; rfl : _ = some u.ssrc) n s
        have hu : ((x.link.inbox c).readStream id n).1.unclaimed = (x.link.inbox c).unclaimed := by
          rw [Inbox.readStream, hid]
        have hkeeps : (x.link.inbox c).KeepsAll ((x.link.inbox c).readStream id n).1 := fun s => (hs s).1.toKeeps
        exact ⟨h.keep (hs 0).1.sound (hs 0).1.channel (hs 0).2.1 hu hkeeps, hkeeps⟩
  | close name => cases hopen
  | writeMedia p => exact media p fun hch => hw _ ⟨hch, rfl⟩
  | forward k p => exact media { p with ssrc := k } fun hch => hw _ ⟨hch, rfl⟩
  | writeControl ps =>
    cases ch with
    | media =>
      show (x.link.writeControl ps).1.media.Crowd .media ks ∧ x.link.media.KeepsAll (x.link.writeControl ps).1.media
      rwa [(x.link.writeControl_media ps).1]
    | control =>
      exact SecureLink.crowd_writeControl h hks fun p hp d hd k hk => hw k ⟨rfl, p, hp, d, hd, hk⟩
  | setWire w => exact hrefl
  | finish c =>
    refine crowd_setInbox h fun hc => ?_
    subst hc
    have hkeeps : (x.link.inbox c).KeepsAll (x.link.inbox c).finish.1 := fun _ => ⟨fun _ _ h => h, fun _ h => h⟩
    exact ⟨h.keep h.sound rfl rfl rfl hkeeps, hkeeps⟩
  | receive encodings => cases hd
  | bind rid ssrc => cases hd
  | stop => cases hd
  | readReceiver q => cases hd
  | unknown => exact hrefl

/-- An SSRC has a stream once it has been opened. -/
theorem registered_openStream (h : (x.link.inbox ch).Sound) (name : String) (k : Ssrc) :
    ((x.step (.openStream name ch k)).1.link.inbox ch).registered.find? k ≠ none := by
  obtain ⟨-, -, hreg, -⟩ := Inbox.streamOf_spec h k k
  show ((x.link.setInbox ch ((x.link.inbox ch).streamOf k).1).inbox ch).registered.find? k ≠ none
  rw [SecureLink.inbox_setInbox_self, hreg]
  exact Option.some_ne_none _

/-- The inbox of a channel never stalls as long as nothing is closed and no more than eight SSRCs are written for that
were not opened before. -/
theorem never_stalls (hks : ks.length ≤ Inbox.claimLimit) (hd : ∀ c ∈ cs, c.isDirect = true)
    (hopen : ∀ c ∈ cs, c.isClose = false)
    (hw : ∀ ds c, ds ++ [c] <+: cs → ∀ k, c.Writes ch k → k ∈ ks ∨ ∃ name, .openStream name ch k ∈ ds) :
    ((after r cs).link.inbox ch).stalled = false := by
  suffices h : ((after r cs).link.inbox ch).Crowd ch ks
      ∧ ∀ name k, .openStream name ch k ∈ cs → ((after r cs).link.inbox ch).registered.find? k ≠ none from h.1.flows
  induction cs using List.reverseRecOn with
  | nil =>
    refine ⟨?_, fun _ _ h => absurd h List.not_mem_nil⟩
    cases ch <;> exact ⟨fun _ _ h => (by cases h), rfl, rfl, [], List.nodup_nil, List.nil_subset _,
      fun _ h => absurd h List.not_mem_nil, rfl⟩
  | append_singleton cs c ih =>
    have hlast : c ∈ cs ++ [c] := List.mem_append_right _ (List.mem_singleton_self c)
    obtain ⟨hcrowd, hknown⟩ := ih (fun c hc => hd c (List.mem_append_left _ hc))
      (fun c hc => hopen c (List.mem_append_left _ hc)) fun ds c hds => hw ds c (hds.trans (List.prefix_append _ _))
    obtain ⟨hstep, hkeeps⟩ := crowd_step hcrowd hks (hd c hlast) (hopen c hlast) fun k hk =>
      (hw cs c (List.prefix_refl _) k hk).imp_right fun ⟨name, hname⟩ => hknown name k hname
    rw [after_concat]
    refine ⟨hstep, fun name k hk => ?_⟩
    rcases List.mem_append.mp hk with hk | hk
    · exact hkeeps.known (hknown name k hk)
    · rw [← List.mem_singleton.mp hk]
      exact registered_openStream hcrowd.sound name k

end SecureSession

end MediaRelay
