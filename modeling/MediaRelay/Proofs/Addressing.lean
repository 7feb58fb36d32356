import MediaRelay.Proofs.Packing
import MediaRelay.Rtcp.Wire

/-!
# Whom a datagram is for

A media datagram is for the SSRC in its header, which is that of the packet that was written (`Rtp.header_of_encode`).
A control datagram is for the sources that the packets read off it are addressed to (`Rtcp.addressees`). For a plain
packet these are the packet's own destinations (`Rtcp.addressees_plain`).
-/

namespace MediaRelay

open Bytes

namespace Rtp

/-- A header that can be read has the sequence number and the SSRC that stand in its bytes. -/
theorem header_of_decode {b₀ b₁ s₁ s₀ t₃ t₂ t₁ t₀ r₃ r₂ r₁ r₀ : UInt8} {rest : List UInt8} {h : Packet}
    (hh : decodeHeader (b₀ :: b₁ :: s₁ :: s₀ :: t₃ :: t₂ :: t₁ :: t₀ :: r₃ :: r₂ :: r₁ :: r₀ :: rest) = .ok h) :
    h.ssrc = word32 r₃ r₂ r₁ r₀ ∧ h.sequence = word16 s₁ s₀ := by
  simp only [decodeHeader] at hh
  split at hh
  · cases hh
  · split at hh
    · generalize decodeExtensions _ = e at hh
      cases e with
      | error f => cases hh
      | ok x =>
        cases hh
        exact ⟨rfl, rfl⟩
    · cases hh
      exact ⟨rfl, rfl⟩

/-- The sequence number and the SSRC of a packet stand in its header, whatever its extension block is. -/
theorem header_layOut {p h : Packet} {block : List UInt8} (hh : decodeHeader (p.layOut block) = .ok h) :
    h.ssrc = p.ssrc ∧ h.sequence = p.sequence := by
  unfold Packet.layOut at hh
  simp only [ofWord16, ofWord32, List.cons_append, List.nil_append, List.append_assoc] at hh
  obtain ⟨hs, hq⟩ := header_of_decode hh
  rw [word32_ofWord32] at hs
  rw [word16_ofWord16] at hq
  exact ⟨hs, hq⟩

theorem header_of_encode {p h : Packet} {d : Datagram} (hd : encode p = .ok d) (hh : decodeHeader d = .ok h) :
    h.ssrc = p.ssrc ∧ h.sequence = p.sequence := by
  unfold encode at hd
  split at hd
  · cases hd
  · dsimp only at hd
    split at hd
    · cases hd
      exact header_layOut hh
    · cases hd

end Rtp

namespace Rtcp

/-- The sources that a datagram is addressed to: none if it cannot be read. -/
def addressees (d : Datagram) : List Ssrc :=
  match decode d with
  | .error _ => []
  | .ok ps => ps.flatMap Packet.destinations

/-- A packet that is no raw one, with no more SSRCs than the byte that counts them can tell. -/
def Packet.Plain : Packet → Prop
  | .pictureLoss _ _ => True
  | .maximumBitrate _ _ ssrcs => ssrcs.length ≤ 255
  | .raw _ => False

instance : DecidablePred Packet.Plain
  | .pictureLoss _ _ => .isTrue trivial
  | .maximumBitrate _ _ ssrcs => inferInstanceAs (Decidable (ssrcs.length ≤ 255))
  | .raw _ => .isFalse id

/-- A datagram that holds one packet. -/
theorem decode_single {b type n₁ n₀ : UInt8} {body : List UInt8} {p : Packet} (hb : b >>> 6 = 2)
    (hn : body.length = (word16 n₁ n₀).toNat * 4) (hp : decodeBody b type n₁ n₀ body = .ok p) :
    decode (b :: type :: n₁ :: n₀ :: body) = .ok [p] := by
  unfold decode decodeAll
  simp only [List.isEmpty_cons, Bool.false_eq_true, if_false]
  rw [if_neg (not_not_intro hb), ← hn, if_neg (Nat.lt_irrefl _), List.take_length, hp, List.drop_length]
  unfold decodeAll
  rfl

theorem decode_pictureLoss (sender media : Ssrc) :
    decode (header 1 206 2 ++ ofWord32 sender ++ ofWord32 media) = .ok [.pictureLoss sender media] := by
  refine decode_single (by decide) (by rfl) ?_
  show decodeBody _ _ _ _ (ofWord32 sender ++ ofWord32 media) = _
  simp only [ofWord32, List.cons_append, List.nil_append, decodeBody, decodePictureLoss]
  rw [word32_ofWord32, word32_ofWord32]
  rfl

/-- All SSRCs of a bitrate announcement are read back, whatever becomes of the bitrate. -/
theorem decode_maximumBitrate (sender : Ssrc) (bitrate : Nat) {ssrcs : List Ssrc} (h : ssrcs.length ≤ 255)
    {d : Datagram} (hd : (Packet.maximumBitrate sender bitrate ssrcs).encode = .ok d) :
    ∃ r, decode d = .ok [.maximumBitrate sender r ssrcs] := by
  have hw : (word16 (UInt8.ofNat ((UInt16.ofNat (4 + ssrcs.length)).toNat / 0x100))
      (UInt8.ofNat (UInt16.ofNat (4 + ssrcs.length)).toNat)).toNat = 4 + ssrcs.length := by
    rw [word16_ofWord16, UInt16.toNat_ofNat', Nat.mod_eq_of_lt (by omega)]
  have hcount : (UInt8.ofNat ssrcs.length).toNat = ssrcs.length := by
    rw [UInt8.toNat_ofNat', Nat.mod_eq_of_lt (by omega)]
  have hl := length_flatMap_ofWord32 ssrcs
  have hbody : ∀ b type n₁ n₀ x₂ x₁ x₀, type = 206 ∧ b &&& 0x1F = 15 →
      ∃ r, decodeBody b type n₁ n₀ (ofWord32 sender ++ (ofWord32 0 ++ (identifier
        ++ (UInt8.ofNat ssrcs.length :: x₂ :: x₁ :: x₀ :: ssrcs.flatMap ofWord32))))
        = .ok (.maximumBitrate sender r ssrcs) := by
    rintro b type n₁ n₀ x₂ x₁ x₀ ⟨rfl, hb⟩
    rw [decodeBody, if_neg (by rw [hb]; decide), if_pos ⟨rfl, hb⟩]
    simp only [ofWord32, identifier, List.cons_append, List.nil_append, decodeMaximumBitrate]
    rw [word32_ofWord32 sender, hcount, if_neg (by decide), if_neg (by decide), if_neg (by omega), ← hl,
      List.take_length, words32_flatMap]
    exact ⟨_, rfl⟩
  cases hd
  simp only [header, ofWord16, List.cons_append, List.nil_append, List.append_assoc]
  obtain ⟨r, hr⟩ := hbody (0x80 ||| 15) 206 _ _ _ _ _ ⟨rfl, by decide⟩
  refine ⟨r, decode_single (by decide) ?_ hr⟩
  rw [hw]
  simp only [List.length_append, length_ofWord32, List.length_cons, hl, identifier, List.length_nil]
  omega

/-- A plain packet is for its destinations. -/
theorem addressees_plain {p : Packet} {d : Datagram} (hp : p.Plain) (hd : p.encode = .ok d) :
    addressees d = p.destinations := by
  cases p with
  | pictureLoss sender media =>
    cases hd
    rw [addressees, decode_pictureLoss]
    rfl
  | maximumBitrate sender bitrate ssrcs =>
    obtain ⟨r, hdecode⟩ := decode_maximumBitrate sender bitrate hp hd
    rw [addressees, hdecode]
    exact List.append_nil _
  | raw bytes => exact hp.elim

/-- The sources that a packet written as a datagram is for: the packet's destinations, or what can be read off the
datagram if the packet is not plain. -/
def Packet.audience (p : Packet) (d : Datagram) : List Ssrc :=
  if p.Plain then p.destinations else addressees d

theorem audience_eq {p : Packet} {d : Datagram} (hd : p.encode = .ok d) : p.audience d = addressees d := by
  unfold Packet.audience
  split
  · next hp => exact (addressees_plain hp hd).symm
  · rfl

end Rtcp

end MediaRelay
