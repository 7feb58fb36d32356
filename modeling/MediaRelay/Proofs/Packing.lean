import MediaRelay.Rtp.Wire

/-!
# What is read back of a packet that was written

A packet is well formed if its fields fit the bits that they have on the wire (`Packet.WellFormed`), and writable if
moreover the length of its extension block can be told and nothing of it was left out when it was read
(`Packet.Writable`). Such a packet can be encoded, and is read back as it was but for the count of blank extension
bytes, which is that of the zeros that fill the block (`Packet.encode_eq`, `Packet.decode_datagram`).
-/

namespace MediaRelay

namespace Bytes

/-- Words that were written one after the other are read back. -/
theorem words32_flatMap (ws : List UInt32) : words32 (ws.flatMap ofWord32) = ws := by
  induction ws with
  | nil => rfl
  | cons w ws ih =>
    rw [List.flatMap_cons]
    show word32 _ _ _ _ :: words32 (ws.flatMap ofWord32) = _
    rw [word32_ofWord32, ih]

theorem length_flatMap_ofWord32 (ws : List UInt32) : (ws.flatMap ofWord32).length = 4 * ws.length := by
  induction ws with
  | nil => rfl
  | cons w ws ih =>
    rw [List.flatMap_cons, List.length_append, ih, length_ofWord32, List.length_cons]
    omega

end Bytes

namespace Rtp

open Bytes

/-! ## Packets that can be written -/

/-- Whether a layout can hold the elements: their ids and lengths fit the bits that they have. -/
def Layout.Holds : Layout → List Extension → Prop
  | .oneByte, es => ∀ e ∈ es, 1 ≤ e.id ∧ e.id ≤ 14 ∧ 1 ≤ e.payload.length ∧ e.payload.length ≤ 16
  | .twoBytes, es => ∀ e ∈ es, 1 ≤ e.id ∧ e.payload.length ≤ 255
  | .whole, [e] => e.id = 0 ∧ e.payload.length % 4 = 0
  | .whole, _ => False

instance (l : Layout) (es : List Extension) : Decidable (l.Holds es) :=
  match l, es with
  | .oneByte, es => inferInstanceAs (Decidable (∀ e ∈ es, _))
  | .twoBytes, es => inferInstanceAs (Decidable (∀ e ∈ es, _))
  | .whole, [_] => inferInstanceAs (Decidable (_ ∧ _))
  | .whole, [] => .isFalse id
  | .whole, _ :: _ :: _ => .isFalse id

/-- The fields of a packet fit the bits that they have on the wire. -/
structure Packet.WellFormed (p : Packet) : Prop where
  version : p.version ≤ 3
  payloadType : p.payloadType ≤ 127
  csrcs : p.csrcs.length ≤ 15
  plain : p.extended = false → p.profile = 0 ∧ p.extensions = []
  elements : p.extended = true → (layout p.profile).Holds p.extensions

/-- The most bytes of extension elements whose number of words is told right. -/
def maxExtensionBytes : Nat := 65532

/-- A packet is well formed, the length of its extension block can be told, and nothing of it is left out. -/
structure Packet.Writable (p : Packet) : Prop extends p.WellFormed where
  told : p.extended = true → (layout p.profile).length p.extensions ≤ maxExtensionBytes
  whole : p.extended = true → p.blankExtensionBytes = 0

/-- The zeros that fill the extension block of a packet up to a whole number of words. -/
def Packet.filling (p : Packet) : Nat :=
  if p.extended then roundUp4 ((layout p.profile).length p.extensions) - (layout p.profile).length p.extensions else 0

/-- Whatever is written has as many bytes as its size says. -/
theorem length_of_encode {p : Packet} {d : Datagram} (h : encode p = .ok d) : d.length = p.size := by
  unfold encode at h
  split at h
  · cases h
  · dsimp only at h
    split at h
    · next hd =>
      cases h
      exact hd
    · cases h

/-! ## The first two bytes -/

theorem flags_fin (v : Fin 4) (padded extended : Bool) (n : Fin 16) :
    let b := flags (UInt8.ofNat v) padded extended n
    b >>> 6 = UInt8.ofNat v ∧ decide (b &&& 0x20 ≠ 0) = padded ∧ decide (b &&& 0x10 ≠ 0) = extended
      ∧ (b &&& 0x0F).toNat = n := by
  revert v padded extended n
  decide +kernel

/-- What is read off the first byte. -/
theorem read_flags {v : UInt8} (hv : v ≤ 3) (padded extended : Bool) {n : Nat} (hn : n ≤ 15) :
    let b := flags v padded extended n
    b >>> 6 = v ∧ decide (b &&& 0x20 ≠ 0) = padded ∧ decide (b &&& 0x10 ≠ 0) = extended ∧ (b &&& 0x0F).toNat = n := by
  have hv : v.toNat < 4 := Nat.lt_succ_of_le (UInt8.le_iff_toNat_le.mp hv)
  have := flags_fin ⟨v.toNat, hv⟩ padded extended ⟨n, Nat.lt_succ_of_le hn⟩
  simpa only [UInt8.ofNat_toNat] using this

theorem kindByte_fin (marker : Bool) (n : Fin 128) :
    let b := kindByte marker (UInt8.ofNat n)
    decide (b &&& 0x80 ≠ 0) = marker ∧ b &&& 0x7F = UInt8.ofNat n := by
  revert marker n
  decide +kernel

/-- What is read off the second byte. -/
theorem read_kindByte (marker : Bool) {t : UInt8} (ht : t ≤ 127) :
    let b := kindByte marker t
    decide (b &&& 0x80 ≠ 0) = marker ∧ b &&& 0x7F = t := by
  have := kindByte_fin marker ⟨t.toNat, Nat.lt_succ_of_le (UInt8.le_iff_toNat_le.mp ht)⟩
  simpa only [UInt8.ofNat_toNat] using this

/-! ## Extension elements -/

theorem oneByte_fin (i : Fin 15) (n : Fin 17) (hi : 1 ≤ i.val) (hn : 1 ≤ n.val) :
    let b := UInt8.ofNat i <<< 4 ||| (UInt8.ofNat n - 1)
    b ≠ 0 ∧ b >>> 4 = UInt8.ofNat i ∧ b >>> 4 ≠ 15 ∧ (b &&& 0x0F).toNat + 1 = n := by
  revert i n
  decide +kernel

/-- What is read off the byte that tells the id and the length of an element. -/
theorem read_oneByte {e : Extension} (hi : 1 ≤ e.id) (hi' : e.id ≤ 14) (hn : 1 ≤ e.payload.length)
    (hn' : e.payload.length ≤ 16) :
    let b := e.id <<< 4 ||| (UInt8.ofNat e.payload.length - 1)
    b ≠ 0 ∧ b >>> 4 = e.id ∧ b >>> 4 ≠ 15 ∧ (b &&& 0x0F).toNat + 1 = e.payload.length := by
  have := oneByte_fin ⟨e.id.toNat, Nat.lt_succ_of_le (UInt8.le_iff_toNat_le.mp hi')⟩
    ⟨e.payload.length, Nat.lt_succ_of_le hn'⟩ (UInt8.le_iff_toNat_le.mp hi) hn
  simpa only [UInt8.ofNat_toNat] using this

theorem decodeOneByte_blank (n : Nat) (rest : List UInt8) :
    decodeOneByte n (List.replicate n 0 ++ rest) = .ok ⟨[], n, rest⟩ := by
  induction n with
  | zero =>
    unfold decodeOneByte
    rfl
  | succ n ih =>
    unfold decodeOneByte
    rw [if_neg (Nat.succ_ne_zero n), List.replicate_succ, List.cons_append]
    dsimp only
    rw [if_pos rfl, Nat.add_sub_cancel, ih]
    rfl

theorem decodeTwoBytes_blank (n : Nat) (rest : List UInt8) :
    decodeTwoBytes n (List.replicate n 0 ++ rest) = .ok ⟨[], n, rest⟩ := by
  induction n with
  | zero =>
    unfold decodeTwoBytes
    rfl
  | succ n ih =>
    unfold decodeTwoBytes
    rw [if_neg (Nat.succ_ne_zero n), List.replicate_succ, List.cons_append]
    dsimp only
    rw [if_pos rfl, Nat.add_sub_cancel, ih]
    rfl

theorem decodeOneByte_elements {es : List Extension} (h : Layout.oneByte.Holds es) (n : Nat) (rest : List UInt8) :
    decodeOneByte (Layout.oneByte.length es + n)
        (es.flatMap Layout.oneByte.encodeElement ++ (List.replicate n 0 ++ rest)) = .ok ⟨es, n, rest⟩ := by
  induction es with
  | nil =>
    rw [Layout.length, List.foldr_nil, Nat.zero_add]
    exact decodeOneByte_blank n rest
  | cons e es ih =>
    obtain ⟨hi, hi', hn, hn'⟩ := h e List.mem_cons_self
    obtain ⟨h₀, hid, h₁₅, hlen⟩ := read_oneByte hi hi' hn hn'
    have ih := ih fun e he => h e (List.mem_cons_of_mem _ he)
    have hl : Layout.oneByte.length (e :: es) = e.payload.length + 1 + Layout.oneByte.length es := rfl
    unfold decodeOneByte
    rw [hl, if_neg (by omega), List.flatMap_cons, Layout.encodeElement, List.append_assoc, List.cons_append]
    dsimp only
    rw [if_neg h₀, if_neg h₁₅, hlen, if_neg (by rw [List.length_append]; omega), hid, List.take_left', List.drop_left',
      show e.payload.length + 1 + Layout.oneByte.length es + n - 1 - e.payload.length
        = Layout.oneByte.length es + n by omega, ih] <;> rfl

theorem decodeTwoBytes_elements {es : List Extension} (h : Layout.twoBytes.Holds es) (n : Nat) (rest : List UInt8) :
    decodeTwoBytes (Layout.twoBytes.length es + n)
        (es.flatMap Layout.twoBytes.encodeElement ++ (List.replicate n 0 ++ rest)) = .ok ⟨es, n, rest⟩ := by
  induction es with
  | nil =>
    rw [Layout.length, List.foldr_nil, Nat.zero_add]
    exact decodeTwoBytes_blank n rest
  | cons e es ih =>
    obtain ⟨hi, hn⟩ := h e List.mem_cons_self
    have ih := ih fun e he => h e (List.mem_cons_of_mem _ he)
    have h₀ : e.id ≠ 0 := fun he => by
      rw [he] at hi
      exact absurd hi (by decide)
    have hlen : (UInt8.ofNat e.payload.length).toNat = e.payload.length := by
      rw [UInt8.toNat_ofNat', Nat.mod_eq_of_lt (by omega)]
    have hl : Layout.twoBytes.length (e :: es) = e.payload.length + 2 + Layout.twoBytes.length es := rfl
    unfold decodeTwoBytes
    rw [hl, if_neg (by omega), List.flatMap_cons, Layout.encodeElement, List.append_assoc, List.cons_append,
      List.cons_append]
    dsimp only
    rw [if_neg h₀, hlen, if_neg (by rw [List.length_append]; omega), List.take_left', List.drop_left',
      show e.payload.length + 2 + Layout.twoBytes.length es + n - 2 - e.payload.length
        = Layout.twoBytes.length es + n by omega, ih] <;> rfl

theorem Layout.decodeElements_elements {l : Layout} {es : List Extension} (h : l.Holds es) {n : Nat}
    (hn : l = .whole → n = 0) (rest : List UInt8) :
    l.decodeElements (l.length es + n) (es.flatMap l.encodeElement ++ (List.replicate n 0 ++ rest))
      = .ok ⟨es, n, rest⟩ := by
  cases l with
  | oneByte => exact decodeOneByte_elements h n rest
  | twoBytes => exact decodeTwoBytes_elements h n rest
  | whole =>
    obtain rfl := hn rfl
    match es, h with
    | [⟨id, payload⟩], ⟨hid, _⟩ =>
      obtain rfl : id = 0 := hid
      simp [Layout.decodeElements, Layout.length, Layout.overhead, Layout.encodeElement]

theorem Layout.length_elements (l : Layout) (es : List Extension) :
    (es.flatMap l.encodeElement).length = l.length es := by
  induction es with
  | nil => rfl
  | cons e es ih =>
    have hl : l.length (e :: es) = e.payload.length + l.overhead + l.length es := rfl
    rw [List.flatMap_cons, List.length_append, ih, hl]
    cases l <;> simp [Layout.encodeElement, Layout.overhead]

/-! ## Extension blocks -/

/-- The words of a block are told right as long as their number is not counted beyond 16 bits. -/
theorem extensionWords_toNat {n : Nat} (h : n ≤ maxExtensionBytes) : (extensionWords n).toNat * 4 = roundUp4 n := by
  have h : n ≤ 65532 := h
  rw [extensionWords, UInt16.toNat_div, UInt16.toNat_add, UInt16.toNat_ofNat', roundUp4]
  show ((n % 65536 + 3) % 65536 / 4) * 4 = _
  omega

theorem roundUp4_of_whole {es : List Extension} (h : Layout.whole.Holds es) :
    Layout.whole.length es % 4 = 0 ∧ es.length = 1 := by
  match es, h with
  | [e], ⟨_, hl⟩ => exact ⟨by simpa [Layout.length, Layout.overhead] using hl, rfl⟩

namespace Packet

variable {p : Packet}

/-- The bytes of the elements and what fills the block make whole words. -/
theorem length_add_filling (hx : p.extended = true) :
    (layout p.profile).length p.extensions + p.filling = roundUp4 ((layout p.profile).length p.extensions) := by
  rw [filling, if_pos hx, roundUp4]
  omega

/-- The extension block of a writable packet. -/
def block (p : Packet) : List UInt8 :=
  if p.extended then
    ofWord16 p.profile ++ ofWord16 (extensionWords ((layout p.profile).length p.extensions))
      ++ p.extensions.flatMap (layout p.profile).encodeElement ++ List.replicate p.filling 0
  else []

theorem block_of_plain (hx : p.extended = false) : p.block = [] := by
  rw [block, hx]
  rfl

theorem filling_of_plain (hx : p.extended = false) : p.filling = 0 := by
  rw [filling, hx]
  rfl

theorem encodeExtensions_eq (hp : p.Writable) : p.encodeExtensions = .ok p.block := by
  unfold encodeExtensions block
  cases hx : p.extended with
  | false => rfl
  | true =>
    have hwhole : layout p.profile = .whole →
        (layout p.profile).length p.extensions % 4 = 0 ∧ p.extensions.length = 1 := fun hl => by
      have he := hp.elements hx
      rw [hl] at he ⊢
      exact roundUp4_of_whole he
    dsimp only
    rw [hp.whole hx, Nat.add_zero, if_neg (by simp), if_neg (fun h => h.2 (hwhole h.1).1),
      if_neg (fun h => h.2 (hwhole h.1).2), if_pos rfl, extensionWords_toNat (hp.told hx), filling, if_pos hx]

theorem length_block (hp : p.Writable) : p.block.length = p.extensionSize := by
  unfold block extensionSize
  cases hx : p.extended with
  | false => rfl
  | true =>
    rw [if_pos rfl, if_pos rfl, hp.whole hx, Nat.add_zero, ← length_add_filling hx]
    simp only [List.length_append, length_ofWord16, Layout.length_elements, List.length_replicate]
    omega

theorem decodeExtensions_block (hp : p.Writable) (hx : p.extended = true) (rest : List UInt8) :
    decodeExtensions (p.block ++ rest) = .ok (p.profile, ⟨p.extensions, p.filling, rest⟩) := by
  have hroom : (extensionWords ((layout p.profile).length p.extensions)).toNat * 4
      = (layout p.profile).length p.extensions + p.filling := by
    rw [extensionWords_toNat (hp.told hx), length_add_filling hx]
  have hfill : layout p.profile = .whole → p.filling = 0 := fun hl => by
    have he := hp.elements hx
    rw [hl] at he
    have := (roundUp4_of_whole he).1
    rw [filling, if_pos hx, hl, roundUp4]
    omega
  rw [block, if_pos hx]
  simp only [ofWord16, List.cons_append, List.nil_append, List.append_assoc, decodeExtensions]
  rw [word16_ofWord16, word16_ofWord16, hroom, if_neg, Layout.decodeElements_elements (hp.elements hx) hfill]
  · rfl
  · simp only [List.length_append, Layout.length_elements, List.length_replicate]
    omega

/-! ## Packets -/

theorem length_padding (n : Nat) : (padding n).length = paddingLength n := by
  rw [padding, List.length_append, List.length_replicate, List.length_singleton, paddingLength]
  omega

/-- Padding is cut off again. -/
theorem unpad_padding (payload : List UInt8) : unpad (payload ++ padding payload.length) = .ok payload := by
  have hn : (UInt8.ofNat (paddingLength payload.length)).toNat = paddingLength payload.length := by
    rw [UInt8.toNat_ofNat', Nat.mod_eq_of_lt]
    rw [paddingLength]
    omega
  have hl : (payload ++ padding payload.length).length = payload.length + paddingLength payload.length := by
    rw [List.length_append, length_padding]
  have hlast : (payload ++ padding payload.length).getLast? = some (UInt8.ofNat (paddingLength payload.length)) := by
    rw [padding, ← List.append_assoc, List.getLast?_append]
    rfl
  rw [unpad, hlast]
  dsimp only
  rw [hn, hl, if_pos (Nat.le_add_left _ _), Nat.add_sub_cancel, List.take_left]

/-- The datagram of a writable packet. -/
def datagram (p : Packet) : Datagram :=
  p.layOut p.block

theorem length_datagram (hp : p.Writable) : p.datagram.length = p.size := by
  unfold datagram layOut size
  simp only [List.length_cons, List.length_append, length_ofWord16, length_ofWord32, length_flatMap_ofWord32,
    length_block hp]
  split
  · rw [length_padding]
    omega
  · rw [List.length_nil]
    omega

/-- A writable packet is written, with as many bytes as its size says. -/
theorem encode_eq (hp : p.Writable) : encode p = .ok p.datagram := by
  rw [encode, encodeExtensions_eq hp]
  exact if_pos (length_datagram hp)

/-- What is behind the header of a packet: its payload and, if it is padded, padding. -/
def body (p : Packet) : List UInt8 :=
  p.payload ++ if p.padded then padding p.payload.length else []

theorem decodeHeader_datagram (hp : p.Writable) :
    decodeHeader p.datagram = .ok { p with blankExtensionBytes := p.filling, payload := p.body } := by
  obtain ⟨hv, hpad, hext, hcc⟩ := read_flags hp.version p.padded p.extended hp.csrcs
  obtain ⟨hm, ht⟩ := read_kindByte p.marker hp.payloadType
  have hs := length_flatMap_ofWord32 p.csrcs
  unfold datagram layOut
  simp only [ofWord16, ofWord32, List.cons_append, List.nil_append, List.append_assoc, decodeHeader]
  rw [hv, hpad, hext, hcc, hm, ht, word16_ofWord16, word32_ofWord32, word32_ofWord32, if_neg]
  · rw [List.take_left' hs, List.drop_left' hs, words32_flatMap]
    cases hx : p.extended with
    | true =>
      rw [if_pos rfl, decodeExtensions_block hp hx]
      rfl
    | false =>
      obtain ⟨hprofile, hextensions⟩ := hp.plain hx
      rw [if_neg Bool.false_ne_true, block_of_plain hx, filling_of_plain hx, List.nil_append, hprofile, hextensions]
      rfl
  · rw [List.length_append, hs]
    omega

/-- A writable packet is read back as it was but for the count of blank extension bytes. -/
theorem decode_datagram (hp : p.Writable) : decode p.datagram = .ok { p with blankExtensionBytes := p.filling } := by
  rw [decode, decodeHeader_datagram hp]
  dsimp only
  cases hpad : p.padded with
  | false => simp [body, hpad]
  | true =>
    rw [if_pos rfl, body, hpad, if_pos rfl, unpad_padding]
    rfl

end Packet

end Rtp

end MediaRelay
