/-!
# Datagrams and words of several bytes

A datagram is a list of bytes. Words are laid out most significant byte first: `ofWord16` and `ofWord32` write a
word, `word16` and `word32` read one back (`word16_ofWord16`, `word32_ofWord32`).
-/

namespace MediaRelay

/-- One datagram of plaintext. -/
abbrev Datagram := List UInt8

namespace Bytes

/-! ## Writing -/

/-- The two bytes of a 16-bit word. -/
def ofWord16 (w : UInt16) : List UInt8 :=
  [UInt8.ofNat (w.toNat / 0x100), UInt8.ofNat w.toNat]

/-- The four bytes of a 32-bit word. -/
def ofWord32 (w : UInt32) : List UInt8 :=
  [UInt8.ofNat (w.toNat / 0x1000000), UInt8.ofNat (w.toNat / 0x10000), UInt8.ofNat (w.toNat / 0x100),
    UInt8.ofNat w.toNat]

@[simp] theorem length_ofWord16 (w : UInt16) : (ofWord16 w).length = 2 := rfl

@[simp] theorem length_ofWord32 (w : UInt32) : (ofWord32 w).length = 4 := rfl

/-! ## Reading -/

/-- The 16-bit word of two bytes. -/
def word16 (a b : UInt8) : UInt16 :=
  UInt16.ofNat (a.toNat * 0x100 + b.toNat)

/-- The 32-bit word of four bytes. -/
def word32 (a b c d : UInt8) : UInt32 :=
  UInt32.ofNat (a.toNat * 0x1000000 + b.toNat * 0x10000 + c.toNat * 0x100 + d.toNat)

theorem word16_ofWord16 (w : UInt16) :
    word16 (UInt8.ofNat (w.toNat / 0x100)) (UInt8.ofNat w.toNat) = w := by
  apply UInt16.toNat_inj.mp
  have := w.toNat_lt
  simp only [word16, UInt16.toNat_ofNat', UInt8.toNat_ofNat']
  omega

theorem word32_ofWord32 (w : UInt32) :
    word32 (UInt8.ofNat (w.toNat / 0x1000000)) (UInt8.ofNat (w.toNat / 0x10000)) (UInt8.ofNat (w.toNat / 0x100))
      (UInt8.ofNat w.toNat) = w := by
  apply UInt32.toNat_inj.mp
  have := w.toNat_lt
  simp only [word32, UInt32.toNat_ofNat', UInt8.toNat_ofNat']
  omega

/-- The 32-bit words of a list of bytes, in order; up to three bytes left over are dropped. -/
def words32 : List UInt8 → List UInt32
  | a :: b :: c :: d :: rest => word32 a b c d :: words32 rest
  | _ => []

/-- The least multiple of four that is not below `n`. -/
def roundUp4 (n : Nat) : Nat :=
  (n + 3) / 4 * 4

end Bytes

end MediaRelay
