/-!
# Rounding to a number of significant bits

`roundBits p n` is the natural number nearest to `n` among those with at most `p` significant bits; of two equally
near ones it takes the one whose last significant bit is zero. With 24 and 53 bits these are the whole numbers that
single and double precision can hold.
-/

namespace MediaRelay.Numeric

/-- The quotient `n / 2 ^ k` to the nearest whole number, a half going to the even neighbour. -/
def divPow2Even (n k : Nat) : Nat :=
  let q := n >>> k
  let r := n - q <<< k
  if 2 * r < 1 <<< k ∨ (2 * r = 1 <<< k ∧ q % 2 = 0) then q else q + 1

/-- The number of bits of `n`: the least `k` with `n < 2 ^ k`. -/
def bits (n : Nat) : Nat :=
  if n = 0 then 0 else n.log2 + 1

/-- `n` rounded to `p` significant bits. -/
def roundBits (p n : Nat) : Nat :=
  let k := bits n - p
  divPow2Even n k <<< k

end MediaRelay.Numeric
