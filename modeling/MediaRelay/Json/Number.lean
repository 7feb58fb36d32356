import MediaRelay.Json.Reader
import MediaRelay.Numeric.Rounding

/-!
# Numbers in JSON

`number` reads a number that a value asks for. Only a natural number below `2 ^ 64`, written without sign, fraction
or exponent, has a value; every other number is read as `none`, and one that has no double is malformed.

The double of a number is not the nearest one. Its leading digits, as many as stay below `2 ^ 64`, are rounded to a
double, and so is the power of ten that they are scaled by; the product of the two may lie beyond the greatest
double though the number does not, or the other way round (`tooLarge`).

`skipUnsigned` passes over the digits of a number of any size; to it a number that breaks off is malformed, not
unfinished.
-/

namespace MediaRelay.Json

/-- Whether a character is a decimal digit. -/
def isDigit (c : Char) : Bool :=
  '0' ≤ c && c ≤ '9'

/-- The natural number of a list of decimal digits. -/
def ofDigits (cs : List Char) : Nat :=
  cs.foldl (fun n c => n * 10 + (c.toNat - '0'.toNat)) 0

/-- The number with the digits of `n` and then as many of the given ones as keep it below `2 ^ 64`, and how many
these are. -/
def takeDigits (n : Nat) : List Char → Nat × Nat
  | [] => (n, 0)
  | c :: cs =>
    let m := n * 10 + (c.toNat - '0'.toNat)
    if m < UInt64.size then
      let (value, taken) := takeDigits m cs
      (value, taken + 1)
    else (n, 0)

/-- The least natural number that no double is nearest to: half a unit beyond the greatest double. -/
def infinite : Nat :=
  (1 <<< 1024) - (1 <<< 970)

/-- Whether a significand below `2 ^ 64` and a power of ten, each rounded to a double, have a product that is beyond
the doubles. There is no double of a power of ten above the 308th, and a quotient is never too large. -/
def tooLarge (significand : Nat) (exponent : Int) : Bool :=
  significand ≠ 0 && 0 ≤ exponent
    && (308 < exponent
      || infinite ≤ Numeric.roundBits 53 significand * Numeric.roundBits 53 (Nat.pow 10 exponent.toNat))

/-! ## Reading -/

/-- Reads the digits of an exponent from behind its letter. -/
def exponent : Reader Int := fun s =>
  let (sign, s) := match s with
    | '+' :: s => ((1 : Int), s)
    | '-' :: s => (-1, s)
    | s => (1, s)
  match s with
  | [] => .error .unfinished
  | c :: _ => if isDigit c then .ok (sign * ofDigits (s.takeWhile isDigit), s.dropWhile isDigit) else .error .malformed

/-- Reads what may follow the digits of a number that has a fraction, an exponent or a size of `2 ^ 64` and more, and
judges the size of the number. -/
def scaled (significand : Nat) (power : Int) : Reader (Option Nat) := fun s =>
  let finish (e : Int) (rest : List Char) : Except Fault (Option Nat × List Char) :=
    if tooLarge significand (power + e) then .error .malformed else .ok (none, rest)
  match s with
  | 'e' :: s | 'E' :: s =>
    match exponent s with
    | .error f => .error f
    | .ok (e, rest) => finish e rest
  | s => finish 0 s

/-- Reads what follows the whole digits of a number. -/
def fraction (negative : Bool) (whole : List Char) : Reader (Option Nat) := fun s =>
  let (n, taken) := takeDigits 0 whole
  let power : Int := whole.length - taken
  match s with
  | '.' :: s =>
    let places := s.takeWhile isDigit
    let rest := s.dropWhile isDigit
    let (m, taken) := takeDigits n places
    if places.isEmpty then .error (if rest.isEmpty then .unfinished else .malformed)
    else scaled m (power - taken) rest
  | 'e' :: _ | 'E' :: _ => scaled n power s
  | s => if power = 0 then .ok (if negative then none else some n, s) else scaled n power s

/-- Reads the digits of a number from behind its sign. -/
def unsigned (negative : Bool) : Reader (Option Nat)
  | [] => .error .unfinished
  | c :: s =>
    if c = '0' then
      if (s.head?.any isDigit) then .error .malformed else fraction negative ['0'] s
    else if isDigit c then fraction negative (c :: s.takeWhile isDigit) (s.dropWhile isDigit)
    else .error .malformed

/-- Reads a number, of which at least a sign or a digit is there. -/
def number : Reader (Option Nat)
  | '-' :: s => unsigned true s
  | s => unsigned false s

/-! ## Passing over -/

/-- The number of characters of an exponent, its letter not counted. -/
def skipExponent (s : List Char) : Except Fault Nat :=
  let sign := if s.head? = some '+' ∨ s.head? = some '-' then 1 else 0
  let digits := (s.drop sign).takeWhile isDigit
  if digits.isEmpty then .error .malformed else .ok (sign + digits.length)

/-- The number of characters of what follows the whole digits of a number. -/
def skipFraction : List Char → Except Fault Nat
  | '.' :: s =>
    let places := (s.takeWhile isDigit).length
    if places = 0 then .error .malformed
    else
      match s.drop places with
      | 'e' :: t | 'E' :: t => (skipExponent t).map (· + places + 2)
      | _ => .ok (places + 1)
  | 'e' :: s => (skipExponent s).map (· + 1)
  | 'E' :: s => (skipExponent s).map (· + 1)
  | _ => .ok 0

/-- The number of characters of a number whose sign has been taken. -/
def skipUnsigned (s : List Char) : Except Fault Nat :=
  let digits := s.takeWhile isDigit
  if digits.isEmpty ∨ (digits.head? = some '0' ∧ 1 < digits.length) then .error .malformed
  else (skipFraction (s.drop digits.length)).map (· + digits.length)

end MediaRelay.Json
