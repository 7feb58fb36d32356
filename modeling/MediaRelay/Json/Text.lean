import MediaRelay.Json.Reader

/-!
# Texts in JSON

* `text` reads what follows an opening quote, up to and including the closing one, and decodes the escapes.
* `skipText` passes over the same without decoding: there a surrogate may stand alone.
* `encode` writes a text with its quotes: quotes, backslashes and controls escaped, all else as it is.

An escape takes a known number of characters, which `escape` and `skipEscape` give.
-/

namespace MediaRelay.Json

/-! ## Escapes -/

/-- The value of a hexadecimal digit. -/
def hexDigit? (c : Char) : Option Nat :=
  if '0' ≤ c ∧ c ≤ '9' then some (c.toNat - '0'.toNat)
  else if 'a' ≤ c ∧ c ≤ 'f' then some (c.toNat - 'a'.toNat + 10)
  else if 'A' ≤ c ∧ c ≤ 'F' then some (c.toNat - 'A'.toNat + 10)
  else none

/-- The code unit of four hexadecimal digits. A text with fewer than four bytes left ends too early. -/
def codeUnit (s : List Char) : Except Fault Nat :=
  if (s.take 4).foldr (fun c n => c.utf8Size + n) 0 < 4 then .error .unfinished
  else
    match s with
    | a :: b :: c :: d :: _ =>
      match hexDigit? a, hexDigit? b, hexDigit? c, hexDigit? d with
      | some a, some b, some c, some d => .ok (((a * 16 + b) * 16 + c) * 16 + d)
      | _, _, _, _ => .error .malformed
    | _ => .error .malformed

/-- Whether a code unit begins a pair of surrogates. -/
def isLeading (n : Nat) : Bool :=
  0xD800 ≤ n && n < 0xDC00

/-- Whether a code unit ends a pair of surrogates. -/
def isTrailing (n : Nat) : Bool :=
  0xDC00 ≤ n && n < 0xE000

/-- The character of a pair of surrogates. -/
def ofSurrogates (leading trailing : Nat) : Char :=
  Char.ofNat (0x10000 + (leading - 0xD800) * 0x400 + (trailing - 0xDC00))

/-- The character that a letter after a backslash stands for. -/
def escapeLetter? : Char → Option Char
  | '"' => some '"'
  | '\\' => some '\\'
  | '/' => some '/'
  | 'b' => some '\x08'
  | 'f' => some '\x0c'
  | 'n' => some '\n'
  | 'r' => some '\r'
  | 't' => some '\t'
  | _ => none

/-- The character of the escape whose backslash has been taken, and how many characters follow the backslash. -/
def escape : List Char → Except Fault (Char × Nat)
  | [] => .error .unfinished
  | 'u' :: s =>
    match codeUnit s with
    | .error f => .error f
    | .ok n =>
      if isTrailing n then .error .malformed
      else if isLeading n then
        match s.drop 4 with
        | [] => .error .unfinished
        | ['\\'] => .error .unfinished
        | '\\' :: 'u' :: t =>
          match codeUnit t with
          | .error f => .error f
          | .ok m => if isTrailing m then .ok (ofSurrogates n m, 11) else .error .malformed
        | _ => .error .malformed
      else .ok (Char.ofNat n, 5)
  | c :: _ =>
    match escapeLetter? c with
    | some d => .ok (d, 1)
    | none => .error .malformed

/-- How many characters of an escape follow its backslash, whatever it stands for. -/
def skipEscape : List Char → Except Fault Nat
  | [] => .error .unfinished
  | 'u' :: s => (codeUnit s).map fun _ => 5
  | c :: _ => if (escapeLetter? c).isSome then .ok 1 else .error .malformed

/-! ## Reading -/

/-- Reads a text from behind its opening quote. -/
def text : Reader (List Char)
  | [] => .error .unfinished
  | '"' :: s => .ok ([], s)
  | '\\' :: s =>
    match escape s with
    | .error f => .error f
    | .ok (c, n) => (text (s.drop n)).map fun (cs, rest) => (c :: cs, rest)
  | c :: s => if c < ' ' then .error .malformed else (text s).map fun (cs, rest) => (c :: cs, rest)
termination_by s => s.length
decreasing_by all_goals simp only [List.length_drop, List.length_cons]; omega

/-- Passes over a text from behind its opening quote. -/
def skipText : List Char → Except Fault (List Char)
  | [] => .error .unfinished
  | '"' :: s => .ok s
  | '\\' :: s =>
    match skipEscape s with
    | .error f => .error f
    | .ok n => skipText (s.drop n)
  | c :: s => if c < ' ' then .error .malformed else skipText s
termination_by s => s.length
decreasing_by all_goals simp only [List.length_drop, List.length_cons]; omega

/-! ## Writing -/

/-- A hexadecimal digit. -/
def digit (n : Nat) : Char :=
  Nat.digitChar n

/-- A character as it stands in a written text. -/
def encodeChar (c : Char) : List Char :=
  match c with
  | '"' => ['\\', '"']
  | '\\' => ['\\', '\\']
  | '\x08' => ['\\', 'b']
  | '\x0c' => ['\\', 'f']
  | '\n' => ['\\', 'n']
  | '\r' => ['\\', 'r']
  | '\t' => ['\\', 't']
  | c => if c < ' ' then ['\\', 'u', '0', '0', digit (c.toNat / 16), digit (c.toNat % 16)] else [c]

/-- A written text, with its quotes. -/
def encode (cs : List Char) : List Char :=
  '"' :: cs.flatMap encodeChar ++ ['"']

end MediaRelay.Json
