import MediaRelay.Text.Unshown

/-!
# Quoted text

A text between double quotes in which every character can be seen: `quoteChar` writes one character, `quoted` the
whole. A quote or backslash gets a backslash, four controls have a letter of their own, and what would not be seen
is written by its number in hexadecimal.
-/

namespace MediaRelay.Text

/-- A natural number in lower-case hexadecimal. -/
def hex (n : Nat) : List Char :=
  Nat.toDigits 16 n

/-- One character as it stands between the quotes. -/
def quoteChar (c : Char) : List Char :=
  match c with
  | '"' => ['\\', '"']
  | '\\' => ['\\', '\\']
  | '\n' => ['\\', 'n']
  | '\r' => ['\\', 'r']
  | '\t' => ['\\', 't']
  | '\x00' => ['\\', '0']
  | c => if isShown c then [c] else ['\\', 'u', '\x7b'] ++ hex c.toNat ++ ['\x7d']

/-- The text between quotes. -/
def quoted (s : String) : String :=
  String.ofList ('"' :: s.toList.flatMap quoteChar ++ ['"'])

end MediaRelay.Text
