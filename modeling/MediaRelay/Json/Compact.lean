import MediaRelay.Json.Text

/-!
# Writing JSON without blanks

Values are written as lists of characters: naturals in decimal, booleans as words, and arrays and objects with
nothing between their tokens.
-/

namespace MediaRelay.Json

/-- A natural number in decimal. -/
def ofNatural (n : Nat) : List Char :=
  Nat.toDigits 10 n

/-- A boolean as a word. -/
def ofBoolean (b : Bool) : List Char :=
  if b then ['t', 'r', 'u', 'e'] else ['f', 'a', 'l', 's', 'e']

/-- Items with commas between them. -/
def separated : List (List Char) → List Char
  | [] => []
  | [a] => a
  | a :: b :: as => a ++ ',' :: separated (b :: as)

/-- An array of written values. -/
def ofArray (items : List (List Char)) : List Char :=
  '[' :: separated items ++ [']']

/-- A member of an object. -/
def ofMember (key : String) (value : List Char) : List Char :=
  encode key.toList ++ ':' :: value

/-- An object of written members. -/
def ofObject (members : List (String × List Char)) : List Char :=
  '\x7b' :: separated (members.map fun (k, v) => ofMember k v) ++ ['\x7d']

end MediaRelay.Json
