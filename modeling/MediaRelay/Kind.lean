import MediaRelay.Json.Record

/-!
# Kinds of media

A track carries audio or video, or its kind is unspecified. A kind is read from a word (in any case of its ASCII
letters), from a number and from JSON, and shown as a word.
-/

namespace MediaRelay

/-- What a track carries. -/
inductive Kind where
  | unspecified
  | audio
  | video
deriving DecidableEq, Repr

namespace Kind

/-- All kinds, in the order of their numbers. -/
def all : List Kind := [unspecified, audio, video]

/-- The number of a kind. -/
def number : Kind → Nat
  | unspecified => 0
  | audio => 1
  | video => 2

/-- The kind of a number; other numbers stand for no kind in particular. -/
def ofNumber (n : Nat) : Kind :=
  (all.find? (·.number = n)).getD unspecified

/-- The word for a kind in a message. -/
def shown : Kind → String
  | unspecified => "Unspecified"
  | audio => "audio"
  | video => "video"

/-- The kind of a word, whatever the case of its ASCII letters; other words stand for no kind in particular. -/
def ofText (s : String) : Kind :=
  let word := s.map Char.toLower
  if word = "audio" then audio else if word = "video" then video else unspecified

/-! ## JSON -/

/-- The word for a kind in JSON. -/
def word : Kind → String
  | unspecified => "unspecified"
  | audio => "audio"
  | video => "video"

/-- The kind written as JSON. -/
def json (k : Kind) : String :=
  String.ofList (Json.encode k.word.toList)

/-- Reads the word for a kind from behind its opening quote. -/
def readWord : Json.Reader Kind := fun s => do
  let (w, rest) ← Json.text s
  match all.find? fun k => k.word.toList = w with
  | some k => .ok (k, rest)
  | none => .error .mismatched

/-- Takes the closing brace of an object that holds one member. -/
def closeObject (s : List Char) : Except Json.Fault (List Char) :=
  match Json.skipBlanks s with
  | [] => .error .unfinished
  | '\x7d' :: s => .ok s
  | _ => .error .malformed

/-- Reads a kind: its word, or an object with the word as its only key and the value null. -/
def read : Json.Reader Kind := fun s =>
  match Json.skipBlanks s with
  | [] => .error .unfinished
  | '"' :: s => readWord s
  | '\x7b' :: s => do
    match Json.skipBlanks s with
    | '"' :: s =>
      let (k, s) ← readWord s
      let s ← Json.colon s
      let ((), s) ← Json.null s
      let s ← closeObject s
      .ok (k, s)
    | s => .error (Json.wrongType s)
  | _ => .error .malformed

/-- The kind that a JSON text stands for. -/
def ofJson (text : String) : Except Json.Fault Kind :=
  Json.Reader.whole read text.toList

end Kind

end MediaRelay
