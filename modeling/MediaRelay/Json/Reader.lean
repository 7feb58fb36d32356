/-!
# Reading JSON: faults, readers, blanks and words

A reader takes a value off the front of a text and gives it with the rest of the text. Values are judged while they
are read, so of several problems the first in the order of the text is reported:

* `Fault.unfinished`: the text ends too early;
* `Fault.malformed`: no continuation of what was read so far is JSON, or an array or enumeration holds too much;
* `Fault.mismatched`: it is JSON, and not of the kind that is asked for.
-/

namespace MediaRelay.Json

/-- Why a text was not read. -/
inductive Fault where
  | unfinished
  | malformed
  | mismatched
deriving DecidableEq, Repr

/-- The wording of a fault. -/
def Fault.message : Fault → String
  | .unfinished => "the text ends too early"
  | .malformed => "the text is not JSON"
  | .mismatched => "the value is of another kind"

/-- Takes a value off the front of a text. -/
abbrev Reader (α : Type) := List Char → Except Fault (α × List Char)

/-- The characters that may stand between tokens. -/
def isBlank (c : Char) : Bool :=
  c == ' ' || c == '\t' || c == '\n' || c == '\r'

/-- The text from its first character that is not blank. -/
def skipBlanks (s : List Char) : List Char :=
  s.dropWhile isBlank

/-- Takes the letters of a word off the front of a text. -/
def word : List Char → List Char → Except Fault (List Char)
  | [], s => .ok s
  | _ :: _, [] => .error .unfinished
  | c :: cs, d :: s => if c = d then word cs s else .error .malformed

/-- Takes a colon, with blanks before it, off the front of a text. -/
def colon (s : List Char) : Except Fault (List Char) :=
  match skipBlanks s with
  | [] => .error .unfinished
  | ':' :: s => .ok s
  | _ => .error .malformed

/-- The value of a whole text, which holds nothing after it but blanks. -/
def Reader.whole {α : Type} (read : Reader α) (s : List Char) : Except Fault α :=
  match read s with
  | .error f => .error f
  | .ok (a, rest) => if (skipBlanks rest).isEmpty then .ok a else .error .malformed

end MediaRelay.Json
