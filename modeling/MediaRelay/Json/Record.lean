import MediaRelay.Json.Skip

/-!
# Reading records, lists and plain values

A record is written as an object with its fields in any order, or as an array of its first fields in their order.
`Schema` says what its fields are, and `Schema.read` reads either form. While it is read a record is a draft: each
field gives what its value changes in the draft, and `Schema.finish` judges the draft at the end.

* `natural`, `boolean`, `textValue`, `null` and `list` read the values of fields.
* `wrongType` gives the fault of a value that is not of the kind asked for.
-/

namespace MediaRelay.Json

/-! ## Values of the wrong kind -/

/-- The fault of a value that is of another kind than the one asked for, or of no kind. Of a text, number or word
the whole is judged, of an array or object only its opening bracket. -/
def wrongType : List Char → Fault
  | [] => .unfinished
  | c :: s =>
    if c = '"' then
      match text s with
      | .error f => f
      | .ok _ => .mismatched
    else if c = '-' ∨ isDigit c then
      match number (c :: s) with
      | .error f => f
      | .ok _ => .mismatched
    else if c = '[' ∨ c = '\x7b' then .mismatched
    else
      match wordTail? c with
      | none => .malformed
      | some w =>
        match word w s with
        | .error f => f
        | .ok _ => .mismatched

/-! ## Plain values -/

/-- Reads a natural number below `bound`. -/
def natural (bound : Nat) : Reader Nat := fun s =>
  let s := skipBlanks s
  if s.head?.any fun c => c = '-' ∨ isDigit c then
    match number s with
    | .error f => .error f
    | .ok (some n, rest) => if n < bound then .ok (n, rest) else .error .mismatched
    | .ok (none, _) => .error .mismatched
  else .error (wrongType s)

/-- Reads `true` or `false`. -/
def boolean : Reader Bool := fun s =>
  match skipBlanks s with
  | 't' :: s => (word ['r', 'u', 'e'] s).map (true, ·)
  | 'f' :: s => (word ['a', 'l', 's', 'e'] s).map (false, ·)
  | s => .error (wrongType s)

/-- Reads a text. -/
def textValue : Reader (List Char) := fun s =>
  match skipBlanks s with
  | '"' :: s => text s
  | s => .error (wrongType s)

/-- Reads `null`. -/
def null : Reader Unit := fun s =>
  match skipBlanks s with
  | 'n' :: s => (word ['u', 'l', 'l'] s).map ((), ·)
  | s => .error (wrongType s)

/-! ## Lists -/

/-- Where an array or object goes on: at an item, or behind its closing bracket. -/
inductive Next where
  | item (rest : List Char)
  | closed (rest : List Char)

/-- The next element of an array, whose first element has no comma before it. -/
def nextElement (first : Bool) (s : List Char) : Except Fault Next :=
  match skipBlanks s with
  | [] => .error .unfinished
  | c :: s =>
    if c = ']' then .ok (.closed s)
    else if first then .ok (.item (c :: s))
    else if c = ',' then
      match skipBlanks s with
      | [] => .error .unfinished
      | d :: s => if d = ']' then .error .malformed else .ok (.item (d :: s))
    else .error .malformed

/-- Reads the elements of an array up to and including its closing bracket. A reader that takes nothing off the
text has found no element. -/
def elements {α : Type} (read : Reader α) (first : Bool) (s : List Char) : Except Fault (List α × List Char) :=
  match nextElement first s with
  | .error f => .error f
  | .ok (.closed rest) => .ok ([], rest)
  | .ok (.item t) =>
    match read t with
    | .error f => .error f
    | .ok (a, rest) =>
      if rest.length < s.length then (elements read false rest).map fun (as, rest) => (a :: as, rest)
      else .error .malformed
termination_by s.length

/-- Reads an array of values of one kind. -/
def list {α : Type} (read : Reader α) : Reader (List α) := fun s =>
  match skipBlanks s with
  | '[' :: s => elements read true s
  | s => .error (wrongType s)

/-! ## Records -/

/-- A field of a record: its key, and the reader of its value, which gives what the value changes in the draft. -/
structure Field (δ : Type) where
  key : String
  read : Reader (δ → δ)

/-- A field whose value is stored in the draft. -/
def Field.of {δ α : Type} (key : String) (read : Reader α) (store : α → δ → δ) : Field δ where
  key := key
  read := fun s => (read s).map fun (a, rest) => (store a, rest)

/-- The fields of a record. A closed record refuses keys that are not its own, an open one passes over them. -/
structure Schema (δ α : Type) where
  start : δ
  fields : List (Field δ)
  closed : Bool := false
  finish : δ → Except Fault α

/-- A draft, and the keys of the fields that were given. -/
structure Draft (δ : Type) where
  given : List String
  value : δ

/-- The field of a key. -/
def Schema.field? {δ α : Type} (c : Schema δ α) (key : List Char) : Option (Field δ) :=
  c.fields.find? fun f => f.key.toList = key

/-- Reads a member from behind the opening quote of its key. -/
def Schema.member {δ α : Type} (c : Schema δ α) (d : Draft δ) : Reader (Draft δ) := fun s => do
  let (key, s) ← text s
  match c.field? key with
  | none =>
    if c.closed then .error .mismatched
    else
      let s ← colon s
      let s ← skipValue s
      .ok (d, s)
  | some f =>
    if f.key ∈ d.given then .error .mismatched
    else
      let s ← colon s
      let (change, s) ← f.read s
      .ok (⟨f.key :: d.given, change d.value⟩, s)

/-- The text behind the opening quote of a key. -/
def openKey : List Char → Except Fault Next
  | [] => .error .unfinished
  | '"' :: s => .ok (.item s)
  | _ => .error .malformed

/-- The next member of an object, from behind the opening quote of its key; the first has no comma before it. -/
def nextMember (first : Bool) (s : List Char) : Except Fault Next :=
  match skipBlanks s with
  | [] => .error .unfinished
  | c :: s =>
    if c = '\x7d' then .ok (.closed s)
    else if first then openKey (c :: s)
    else if c = ',' then openKey (skipBlanks s)
    else .error .malformed

/-- Reads the members of an object up to and including its closing brace. -/
def Schema.members {δ α : Type} (c : Schema δ α) (first : Bool) (d : Draft δ) (s : List Char) :
    Except Fault (α × List Char) :=
  match nextMember first s with
  | .error f => .error f
  | .ok (.closed rest) => (c.finish d.value).map (·, rest)
  | .ok (.item t) =>
    match c.member d t with
    | .error f => .error f
    | .ok (d, rest) => if rest.length < s.length then c.members false d rest else .error .malformed
termination_by s.length

/-- Takes the closing bracket of an array that is full. -/
def closeArray (s : List Char) : Except Fault (List Char) :=
  match skipBlanks s with
  | [] => .error .unfinished
  | ']' :: s => .ok s
  | _ => .error .malformed

/-- Reads the values of the given fields as elements of an array, up to and including its closing bracket; the
array may stop early. -/
def Schema.positional {δ α : Type} (c : Schema δ α) : List (Field δ) → Bool → δ → Reader α
  | [], _, d, s => do
    let a ← c.finish d
    let rest ← closeArray s
    .ok (a, rest)
  | f :: fs, first, d, s => do
    match ← nextElement first s with
    | .closed rest => (c.finish d).map (·, rest)
    | .item t =>
      let (change, rest) ← f.read t
      c.positional fs false (change d) rest

/-- Reads a record, written as an object or as an array. -/
def Schema.read {δ α : Type} (c : Schema δ α) : Reader α := fun s =>
  match skipBlanks s with
  | '\x7b' :: s => c.members true ⟨[], c.start⟩ s
  | '[' :: s => c.positional c.fields true c.start s
  | s => .error (wrongType s)

end MediaRelay.Json
