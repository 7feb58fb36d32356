import MediaRelay.Json.Number
import MediaRelay.Json.Text

/-!
# Passing over a JSON value

`skipValue` passes over a value of any kind and depth. It is a pushdown machine: a stack of open brackets (`Frame`)
and what is wanted next (`Want`); every step of `skip` takes at least one character. Texts, numbers and words are
passed over in one step (`skipScalar`).
-/

namespace MediaRelay.Json

/-! ## Texts, numbers and words -/

/-- What follows the first letter of a word. -/
def wordTail? : Char → Option (List Char)
  | 'n' => some ['u', 'l', 'l']
  | 't' => some ['r', 'u', 'e']
  | 'f' => some ['a', 'l', 's', 'e']
  | _ => none

/-- Passes over a text, number or word from behind its first character `c`. -/
def skipScalar (c : Char) (s : List Char) : Except Fault (List Char) :=
  if c = '"' then skipText s
  else if c = '-' then (skipUnsigned s).map s.drop
  else if isDigit c then (skipUnsigned (c :: s)).map fun n => (c :: s).drop n
  else
    match wordTail? c with
    | some w => word w s
    | none => .error .malformed

/-- Passes over a key and its colon from behind the opening quote. -/
def skipKey (s : List Char) : Except Fault (List Char) :=
  match skipText s with
  | .error f => .error f
  | .ok s => colon s

/-! ## Nothing passed over grows the text -/

theorem length_skipBlanks (s : List Char) : (skipBlanks s).length ≤ s.length :=
  (List.dropWhile_suffix _).length_le

theorem length_word {w s r : List Char} (h : word w s = .ok r) : r.length ≤ s.length := by
  induction w generalizing s with
  | nil => cases h; exact Nat.le_refl _
  | cons c w ih =>
    cases s with
    | nil => cases h
    | cons d s =>
      simp only [word] at h
      split at h
      · exact Nat.le_succ_of_le (ih h)
      · cases h

theorem length_skipText {s r : List Char} (h : skipText s = .ok r) : r.length ≤ s.length := by
  fun_induction skipText s with
  | case1 => cases h
  | case2 s => cases h; exact Nat.le_succ _
  | case3 => cases h
  | case4 s n _ ih =>
    have := ih h
    simp only [List.length_drop, List.length_cons] at this ⊢
    omega
  | case5 => cases h
  | case6 _ _ _ _ _ ih => exact Nat.le_succ_of_le (ih h)

theorem length_colon {s r : List Char} (h : colon s = .ok r) : r.length ≤ s.length := by
  have hd := length_skipBlanks s
  unfold colon at h
  split at h
  · cases h
  · next he => cases h; rw [he] at hd; exact Nat.le_of_succ_le hd
  · cases h

theorem length_skipKey {s r : List Char} (h : skipKey s = .ok r) : r.length ≤ s.length := by
  unfold skipKey at h
  split at h
  · cases h
  · next ht => exact Nat.le_trans (length_colon h) (length_skipText ht)

theorem skipUnsigned_pos {s : List Char} {n : Nat} (h : skipUnsigned s = .ok n) : 0 < n := by
  unfold skipUnsigned at h
  dsimp only at h
  split at h
  · cases h
  · next hne =>
    have hpos : 0 < (s.takeWhile isDigit).length := by
      simp only [not_or, List.isEmpty_iff] at hne
      exact List.length_pos_iff.mpr hne.1
    cases hf : skipFraction (s.drop (s.takeWhile isDigit).length) with
    | error f => rw [hf] at h; cases h
    | ok m =>
      rw [hf] at h
      cases h
      exact Nat.lt_of_lt_of_le hpos (Nat.le_add_left _ _)

theorem length_skipScalar {c : Char} {s r : List Char} (h : skipScalar c s = .ok r) : r.length ≤ s.length := by
  unfold skipScalar at h
  split at h
  · exact length_skipText h
  split at h
  · cases hu : skipUnsigned s with
    | error f => rw [hu] at h; cases h
    | ok n => rw [hu] at h; cases h; simp only [List.length_drop]; omega
  split at h
  · cases hu : skipUnsigned (c :: s) with
    | error f => rw [hu] at h; cases h
    | ok n =>
      have := skipUnsigned_pos hu
      rw [hu] at h
      cases h
      simp only [List.length_drop, List.length_cons]
      omega
  split at h
  · exact length_word h
  · cases h

/-! ## Values -/

/-- An open bracket. -/
inductive Frame where
  | array
  | object
deriving DecidableEq, Repr

/-- The bracket that closes a frame. -/
def Frame.closing : Frame → Char
  | .array => ']'
  | .object => '\x7d'

/-- What is wanted next; just behind an opening bracket its end is welcome too. -/
inductive Want where
  | value (first : Bool)
  | key (first : Bool)
  | next
deriving DecidableEq, Repr

/-- What is wanted behind a comma. -/
def Frame.item : Frame → Want
  | .array => .value false
  | .object => .key false

set_option linter.unusedVariables false in
/-- The rest of the text after all that is open has been closed. -/
def skip (want : Want) (frames : List Frame) (s : List Char) : Except Fault (List Char) :=
  if want = .next ∧ frames = [] then .ok s
  else
    match hs : skipBlanks s with
    | [] => .error .unfinished
    | c :: t =>
      match want, frames with
      | .next, frames =>
        match frames with
        | [] => .ok s
        | f :: fs =>
          if c = ',' then skip f.item (f :: fs) t
          else if c = f.closing then skip .next fs t
          else .error .malformed
      | .value first, fs =>
        if first ∧ c = ']' then skip .next (fs.drop 1) t
        else if c = '[' then skip (.value true) (.array :: fs) t
        else if c = '\x7b' then skip (.key true) (.object :: fs) t
        else
          match hr : skipScalar c t with
          | .error e => .error e
          | .ok r => skip .next fs r
      | .key first, fs =>
        if first ∧ c = '\x7d' then skip .next (fs.drop 1) t
        else if c = '"' then
          match hr : skipKey t with
          | .error e => .error e
          | .ok r => skip (.value false) fs r
        else .error .malformed
termination_by s.length
decreasing_by
  all_goals
    have hd := length_skipBlanks s
    rw [hs, List.length_cons] at hd
    first
      | (have hl := length_skipScalar hr; omega)
      | (have hl := length_skipKey hr; omega)
      | omega

/-- Passes over one value. -/
def skipValue (s : List Char) : Except Fault (List Char) :=
  skip (.value false) [] s

end MediaRelay.Json
