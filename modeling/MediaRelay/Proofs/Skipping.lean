import MediaRelay.Proofs.Numerals

/-!
# Any JSON value is passed over

`Wellformed` is the grammar of JSON: it says that a value, the elements of an array or the members of an object stand
at the front of a text, and what comes behind them. Values may be nested to any depth and keys may be repeated.

* `skip_comma`, `skip_close`, `skip_openArray`, `skip_openObject`, `skip_scalar`, `skip_key`: the steps of passing over;
* `skipValue_of_wellformed`: each value is passed over.
-/

namespace MediaRelay.Json

/-! ## The grammar of JSON -/

/-- What stands somewhere: a value, or the elements of an array or the members of an object up to and including the
closing bracket. -/
inductive Phrase where
  | value
  | elements
  | members

/-- A key stands somewhere with its colon and the blanks around it. -/
inductive Key : List Char → List Char → Prop
  | colon {s t u v : List Char} : Blanks s ('"' :: u) → Quoted u v → Blanks v (':' :: t) → Key s t

/-- The words of JSON. -/
def words : List (List Char) :=
  [['n', 'u', 'l', 'l'], ['t', 'r', 'u', 'e'], ['f', 'a', 'l', 's', 'e']]

/-- A phrase of JSON stands at the front of a text, and behind it comes another. -/
inductive Wellformed : Phrase → List Char → List Char → Prop
  | text {s t : List Char} : Quoted s t → Wellformed .value ('"' :: s) t
  | numeral {s t : List Char} : Numeral s t → Wellformed .value s t
  | word {w t : List Char} : w ∈ words → Wellformed .value (w ++ t) t
  | emptyArray {s t : List Char} : Blanks s (']' :: t) → Wellformed .value ('[' :: s) t
  | array {s t : List Char} : Wellformed .elements s t → Wellformed .value ('[' :: s) t
  | emptyObject {s t : List Char} : Blanks s ('\x7d' :: t) → Wellformed .value ('\x7b' :: s) t
  | object {s t : List Char} : Wellformed .members s t → Wellformed .value ('\x7b' :: s) t
  | lastElement {s t u v : List Char} : Blanks s u → Wellformed .value u v → Blanks v (']' :: t) →
      Wellformed .elements s t
  | element {s t u v w : List Char} : Blanks s u → Wellformed .value u v → Blanks v (',' :: w) →
      Wellformed .elements w t → Wellformed .elements s t
  | lastMember {s t u v w : List Char} : Key s u → Blanks u v → Wellformed .value v w → Blanks w ('\x7d' :: t) →
      Wellformed .members s t
  | member {s t u v w x : List Char} : Key s u → Blanks u v → Wellformed .value v w → Blanks w (',' :: x) →
      Wellformed .members x t → Wellformed .members s t

theorem Key.length {s t : List Char} (h : Key s t) : t.length < s.length := by
  cases h with
  | colon hs hq hv =>
    have hs := hs.length
    have hq := hq.length
    have hv := hv.length
    simp only [List.length_cons] at hs hv
    omega

theorem Wellformed.length {p : Phrase} {s t : List Char} (h : Wellformed p s t) : t.length ≤ s.length := by
  induction h with
  | text hq => exact Nat.le_succ_of_le hq.length
  | numeral hn => exact hn.length
  | word => simp
  | emptyArray hb | emptyObject hb => exact Nat.le_succ_of_le (Nat.le_of_succ_le hb.length)
  | array _ ih | object _ ih => exact Nat.le_succ_of_le ih
  | lastElement hs _ hb ih =>
    exact Nat.le_trans (Nat.le_of_succ_le hb.length) (Nat.le_trans ih hs.length)
  | element hs _ hb _ ih ih' =>
    exact Nat.le_trans ih' (Nat.le_trans (Nat.le_of_succ_le hb.length) (Nat.le_trans ih hs.length))
  | lastMember hk hs _ hb ih =>
    have hrest := Nat.le_trans (Nat.le_of_succ_le hb.length) (Nat.le_trans ih hs.length)
    exact Nat.le_trans hrest (Nat.le_of_lt hk.length)
  | member hk hs _ hb _ ih ih' =>
    have hrest := Nat.le_trans (Nat.le_of_succ_le hb.length) (Nat.le_trans ih hs.length)
    exact Nat.le_trans ih' (Nat.le_trans hrest (Nat.le_of_lt hk.length))

/-! ## Steps of passing over -/

section Steps

variable {f : Frame} {fs : List Frame} {s t u : List Char} {c : Char} {first : Bool}

/-- Behind a comma the next item of the innermost bracket is wanted. -/
theorem skip_comma (h : skipBlanks s = ',' :: t) : skip .next (f :: fs) s = skip f.item (f :: fs) t := by
  rw [skip, if_neg (by simp)]
  split
  · next hs => rw [h] at hs; cases hs
  · next hs =>
    rw [h] at hs
    cases hs
    simp only [if_true]

/-- The innermost bracket is closed. -/
theorem skip_close (h : skipBlanks s = f.closing :: t) : skip .next (f :: fs) s = skip .next fs t := by
  have hne : f.closing ≠ ',' := by cases f <;> decide
  rw [skip, if_neg (by simp)]
  split
  · next hs => rw [h] at hs; cases hs
  · next hs =>
    rw [h] at hs
    cases hs
    simp only [if_neg hne, if_true]

/-- An array is closed in which there is nothing. -/
theorem skip_emptyArray (h : skipBlanks s = ']' :: t) :
    skip (.value true) (.array :: fs) s = skip .next fs t := by
  rw [skip, if_neg (by simp)]
  split
  · next hs => rw [h] at hs; cases hs
  · next hs =>
    rw [h] at hs
    cases hs
    simp only [and_self, if_true, List.drop_succ_cons, List.drop_zero]

/-- An array is opened. -/
theorem skip_openArray (h : skipBlanks s = '[' :: t) :
    skip (.value first) fs s = skip (.value true) (.array :: fs) t := by
  rw [skip, if_neg (by simp)]
  split
  · next hs => rw [h] at hs; cases hs
  · next hs =>
    rw [h] at hs
    cases hs
    have hne : ¬ (first = true ∧ '[' = ']') := fun hn => absurd hn.2 (by decide)
    simp only [if_neg hne, if_true]

/-- An object is opened. -/
theorem skip_openObject (h : skipBlanks s = '\x7b' :: t) :
    skip (.value first) fs s = skip (.key true) (.object :: fs) t := by
  rw [skip, if_neg (by simp)]
  split
  · next hs => rw [h] at hs; cases hs
  · next hs =>
    rw [h] at hs
    cases hs
    have hne : ¬ (first = true ∧ '\x7b' = ']') := fun hn => absurd hn.2 (by decide)
    have hne' : '\x7b' ≠ '[' := by decide
    simp only [if_neg hne, if_neg hne', if_true]

/-- A text, number or word is passed over. -/
theorem skip_scalar (h : skipBlanks s = c :: t) (hc : c ≠ ']' ∧ c ≠ '[' ∧ c ≠ '\x7b') (hu : skipScalar c t = .ok u) :
    skip (.value first) fs s = skip .next fs u := by
  rw [skip, if_neg (by simp)]
  split
  · next hs => rw [h] at hs; cases hs
  · next hs =>
    rw [h] at hs
    cases hs
    have hne : ¬ (first = true ∧ c = ']') := fun hn => hc.1 hn.2
    simp only [if_neg hne, if_neg hc.2.1, if_neg hc.2.2]
    split
    · next hr => rw [hu] at hr; cases hr
    · next hr =>
      rw [hu] at hr
      cases hr
      rfl

/-- An object is closed in which there is nothing. -/
theorem skip_emptyObject (h : skipBlanks s = '\x7d' :: t) :
    skip (.key true) (.object :: fs) s = skip .next fs t := by
  rw [skip, if_neg (by simp)]
  split
  · next hs => rw [h] at hs; cases hs
  · next hs =>
    rw [h] at hs
    cases hs
    simp only [and_self, if_true, List.drop_succ_cons, List.drop_zero]

/-- A key is passed over with its colon. -/
theorem skip_key (h : Key s t) : skip (.key first) fs s = skip (.value false) fs t := by
  cases h with
  | @colon u v hs hq hv =>
  have hkey : skipKey u = .ok t := by
    simp only [skipKey, skipText_of_quoted hq, colon, hv.skip_cons (by decide)]
  rw [skip, if_neg (by simp)]
  split
  · next he => rw [hs.skip_cons (by decide)] at he; cases he
  · next he =>
    rw [hs.skip_cons (by decide)] at he
    cases he
    have hne : ¬ (first = true ∧ '"' = '\x7d') := fun hn => absurd hn.2 (by decide)
    simp only [if_neg hne, if_true]
    split
    · next hr => rw [hkey] at hr; cases hr
    · next hr =>
      rw [hkey] at hr
      cases hr
      rfl

end Steps

/-! ## Passing over -/

/-- What it means that a phrase is passed over, whatever brackets are open around it. -/
def Phrase.Passed : Phrase → List Char → List Char → Prop
  | .value, u, t => ∀ s, Blanks s u → Ends t → ∀ first fs, skip (.value first) fs s = skip .next fs t
  | .elements, s, t => ∀ first fs, skip (.value first) (.array :: fs) s = skip .next fs t
  | .members, s, t => ∀ first fs, skip (.key first) (.object :: fs) s = skip .next fs t

/-- Each phrase is passed over. -/
theorem Wellformed.passed {p : Phrase} {s t : List Char} (h : Wellformed p s t) : p.Passed s t := by
  induction h with
  | text hq =>
    intro s hs _ first fs
    exact skip_scalar (hs.skip_cons (by decide)) (by decide) (by rw [skipScalar, if_pos rfl, skipText_of_quoted hq])
  | numeral hn =>
    intro s hs ht first fs
    obtain ⟨c, u, rfl, hc, hu⟩ := hn.skip ht
    refine skip_scalar (hs.skip_cons (isBlank_eq_false hc)) ⟨?_, ?_, ?_⟩ hu <;>
    · rintro rfl
      exact absurd hc (by decide)
  | word hw =>
    intro s hs _ first fs
    simp only [words, List.mem_cons, List.not_mem_nil, or_false] at hw
    rcases hw with rfl | rfl | rfl <;> exact skip_scalar (hs.skip_cons (by decide)) (by decide) rfl
  | emptyArray hb =>
    intro s hs _ first fs
    rw [skip_openArray (hs.skip_cons (by decide)), skip_emptyArray (hb.skip_cons (by decide))]
  | array _ ih =>
    intro s hs _ first fs
    rw [skip_openArray (hs.skip_cons (by decide)), ih true fs]
  | emptyObject hb =>
    intro s hs _ first fs
    rw [skip_openObject (hs.skip_cons (by decide)), skip_emptyObject (hb.skip_cons (by decide))]
  | object _ ih =>
    intro s hs _ first fs
    rw [skip_openObject (hs.skip_cons (by decide)), ih true fs]
  | lastElement hs _ hb ih =>
    intro first fs
    rw [ih _ hs (hb.ends (.inr (.inl rfl))) first, skip_close (hb.skip_cons (by decide))]
  | element hs _ hb _ ih ih' =>
    intro first fs
    rw [ih _ hs (hb.ends (.inl rfl)) first, skip_comma (hb.skip_cons (by decide)), Frame.item, ih' false fs]
  | lastMember hk hs _ hb ih =>
    intro first fs
    rw [skip_key hk, ih _ hs (hb.ends (.inr (.inr rfl))) false, skip_close (hb.skip_cons (by decide))]
  | member hk hs _ hb _ ih ih' =>
    intro first fs
    rw [skip_key hk, ih _ hs (hb.ends (.inl rfl)) false, skip_comma (hb.skip_cons (by decide)), Frame.item,
      ih' false fs]

/-- A value of any kind and depth is passed over. -/
theorem skipValue_of_wellformed {s t u : List Char} (hs : Blanks s u) (h : Wellformed .value u t) (ht : Ends t) :
    skipValue s = .ok t := by
  rw [skipValue, h.passed s hs ht false [], skip, if_pos ⟨rfl, rfl⟩]

end MediaRelay.Json
