import MediaRelay.Json.Text

/-!
# How texts are spelled

A text can be written in many ways: characters stand for themselves or are escaped. `Spells cs s t` says that what
follows an opening quote in `s` spells the characters `cs`, closing quote included, and that `t` comes behind it;
`Quoted s t` that it is a text of some sort, in which a surrogate may stand alone.

* `text_of_spells`: reading takes each spelling for what it spells;
* `skipText_of_quoted`: all texts are passed over;
* `spells_encode`: what is written is a spelling.
-/

namespace MediaRelay.Json

/-! ## Blanks -/

/-- Blanks stand at the front of a text, and behind them comes another. -/
inductive Blanks : List Char → List Char → Prop
  | none {t : List Char} : Blanks t t
  | more {c : Char} {s t : List Char} : isBlank c = true → Blanks s t → Blanks (c :: s) t

/-- Blanks at the front do not matter to what skips them. -/
theorem Blanks.skip {s t : List Char} (h : Blanks s t) : skipBlanks s = skipBlanks t := by
  induction h with
  | none => rfl
  | more hc _ ih => rw [skipBlanks, List.dropWhile_cons_of_pos hc, ← ih, skipBlanks]

/-- Behind the blanks stands the first character that is none. -/
theorem Blanks.skip_cons {s t : List Char} {c : Char} (h : Blanks s (c :: t)) (hc : isBlank c = false) :
    skipBlanks s = c :: t := by
  rw [h.skip, skipBlanks, List.dropWhile_cons_of_neg (by rw [hc]; exact Bool.false_ne_true)]

theorem Blanks.length {s t : List Char} (h : Blanks s t) : t.length ≤ s.length := by
  induction h with
  | none => exact Nat.le_refl _
  | more _ _ ih => exact Nat.le_succ_of_le ih

/-! ## Spellings -/

/-- Four hexadecimal digits write a code unit. -/
inductive CodeUnit : Nat → List Char → List Char → Prop
  | digits {a b c d : Char} {w x y z : Nat} {t : List Char} : hexDigit? a = some w → hexDigit? b = some x →
      hexDigit? c = some y → hexDigit? d = some z →
      CodeUnit (((w * 16 + x) * 16 + y) * 16 + z) (a :: b :: c :: d :: t) t

/-- A text spells characters, up to and including its closing quote, and behind it comes another. -/
inductive Spells : List Char → List Char → List Char → Prop
  | close {t : List Char} : Spells [] ('"' :: t) t
  /-- A character stands for itself. -/
  | plain {c : Char} {cs s t : List Char} : ¬ c < ' ' → c ≠ '"' → c ≠ '\\' → Spells cs s t → Spells (c :: cs) (c :: s) t
  /-- A letter behind a backslash stands for a character. -/
  | letter {l c : Char} {cs s t : List Char} : escapeLetter? l = some c → Spells cs s t →
      Spells (c :: cs) ('\\' :: l :: s) t
  /-- A code unit that is no surrogate stands for a character. -/
  | unit {n : Nat} {cs s t u : List Char} : CodeUnit n s u → isLeading n = false → isTrailing n = false →
      Spells cs u t → Spells (Char.ofNat n :: cs) ('\\' :: 'u' :: s) t
  /-- A pair of surrogates stands for a character. -/
  | pair {m n : Nat} {cs s t u v : List Char} : CodeUnit m s ('\\' :: 'u' :: u) → isLeading m = true →
      CodeUnit n u v → isTrailing n = true → Spells cs v t → Spells (ofSurrogates m n :: cs) ('\\' :: 'u' :: s) t

/-- A text stands up to and including a closing quote, whatever it spells, and behind it comes another. -/
inductive Quoted : List Char → List Char → Prop
  | close {t : List Char} : Quoted ('"' :: t) t
  | plain {c : Char} {s t : List Char} : ¬ c < ' ' → c ≠ '"' → c ≠ '\\' → Quoted s t → Quoted (c :: s) t
  | letter {l c : Char} {s t : List Char} : escapeLetter? l = some c → Quoted s t → Quoted ('\\' :: l :: s) t
  | unit {n : Nat} {s t u : List Char} : CodeUnit n s u → Quoted u t → Quoted ('\\' :: 'u' :: s) t

theorem CodeUnit.length {n : Nat} {s t : List Char} (h : CodeUnit n s t) : t.length ≤ s.length := by
  cases h
  simp only [List.length_cons]
  omega

theorem Spells.length {cs s t : List Char} (h : Spells cs s t) : t.length ≤ s.length := by
  induction h with
  | close => exact Nat.le_succ _
  | plain _ _ _ _ ih => exact Nat.le_succ_of_le ih
  | letter _ _ ih => exact Nat.le_succ_of_le (Nat.le_succ_of_le ih)
  | unit hu _ _ _ ih => exact Nat.le_succ_of_le (Nat.le_succ_of_le (Nat.le_trans ih hu.length))
  | pair hm _ hn _ _ ih =>
    have hm := hm.length
    have hn := hn.length
    simp only [List.length_cons] at hm ⊢
    omega

theorem Quoted.length {s t : List Char} (h : Quoted s t) : t.length ≤ s.length := by
  induction h with
  | close => exact Nat.le_succ _
  | plain _ _ _ _ ih => exact Nat.le_succ_of_le ih
  | letter _ _ ih => exact Nat.le_succ_of_le (Nat.le_succ_of_le ih)
  | unit hu _ ih => exact Nat.le_succ_of_le (Nat.le_succ_of_le (Nat.le_trans ih hu.length))

/-! ## Reading -/

theorem CodeUnit.read {n : Nat} {s t : List Char} (h : CodeUnit n s t) : codeUnit s = .ok n ∧ t = s.drop 4 := by
  cases h with
  | @digits a b c d w x y z t hw hx hy hz =>
    have ha := a.utf8Size_pos
    have hb := b.utf8Size_pos
    have hc := c.utf8Size_pos
    have hd := d.utf8Size_pos
    have hsize : ¬ a.utf8Size + (b.utf8Size + (c.utf8Size + (d.utf8Size + 0))) < 4 := by omega
    constructor
    · simp only [codeUnit, List.take_succ_cons, List.take_zero, List.foldr_cons, List.foldr_nil, if_neg hsize, hw, hx,
        hy, hz]
    · rfl

/-- No code unit is both halves of a pair. -/
theorem isTrailing_of_isLeading {n : Nat} (h : isLeading n = true) : isTrailing n = false := by
  simp only [isLeading, isTrailing, Bool.and_eq_true, decide_eq_true_eq, Bool.and_eq_false_imp] at h ⊢
  intro hn
  omega

theorem escape_letter {l c : Char} (s : List Char) (h : escapeLetter? l = some c) : escape (l :: s) = .ok (c, 1) := by
  have hu : l ≠ 'u' := by
    rintro rfl
    cases h
  unfold escape
  split
  · next he => cases he
  · next he => exact absurd (List.cons.inj he).1 hu
  · next he =>
    obtain ⟨rfl, -⟩ := List.cons.inj he
    rw [h]

theorem escape_unit {n : Nat} {s t : List Char} (h : CodeUnit n s t) (hl : isLeading n = false)
    (ht : isTrailing n = false) : escape ('u' :: s) = .ok (Char.ofNat n, 5) := by
  simp only [escape, h.read.1, hl, ht, Bool.false_eq_true, if_false]

theorem escape_pair {m n : Nat} {s t u : List Char} (h : CodeUnit m s ('\\' :: 'u' :: t)) (hl : isLeading m = true)
    (h' : CodeUnit n t u) (ht : isTrailing n = true) : escape ('u' :: s) = .ok (ofSurrogates m n, 11) := by
  simp only [escape, h.read.1, isTrailing_of_isLeading hl, hl, ← h.read.2, h'.read.1, ht, Bool.false_eq_true, if_false,
    if_true]

/-- A text is read as what it spells. -/
theorem text_of_spells {cs s t : List Char} (h : Spells cs s t) : text s = .ok (cs, t) := by
  induction h with
  | close => rw [text]
  | @plain c cs s t hc hq hb _ ih =>
    rw [text, if_neg hc, ih]
    · rfl
    · exact hq
    · exact hb
  | @letter l c cs s t hl _ ih =>
    simp only [text, escape_letter s hl, List.drop_succ_cons, List.drop_zero, ih]
    rfl
  | @unit n cs s t u hu hl ht _ ih =>
    have hs : ('u' :: s).drop 5 = u := hu.read.2.symm
    simp only [text, escape_unit hu hl ht, hs, ih]
    rfl
  | @pair m n cs s t u v hm hl hn ht _ ih =>
    have hs : ('u' :: s).drop 11 = v := by
      rw [hn.read.2]
      calc ('u' :: s).drop 11 = (s.drop 4).drop 6 := by rw [List.drop_drop]; rfl
        _ = u.drop 4 := by rw [← hm.read.2]; rfl
    simp only [text, escape_pair hm hl hn ht, hs, ih]
    rfl

/-- A text is passed over. -/
theorem skipText_of_quoted {s t : List Char} (h : Quoted s t) : skipText s = .ok t := by
  induction h with
  | close => rw [skipText]
  | @plain c s t hc hq hb _ ih =>
    rw [skipText, if_neg hc, ih]
    · exact hq
    · exact hb
  | @letter l c s t hl _ ih =>
    have hu : l ≠ 'u' := by
      rintro rfl
      cases hl
    have he : skipEscape (l :: s) = .ok 1 := by
      unfold skipEscape
      split
      · next he => cases he
      · next he => exact absurd (List.cons.inj he).1 hu
      · next he =>
        obtain ⟨rfl, -⟩ := List.cons.inj he
        rw [hl]
        rfl
    simp only [skipText, he, List.drop_succ_cons, List.drop_zero, ih]
  | @unit n s t u hu _ ih =>
    have he : skipEscape ('u' :: s) = .ok 5 := by
      simp only [skipEscape, hu.read.1]
      rfl
    have hs : ('u' :: s).drop 5 = u := hu.read.2.symm
    simp only [skipText, he, hs, ih]

/-! ## Writing -/

theorem hexDigit?_digit {n : Nat} (h : n < 16) : hexDigit? (digit n) = some n := by
  revert n
  decide

/-- Two hexadecimal digits are enough for a control. -/
theorem toNat_lt_of_control {c : Char} (h : c < ' ') : c.toNat < 32 := h

/-- A character as it is written spells itself. -/
theorem spells_encodeChar {c : Char} {cs s t : List Char} (h : Spells cs s t) :
    Spells (c :: cs) (encodeChar c ++ s) t := by
  unfold encodeChar
  split
  case h_8 hq hb _ _ _ _ _ =>
    split
    · next hc =>
      have hn := toNat_lt_of_control hc
      have hunit : CodeUnit c.toNat ('0' :: '0' :: digit (c.toNat / 16) :: digit (c.toNat % 16) :: s) s := by
        have := CodeUnit.digits (t := s) (hexDigit?_digit (n := 0) (by decide)) (hexDigit?_digit (n := 0) (by decide))
          (hexDigit?_digit (n := c.toNat / 16) (by omega)) (hexDigit?_digit (n := c.toNat % 16) (by omega))
        have hval : ((0 * 16 + 0) * 16 + c.toNat / 16) * 16 + c.toNat % 16 = c.toNat := by omega
        rw [hval] at this
        exact this
      have hl : isLeading c.toNat = false := by
        simp only [isLeading, Bool.and_eq_false_imp, decide_eq_true_eq]
        omega
      have ht : isTrailing c.toNat = false := by
        simp only [isTrailing, Bool.and_eq_false_imp, decide_eq_true_eq]
        omega
      have := Spells.unit hunit hl ht h
      rw [Char.ofNat_toNat] at this
      exact this
    · next hc => exact .plain hc hq hb h
  all_goals exact .letter rfl h

/-- What is written spells the text. -/
theorem spells_encode (cs t : List Char) : Spells cs (cs.flatMap encodeChar ++ '"' :: t) t := by
  induction cs with
  | nil => exact .close
  | cons c cs ih =>
    rw [List.flatMap_cons, List.append_assoc]
    exact spells_encodeChar ih

end MediaRelay.Json
