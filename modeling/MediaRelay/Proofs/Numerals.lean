import Mathlib.Data.Nat.Digits.Defs
import MediaRelay.Json.Compact
import MediaRelay.Json.Record
import MediaRelay.Proofs.Spelling

/-!
# How numbers are written

`Numeral s t` says that a number of any size, with or without a sign, a fraction and an exponent, stands at the front
of `s` and that `t` comes behind it. A number ends where a value may end (`Ends`), and not before.

* `number_ofNatural`: a natural number below `2 ^ 64` is read off its decimal digits;
* `Numeral.skip`: all numbers are passed over.
-/

namespace MediaRelay.Json

/-! ## Where a value ends -/

/-- A value ends where the text ends, or a blank, a comma or a closing bracket comes. -/
def Ends (t : List Char) : Prop :=
  ∀ c ∈ t.head?, isBlank c = true ∨ c = ',' ∨ c = ']' ∨ c = '\x7d'

/-- A value ends before blanks and a comma or closing bracket. -/
theorem Blanks.ends {s t : List Char} {c : Char} (h : Blanks s (c :: t)) (hc : c = ',' ∨ c = ']' ∨ c = '\x7d') :
    Ends s := by
  intro d hd
  cases h with
  | none =>
    cases hd
    exact .inr hc
  | more hb _ =>
    cases hd
    exact .inl hb

/-- A value ends before blanks and the end of the text. -/
theorem Blanks.ends_nil {s : List Char} (h : Blanks s []) : Ends s := by
  intro d hd
  cases h with
  | none => cases hd
  | more hb _ =>
    cases hd
    exact .inl hb

theorem eq_of_isBlank {c : Char} (h : isBlank c = true) : c = ' ' ∨ c = '\t' ∨ c = '\n' ∨ c = '\r' := by
  simpa [isBlank, or_assoc] using h

/-- No number begins with a blank. -/
theorem isBlank_eq_false {c : Char} (h : c = '-' ∨ isDigit c = true) : isBlank c = false := by
  cases hb : isBlank c with
  | false => rfl
  | true =>
    rcases eq_of_isBlank hb with rfl | rfl | rfl | rfl <;> exact absurd h (by decide)

/-- What a number may go on with does not come where a value ends. -/
theorem Ends.head {t u : List Char} {c : Char} (h : Ends t) (ht : t = c :: u) :
    isDigit c = false ∧ c ≠ '.' ∧ c ≠ 'e' ∧ c ≠ 'E' := by
  subst ht
  rcases h c rfl with hb | rfl | rfl | rfl
  · rcases eq_of_isBlank hb with rfl | rfl | rfl | rfl <;> decide
  all_goals decide

/-- No digit comes at the front of a text. -/
def NoDigit (t : List Char) : Prop :=
  ∀ c ∈ t.head?, isDigit c = false

theorem Ends.noDigit {t : List Char} (h : Ends t) : NoDigit t := by
  cases t with
  | nil => exact fun c hc => by cases hc
  | cons c u =>
    intro d hd
    cases hd
    exact (h.head rfl).1

theorem noDigit_cons {c : Char} {t : List Char} (h : isDigit c = false) : NoDigit (c :: t) := by
  intro d hd
  cases hd
  exact h

/-- Digits are taken off the front of a text up to the first character that is none. -/
theorem takeWhile_digits {ds t : List Char} (hd : ∀ c ∈ ds, isDigit c = true) (ht : NoDigit t) :
    (ds ++ t).takeWhile isDigit = ds ∧ (ds ++ t).dropWhile isDigit = t := by
  rw [List.takeWhile_append_of_pos hd, List.dropWhile_append_of_pos hd]
  cases t with
  | nil => exact ⟨List.append_nil _, rfl⟩
  | cons c t =>
    have hc : ¬ isDigit c = true := by rw [ht c rfl]; exact Bool.false_ne_true
    rw [List.takeWhile_cons_of_neg hc, List.dropWhile_cons_of_neg hc]
    exact ⟨List.append_nil _, rfl⟩

/-! ## Natural numbers in decimal -/

theorem isDigit_of_mem_ofNatural {n : Nat} {c : Char} (h : c ∈ ofNatural n) : isDigit c = true := by
  have hc := Nat.isDigit_of_mem_toDigits (by decide) (by decide) h
  simpa [Char.isDigit, isDigit, Char.le_def] using hc

/-- Only zero is written with a zero in front. -/
theorem ofNatural_cons (n : Nat) : ∃ c ds, ofNatural n = c :: ds ∧ (c = '0' → ds = [] ∧ n = 0) := by
  induction n using Nat.strongRecOn with
  | ind n ih =>
  by_cases hn : n < 10
  · refine ⟨n.digitChar, [], Nat.toDigits_of_lt_base hn, fun hc => ⟨rfl, Nat.digitChar_eq_zero.mp hc⟩⟩
  · obtain ⟨c, ds, he, hz⟩ := ih (n / 10) (by omega)
    refine ⟨c, ds ++ [(n % 10).digitChar], ?_, fun hc => absurd (hz hc).2 (by omega)⟩
    have : ofNatural n = ofNatural (n / 10) ++ [(n % 10).digitChar] := Nat.toDigits_of_base_le (by decide) (by omega)
    rw [this, he]
    rfl

/-- Digits can only raise a number. -/
theorem le_ofDigitChars (ds : List Char) (n : Nat) : n ≤ Nat.ofDigitChars 10 ds n := by
  induction ds generalizing n with
  | nil => exact Nat.le_of_eq Nat.ofDigitChars_nil.symm
  | cons c ds ih =>
    rw [Nat.ofDigitChars_cons]
    exact Nat.le_trans (by omega) (ih _)

/-- All digits are taken of a number below `2 ^ 64`. -/
theorem takeDigits_eq {ds : List Char} {n : Nat} (h : Nat.ofDigitChars 10 ds n < UInt64.size) :
    takeDigits n ds = (Nat.ofDigitChars 10 ds n, ds.length) := by
  induction ds generalizing n with
  | nil => rw [takeDigits, Nat.ofDigitChars_nil, List.length_nil]
  | cons c ds ih =>
    rw [Nat.ofDigitChars_cons, Nat.mul_comm 10 n] at h ⊢
    have hlt := Nat.lt_of_le_of_lt (le_ofDigitChars ds _) h
    simp only [takeDigits, if_pos hlt, ih h, List.length_cons]

/-- Whole digits without fraction and exponent are a natural number. -/
theorem fraction_ofNatural {n : Nat} {t : List Char} (hn : n < UInt64.size) (ht : Ends t) :
    fraction false (ofNatural n) t = .ok (some n, t) := by
  have hv : Nat.ofDigitChars 10 (ofNatural n) 0 = n := Nat.ofDigitChars_toDigits (by decide) (by decide)
  have htake : takeDigits 0 (ofNatural n) = (n, (ofNatural n).length) := by
    rw [takeDigits_eq (by rw [hv]; exact hn), hv]
  unfold fraction
  rw [htake]
  dsimp only
  split
  · exact absurd rfl (ht.head rfl).2.1
  · exact absurd rfl (ht.head rfl).2.2.1
  · exact absurd rfl (ht.head rfl).2.2.2
  · rw [if_pos (Int.sub_self _)]
    rfl

/-- A natural number below `2 ^ 64` is read off its decimal digits. -/
theorem number_ofNatural {n : Nat} {t : List Char} (hn : n < UInt64.size) (ht : Ends t) :
    number (ofNatural n ++ t) = .ok (some n, t) := by
  obtain ⟨c, ds, he, hz⟩ := ofNatural_cons n
  have hdigits : ∀ d ∈ c :: ds, isDigit d = true := fun d hd => isDigit_of_mem_ofNatural (he ▸ hd)
  have hc := hdigits c List.mem_cons_self
  have hsign : c ≠ '-' := by
    rintro rfl
    exact absurd hc (by decide)
  have hsplit := takeWhile_digits (fun d hd => hdigits d (List.mem_cons_of_mem c hd)) ht.noDigit
  have hfraction := fraction_ofNatural hn ht
  rw [he] at hfraction ⊢
  rw [List.cons_append, number, unsigned]
  · split
    · next h0 =>
      obtain ⟨rfl, -⟩ := hz h0
      subst h0
      rw [if_neg, List.nil_append]
      · exact hfraction
      · cases t with
        | nil => exact Bool.false_ne_true
        | cons d t => simpa using (ht.head rfl).1
    · rw [hsplit.1, hsplit.2]
      exact hfraction
  · exact fun s hs => hsign (List.cons.inj hs).1

/-! ## Numbers of any size -/

/-- The whole digits of a number: a zero, or digits of which the first is none. -/
inductive Whole : List Char → List Char → Prop
  | zero {t : List Char} : Whole ('0' :: t) t
  | digits {c : Char} {ds t : List Char} : c ≠ '0' → (∀ d ∈ c :: ds, isDigit d = true) → Whole (c :: ds ++ t) t

/-- The fraction of a number, if it has one. -/
inductive Fraction : List Char → List Char → Prop
  | none {t : List Char} : Fraction t t
  | places {ds t : List Char} : ds ≠ [] → (∀ d ∈ ds, isDigit d = true) → Fraction ('.' :: (ds ++ t)) t

/-- The exponent of a number, if it has one. -/
inductive Exponent : List Char → List Char → Prop
  | none {t : List Char} : Exponent t t
  | power {e : Char} {sign ds t : List Char} : e = 'e' ∨ e = 'E' → sign = [] ∨ sign = ['+'] ∨ sign = ['-'] → ds ≠ [] →
      (∀ d ∈ ds, isDigit d = true) → Exponent (e :: (sign ++ (ds ++ t))) t

/-- A number. -/
inductive Numeral : List Char → List Char → Prop
  | positive {s t u v : List Char} : Whole s u → Fraction u v → Exponent v t → Numeral s t
  | negative {s t u v : List Char} : Whole s u → Fraction u v → Exponent v t → Numeral ('-' :: s) t

theorem Numeral.length {s t : List Char} (h : Numeral s t) : t.length ≤ s.length := by
  have whole : ∀ {s u : List Char}, Whole s u → u.length ≤ s.length := by
    intro s u hw
    cases hw with
    | zero => exact Nat.le_succ _
    | digits =>
      simp only [List.length_append, List.length_cons]
      omega
  have fraction : ∀ {s u : List Char}, Fraction s u → u.length ≤ s.length := by
    intro s u hf
    cases hf with
    | none => exact Nat.le_refl _
    | places =>
      simp only [List.length_cons, List.length_append]
      omega
  have exponent : ∀ {s u : List Char}, Exponent s u → u.length ≤ s.length := by
    intro s u he
    cases he with
    | none => exact Nat.le_refl _
    | power =>
      simp only [List.length_cons, List.length_append]
      omega
  cases h with
  | positive hw hf he => exact Nat.le_trans (exponent he) (Nat.le_trans (fraction hf) (whole hw))
  | negative hw hf he =>
    exact Nat.le_succ_of_le (Nat.le_trans (exponent he) (Nat.le_trans (fraction hf) (whole hw)))

/-- An exponent is passed over. -/
theorem skipExponent_eq {sign ds t : List Char} (hs : sign = [] ∨ sign = ['+'] ∨ sign = ['-']) (hne : ds ≠ [])
    (hd : ∀ d ∈ ds, isDigit d = true) (ht : Ends t) :
    skipExponent (sign ++ (ds ++ t)) = .ok (sign.length + ds.length) := by
  have htake := (takeWhile_digits hd ht.noDigit).1
  have hempty : ¬ ds.isEmpty = true := by simpa using hne
  obtain ⟨c, ds', rfl⟩ := List.exists_cons_of_ne_nil hne
  have hc := hd c List.mem_cons_self
  have hplus : c ≠ '+' := by rintro rfl; exact absurd hc (by decide)
  have hminus : c ≠ '-' := by rintro rfl; exact absurd hc (by decide)
  rcases hs with rfl | rfl | rfl <;> unfold skipExponent
  · simp only [List.nil_append, List.cons_append, List.head?_cons, Option.some.injEq, hplus, hminus, or_self, if_false,
      List.drop_zero] at htake ⊢
    rw [htake, if_neg hempty, List.length_nil, Nat.zero_add]
  all_goals
    simp only [List.cons_append, List.nil_append, List.head?_cons, true_or, or_true, if_true, List.drop_succ_cons,
      List.drop_zero] at htake ⊢
    rw [htake, if_neg hempty]
    rfl

/-- A fraction and an exponent are passed over. -/
theorem skipFraction_eq {s t u : List Char} (hf : Fraction s u) (he : Exponent u t) (ht : Ends t) :
    ∃ n, skipFraction s = .ok n ∧ s.drop n = t := by
  cases hf with
  | none =>
    cases he with
    | none =>
      refine ⟨0, ?_, rfl⟩
      unfold skipFraction
      split
      · exact absurd rfl (ht.head rfl).2.1
      · exact absurd rfl (ht.head rfl).2.2.1
      · exact absurd rfl (ht.head rfl).2.2.2
      · rfl
    | @power e sign ds _ hletter hs hne hd =>
      refine ⟨sign.length + ds.length + 1, ?_, ?_⟩
      · rcases hletter with rfl | rfl <;>
        · simp only [skipFraction, skipExponent_eq hs hne hd ht]
          rfl
      · rw [List.drop_succ_cons, ← List.append_assoc, ← List.length_append, List.drop_left]
  | @places ds _ hne hd =>
    have hlen : ds.length ≠ 0 := fun h => hne (List.length_eq_zero_iff.mp h)
    cases he with
    | none =>
      have htake := (takeWhile_digits hd ht.noDigit).1
      refine ⟨ds.length + 1, ?_, ?_⟩
      · simp only [skipFraction, htake, if_neg hlen, List.drop_left]
        split
        · exact absurd rfl (ht.head rfl).2.2.1
        · exact absurd rfl (ht.head rfl).2.2.2
        · rfl
      · rw [List.drop_succ_cons, List.drop_left]
    | @power e sign es _ hletter hs hne' hd' =>
      have hletter' : isDigit e = false := by rcases hletter with rfl | rfl <;> decide
      have htake := (takeWhile_digits hd (noDigit_cons (t := sign ++ (es ++ t)) hletter')).1
      refine ⟨sign.length + es.length + ds.length + 2, ?_, ?_⟩
      · simp only [skipFraction, htake, if_neg hlen, List.drop_left]
        rcases hletter with rfl | rfl <;>
        · simp only [skipExponent_eq hs hne' hd' ht]
          rfl
      · have hsum : sign.length + es.length + ds.length + 2 = (ds.length + (sign.length + es.length + 1)) + 1 := by
          omega
        rw [hsum, List.drop_succ_cons, ← List.drop_drop, List.drop_left, List.drop_succ_cons, ← List.append_assoc,
          ← List.length_append, List.drop_left]

/-- No digit comes behind whole digits. -/
theorem Fraction.noDigit {s t u : List Char} (hf : Fraction s u) (he : Exponent u t) (ht : Ends t) : NoDigit s := by
  cases hf with
  | none =>
    cases he with
    | none => exact ht.noDigit
    | power hletter => exact noDigit_cons (by rcases hletter with rfl | rfl <;> decide)
  | places => exact noDigit_cons (by decide)

/-- A number is passed over from behind its sign. -/
theorem skipUnsigned_eq {s t u v : List Char} (hw : Whole s u) (hf : Fraction u v) (he : Exponent v t) (ht : Ends t) :
    ∃ n, skipUnsigned s = .ok n ∧ s.drop n = t := by
  obtain ⟨n, hn, hdrop⟩ := skipFraction_eq hf he ht
  have pass : ∀ ds : List Char, ds ≠ [] → (∀ d ∈ ds, isDigit d = true) → (ds.head? = some '0' → ds.length ≤ 1) →
      ∃ n, skipUnsigned (ds ++ u) = .ok n ∧ (ds ++ u).drop n = t := by
    intro ds hne hd hzero
    have htake := (takeWhile_digits hd (hf.noDigit he ht)).1
    refine ⟨n + ds.length, ?_, ?_⟩
    · unfold skipUnsigned
      simp only [htake, List.drop_left, hn]
      rw [if_neg]
      · rfl
      · rintro (h | ⟨h, hlt⟩)
        · exact hne (List.isEmpty_iff.mp h)
        · exact absurd (hzero h) (Nat.not_le.mpr hlt)
    · rw [Nat.add_comm, ← List.drop_drop, List.drop_left, hdrop]
  cases hw with
  | zero =>
    refine pass ['0'] (List.cons_ne_nil _ _) (fun d hd => ?_) fun _ => Nat.le_refl _
    rw [List.mem_singleton.mp hd]
    decide
  | @digits c ds _ hc hd =>
    exact pass (c :: ds) (List.cons_ne_nil _ _) hd fun h => absurd (Option.some.inj h) hc

/-- A number begins with a sign or a digit. -/
theorem Whole.head {s t : List Char} (h : Whole s t) : ∃ c u, s = c :: u ∧ isDigit c = true := by
  cases h with
  | zero => exact ⟨_, _, rfl, by decide⟩
  | digits _ hd => exact ⟨_, _, rfl, hd _ List.mem_cons_self⟩

/-- A number is passed over. -/
theorem Numeral.skip {s t : List Char} (h : Numeral s t) (ht : Ends t) :
    ∃ c u, s = c :: u ∧ (c = '-' ∨ isDigit c = true) ∧ skipScalar c u = .ok t := by
  cases h with
  | @positive _ _ u v hw hf he =>
    obtain ⟨c, w, rfl, hc⟩ := hw.head
    obtain ⟨n, hn, hdrop⟩ := skipUnsigned_eq hw hf he ht
    have hquote : c ≠ '"' := by rintro rfl; exact absurd hc (by decide)
    have hminus : c ≠ '-' := by rintro rfl; exact absurd hc (by decide)
    refine ⟨c, w, rfl, .inr hc, ?_⟩
    rw [skipScalar, if_neg hquote, if_neg hminus, if_pos hc, hn, ← hdrop]
    rfl
  | @negative s _ u v hw hf he =>
    obtain ⟨n, hn, hdrop⟩ := skipUnsigned_eq hw hf he ht
    refine ⟨'-', s, rfl, .inl rfl, ?_⟩
    rw [skipScalar, if_neg (by decide), if_pos rfl, hn, ← hdrop]
    rfl

end MediaRelay.Json
