import MediaRelay.Proofs.Skipping

/-!
# How values and lists are written

A way to write a value is a relation between a text at whose front the value stands and the text behind it. `Reads`
says that a reader gives one result for all that is written in some way, blanks in front included.

* `reads_natural`, `reads_boolean`, `reads_text`: plain values;
* `elements_eq`, `reads_list`: lists, element by element;
* `items_separated`, `array_ofArray`: what is written of a list.
-/

namespace MediaRelay.Json

/-! ## Values -/

/-- A reader gives a result for all that is written in some way, with blanks in front. -/
def Reads {α : Type} (read : Reader α) (written : List Char → List Char → Prop) (result : Except Fault α) : Prop :=
  ∀ s u t, Blanks s u → written u t → Ends t → read s = result.map (·, t)

/-- Values take something of a text, and begin neither with a blank nor with a closing bracket. -/
def Values (written : List Char → List Char → Prop) : Prop :=
  ∀ s t, written s t → ∃ c u, s = c :: u ∧ isBlank c = false ∧ c ≠ ']' ∧ t.length ≤ u.length

theorem Values.length {written : List Char → List Char → Prop} (hv : Values written) {s t : List Char}
    (h : written s t) : t.length ≤ s.length := by
  obtain ⟨c, u, rfl, -, -, hlen⟩ := hv s t h
  exact Nat.le_succ_of_le hlen

/-- A value that is written in one way only. -/
def Literal (w s t : List Char) : Prop :=
  s = w ++ t

/-- A text with its quotes. -/
inductive Text (cs : List Char) : List Char → List Char → Prop
  | quote {s t : List Char} : Spells cs s t → Text cs ('"' :: s) t

theorem values_natural (n : Nat) : Values (Literal (ofNatural n)) := by
  rintro s t rfl
  obtain ⟨c, ds, he, -⟩ := ofNatural_cons n
  have hc : isDigit c = true := isDigit_of_mem_ofNatural (he ▸ List.mem_cons_self)
  refine ⟨c, ds ++ t, by rw [he]; rfl, isBlank_eq_false (.inr hc), ?_, by simp⟩
  rintro rfl
  exact absurd hc (by decide)

theorem values_boolean (b : Bool) : Values (Literal (ofBoolean b)) := by
  rintro s t rfl
  cases b
  · exact ⟨'f', ['a', 'l', 's', 'e'] ++ t, rfl, by decide, by decide, Nat.le_add_right _ 4⟩
  · exact ⟨'t', ['r', 'u', 'e'] ++ t, rfl, by decide, by decide, Nat.le_add_right _ 3⟩

theorem values_text (cs : List Char) : Values (Text cs) := by
  rintro s t ⟨h⟩
  exact ⟨'"', _, rfl, by decide, by decide, h.length⟩

/-- A natural number is read off its decimal digits. -/
theorem reads_natural {n bound : Nat} (hn : n < bound) (hb : bound ≤ UInt64.size) :
    Reads (natural bound) (Literal (ofNatural n)) (.ok n) := by
  rintro s u t hs rfl ht
  obtain ⟨c, ds, he, -⟩ := ofNatural_cons n
  have hc : isDigit c = true := isDigit_of_mem_ofNatural (he ▸ List.mem_cons_self)
  have hnumber := number_ofNatural (Nat.lt_of_lt_of_le hn hb) ht
  rw [he, List.cons_append] at hs hnumber
  have hskip := hs.skip_cons (isBlank_eq_false (.inr hc))
  simp only [natural, hskip, List.head?_cons, Option.any_some, hc, or_true, decide_true, if_true, hnumber, if_pos hn]
  rfl

/-- A word is read as the boolean that it stands for. -/
theorem reads_boolean (b : Bool) : Reads boolean (Literal (ofBoolean b)) (.ok b) := by
  rintro s u t hs rfl -
  cases b
  all_goals
    have hskip := hs.skip_cons (by decide)
    simp only [boolean, hskip]
    rfl

/-- A text is read as what it spells. -/
theorem reads_text (cs : List Char) : Reads textValue (Text cs) (.ok cs) := by
  rintro s u t hs ⟨h⟩ -
  simp only [textValue, hs.skip_cons (by decide : isBlank '"' = false), text_of_spells h]
  rfl

/-- What is read of a field is what is read of its value. -/
theorem Reads.field {α δ : Type} {read : Reader α} {written : List Char → List Char → Prop} {result : Except Fault α}
    {key : String} {store : α → δ → δ} {change : Except Fault (δ → δ)} (h : Reads read written result)
    (hchange : result.map store = change) : Reads (Field.of key read store).read written change := by
  intro s u t hs hu ht
  show (read s).map _ = _
  rw [h s u t hs hu ht, ← hchange]
  cases result <;> rfl

/-! ## Items -/

/-- An item stands somewhere: it has a comma before it, unless it is the first. -/
inductive Before : Bool → List Char → List Char → Prop
  | first {s u : List Char} : Blanks s u → Before true s u
  | later {s u v : List Char} : Blanks s (',' :: v) → Blanks v u → Before false s u

/-- Items stand at the front of a text up to and including a closing bracket. -/
inductive Items {β : Type} (closing : Char) (item : β → List Char → List Char → Prop) :
    Bool → List β → List Char → List Char → Prop
  | none {first : Bool} {s t : List Char} : Blanks s (closing :: t) → Items closing item first [] s t
  | more {first : Bool} {b : β} {bs : List β} {s t u v : List Char} : Before first s u → item b u v →
      Items closing item false bs v t → Items closing item first (b :: bs) s t

section Items

variable {β : Type} {closing : Char} {item : β → List Char → List Char → Prop} {first : Bool} {bs : List β}
  {s t u : List Char} {c : Char}

theorem Before.length (h : Before first s u) : u.length ≤ s.length := by
  cases h with
  | first hs => exact hs.length
  | later hs hv => exact Nat.le_trans hv.length (Nat.le_of_succ_le hs.length)

theorem Items.length (hi : ∀ b s t, item b s t → t.length ≤ s.length) (h : Items closing item first bs s t) :
    t.length ≤ s.length := by
  induction h with
  | none hs => exact Nat.le_of_succ_le hs.length
  | more hs hv _ ih => exact Nat.le_trans ih (Nat.le_trans (hi _ _ _ hv) hs.length)

/-- A value ends where other items come behind it. -/
theorem Items.ends (hc : closing = ']' ∨ closing = '\x7d') (h : Items closing item false bs s t) : Ends s := by
  cases h with
  | none hs => exact hs.ends (.inr hc)
  | more hs =>
    cases hs with
    | later hs => exact hs.ends (.inl rfl)

/-- The next element of an array. -/
theorem nextElement_item (h : Before first s (c :: u)) (hb : isBlank c = false) (hc : c ≠ ']') :
    nextElement first s = .ok (.item (c :: u)) := by
  cases h with
  | first hs => simp only [nextElement, hs.skip_cons hb, if_neg hc, if_true]
  | later hs hv =>
    have hcomma : ¬ ',' = ']' := by decide
    simp only [nextElement, hs.skip_cons (by decide), if_neg hcomma, Bool.false_eq_true, if_false, if_true,
      hv.skip_cons hb, if_neg hc]

theorem nextElement_closed (h : Blanks s (']' :: t)) : nextElement first s = .ok (.closed t) := by
  simp only [nextElement, h.skip_cons (by decide), if_true]

/-- The next member of an object. -/
theorem nextMember_item (h : Before first s ('"' :: u)) : nextMember first s = .ok (.item u) := by
  have hquote : ¬ '"' = '\x7d' := by decide
  cases h with
  | first hs => simp only [nextMember, hs.skip_cons (by decide), if_neg hquote, if_true, openKey]
  | later hs hv =>
    have hcomma : ¬ ',' = '\x7d' := by decide
    simp only [nextMember, hs.skip_cons (by decide), if_neg hcomma, Bool.false_eq_true, if_false, if_true,
      hv.skip_cons (by decide), openKey]

theorem nextMember_closed (h : Blanks s ('\x7d' :: t)) : nextMember first s = .ok (.closed t) := by
  simp only [nextMember, h.skip_cons (by decide), if_true]

/-- Elements are read one after the other. -/
theorem elements_eq {α : Type} {read : Reader α} {result : β → Except Fault α} (hv : ∀ b, Values (item b))
    (hr : ∀ b, Reads read (item b) (result b)) (h : Items ']' item first bs s t) :
    elements read first s = (bs.mapM result).map (·, t) := by
  generalize hclosing : ']' = closing at h
  induction h with
  | none hs =>
    subst hclosing
    rw [elements, nextElement_closed hs]
    rfl
  | @more first b bs s t u v hs hu hrest ih =>
    subst hclosing
    obtain ⟨c, w, rfl, hb, hc, hlen⟩ := hv b _ _ hu
    have hshort : v.length < s.length := Nat.lt_of_le_of_lt hlen hs.length
    rw [elements, nextElement_item hs hb hc]
    simp only [hr b _ _ _ .none hu (hrest.ends (.inl rfl)), List.mapM_cons]
    cases result b with
    | error f => rfl
    | ok a =>
      show (if v.length < s.length then (elements read false v).map _ else _) = _
      rw [if_pos hshort, ih]
      cases bs.mapM result <;> rfl

/-- A list is written as an array. -/
inductive Array (item : β → List Char → List Char → Prop) (bs : List β) : List Char → List Char → Prop
  | bracket {s t : List Char} : Items ']' item true bs s t → Array item bs ('[' :: s) t

theorem values_array (hv : ∀ b, Values (item b)) (bs : List β) : Values (Array item bs) := by
  rintro s t ⟨h⟩
  exact ⟨'[', _, rfl, by decide, by decide, h.length fun b _ _ hb => (hv b).length hb⟩

/-- A list is read element by element. -/
theorem reads_list {α : Type} {read : Reader α} {result : β → Except Fault α} (hv : ∀ b, Values (item b))
    (hr : ∀ b, Reads read (item b) (result b)) (bs : List β) :
    Reads (list read) (Array item bs) (bs.mapM result) := by
  rintro s u t hs ⟨h⟩ -
  simp only [list, hs.skip_cons (by decide : isBlank '[' = false)]
  exact elements_eq hv hr h

end Items

/-! ## Writing -/

section Writing

variable {β : Type} {closing : Char} {item : β → List Char → List Char → Prop}

/-- What is written of the items of a list, each paired with how it is written. -/
theorem items_separated (ws : List (β × List Char)) (h : ∀ w ∈ ws, ∀ t, item w.1 (w.2 ++ t) t) (t : List Char) :
    Items closing item true (ws.map Prod.fst) (separated (ws.map Prod.snd) ++ closing :: t) t := by
  induction ws with
  | nil => exact .none .none
  | cons w ws ih =>
    obtain ⟨hw, hws⟩ := List.forall_mem_cons.mp h
    have hrest := ih hws
    cases ws with
    | nil => exact .more (.first .none) (hw _) (.none .none)
    | cons v ws =>
      have hrest' : Items closing item false ((v :: ws).map Prod.fst)
          (',' :: (separated ((v :: ws).map Prod.snd) ++ closing :: t)) t := by
        cases hrest with
        | more hs hu hv =>
          cases hs with
          | first hs => exact .more (.later .none hs) hu hv
      have := Items.more (.first .none) (hw (',' :: (separated ((v :: ws).map Prod.snd) ++ closing :: t))) hrest'
      simpa only [List.map_cons, separated, List.append_assoc, List.cons_append] using this

theorem array_ofArray (ws : List (β × List Char)) (h : ∀ w ∈ ws, ∀ t, item w.1 (w.2 ++ t) t) (t : List Char) :
    Array item (ws.map Prod.fst) (ofArray (ws.map Prod.snd) ++ t) t := by
  have harray := Array.bracket (items_separated ws h t)
  simpa only [ofArray, List.cons_append, List.append_assoc, List.nil_append] using harray

theorem text_encode (cs t : List Char) : Text cs (encode cs ++ t) t := by
  have := spells_encode cs t
  simpa only [encode, List.cons_append, List.append_assoc, List.nil_append] using Text.quote this

end Writing

end MediaRelay.Json
