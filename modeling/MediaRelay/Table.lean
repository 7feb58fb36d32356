/-!
# Tables

A table holds values by their keys, in the order in which the keys first came. `find?` gives the value of a key,
`insert` stores one, `erase` forgets one, `map` changes all; `find?_insert_self`, `find?_insert_of_ne`,
`find?_erase_self`, `find?_erase_of_ne` and `find?_map` say what they do. Tables that agree in a key still do after the
same key has been stored or forgotten in both: `rel_find?_insert` and `rel_find?_erase`.
-/

namespace MediaRelay

/-- Values by their keys. -/
structure Table (κ α : Type) where
  entries : List (κ × α) := []

namespace Table

variable {κ α : Type} [DecidableEq κ]

/-- The value of a key. -/
def find? (t : Table κ α) (k : κ) : Option α :=
  t.entries.lookup k

/-- Stores a value in a list of entries. -/
def insertEntry (k : κ) (a : α) : List (κ × α) → List (κ × α)
  | [] => [(k, a)]
  | (l, b) :: es => if l = k then (k, a) :: es else (l, b) :: insertEntry k a es

/-- Stores a value; one that the key had before is replaced. -/
def insert (t : Table κ α) (k : κ) (a : α) : Table κ α :=
  ⟨insertEntry k a t.entries⟩

/-- Forgets a key and its value. -/
def erase (t : Table κ α) (k : κ) : Table κ α :=
  ⟨t.entries.filter fun e => e.1 ≠ k⟩

/-- Applies a function to every value. -/
def map {β : Type} (f : α → β) (t : Table κ α) : Table κ β :=
  ⟨t.entries.map fun e => (e.1, f e.2)⟩

/-! ## What the operations do -/

theorem lookup_insertEntry_self (k : κ) (a : α) (es : List (κ × α)) : (insertEntry k a es).lookup k = some a := by
  induction es with
  | nil => simp [insertEntry]
  | cons e es ih =>
    obtain ⟨l, b⟩ := e
    by_cases h : l = k
    · simp [insertEntry, h]
    · simp [insertEntry, h, List.lookup_cons, beq_false_of_ne (Ne.symm h), ih]

theorem lookup_insertEntry_of_ne {k l : κ} (a : α) (h : l ≠ k) (es : List (κ × α)) :
    (insertEntry k a es).lookup l = es.lookup l := by
  induction es with
  | nil => simp [insertEntry, List.lookup_cons, beq_false_of_ne h]
  | cons e es ih =>
    obtain ⟨m, b⟩ := e
    by_cases hm : m = k
    · subst hm; simp [insertEntry, List.lookup_cons, beq_false_of_ne h]
    · simp only [insertEntry, hm, if_false, List.lookup_cons, ih]

@[simp] theorem find?_insert_self (t : Table κ α) (k : κ) (a : α) : (t.insert k a).find? k = some a :=
  lookup_insertEntry_self k a t.entries

@[simp] theorem find?_insert_of_ne (t : Table κ α) {k l : κ} (a : α) (h : l ≠ k) :
    (t.insert k a).find? l = t.find? l :=
  lookup_insertEntry_of_ne a h t.entries

theorem lookup_filter_self (k : κ) (es : List (κ × α)) : (es.filter fun e => e.1 ≠ k).lookup k = none := by
  induction es with
  | nil => rfl
  | cons e es ih =>
    obtain ⟨m, b⟩ := e
    by_cases h : m = k
    · simpa [h] using ih
    · simpa [h, List.lookup_cons, beq_false_of_ne (Ne.symm h)] using ih

@[simp] theorem find?_erase_self (t : Table κ α) (k : κ) : (t.erase k).find? k = none :=
  lookup_filter_self k t.entries

/-- Other keys are not forgotten. -/
@[simp] theorem find?_erase_of_ne (t : Table κ α) {k l : κ} (hl : l ≠ k) : (t.erase k).find? l = t.find? l := by
  obtain ⟨es⟩ := t
  simp only [erase, find?]
  induction es with
  | nil => rfl
  | cons e es ih =>
    obtain ⟨m, a⟩ := e
    by_cases hm : m = k
    · rw [List.lookup_cons, beq_false_of_ne (hm ▸ hl), ← ih]
      simp [hm]
    · simp only [ne_eq, hm, not_false_eq_true, decide_true, List.filter_cons_of_pos, List.lookup_cons] at ih ⊢
      rw [ih]

/-- What a key has after some key was forgotten it had before. -/
theorem find?_of_erase {t : Table κ α} {k l : κ} {v : α} (h : (t.erase k).find? l = some v) : t.find? l = some v := by
  by_cases hl : l = k
  · rw [hl, find?_erase_self] at h
    cases h
  · rwa [find?_erase_of_ne t hl] at h

@[simp] theorem find?_map {β : Type} (f : α → β) (t : Table κ α) (k : κ) : (t.map f).find? k = (t.find? k).map f := by
  obtain ⟨es⟩ := t
  simp only [map, find?]
  induction es with
  | nil => rfl
  | cons e es ih =>
    obtain ⟨l, a⟩ := e
    simp only [List.map_cons, List.lookup_cons]
    split
    · rfl
    · exact ih

section Rel

variable {β : Type} {R : α → β → Prop} {t : Table κ α} {u : Table κ β} {l : κ}

theorem rel_find?_insert (h : Option.Rel R (t.find? l) (u.find? l)) (k : κ) {a : α} {b : β} (hab : R a b) :
    Option.Rel R ((t.insert k a).find? l) ((u.insert k b).find? l) := by
  by_cases hl : l = k
  · rw [hl, find?_insert_self, find?_insert_self]
    exact .some hab
  · rwa [find?_insert_of_ne _ _ hl, find?_insert_of_ne _ _ hl]

theorem rel_find?_erase (h : Option.Rel R (t.find? l) (u.find? l)) (k : κ) :
    Option.Rel R ((t.erase k).find? l) ((u.erase k).find? l) := by
  by_cases hl : l = k
  · rw [hl, find?_erase_self, find?_erase_self]
    exact .none
  · rwa [find?_erase_of_ne _ hl, find?_erase_of_ne _ hl]

end Rel

end Table

end MediaRelay
