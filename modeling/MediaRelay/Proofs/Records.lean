import Mathlib.Data.List.Nodup
import Mathlib.Data.List.ReduceOption
import MediaRelay.Proofs.Values

/-!
# How records are written

A `Format` says how the fields of a record are written and what each changes in the draft of the record.
`Format.Record ms s t` says that a record with the members `ms` stands at the front of `s`, as an object or as an array,
and that `t` comes behind it; a member that is no field of the record is `none`.

* `reads_record`: what is read of a record is a function of its members (`Schema.outcome`), whatever its blanks, escapes
  and strange members are;
* `outcome_of_admits`, `outcome_of_not_admits`: a record is judged by its fields if each was given at most once, and
  refused otherwise;
* `record_ofObject`: what is written is a record.
-/

namespace MediaRelay.Json

/-! ## Records -/

/-- How a record is written: the keys of its fields in the order of their declaration, and for each member with which
key it is given and how its value is written. -/
structure Format (μ : Type) where
  keys : List String
  key : μ → String
  value : μ → List Char → List Char → Prop

/-- A member of an object: a field of the record, or a strange one, whose key is none of the record's. -/
inductive Format.Member {μ : Type} (F : Format μ) : Option μ → List Char → List Char → Prop
  | field {m : μ} {s t u v w : List Char} : Spells (F.key m).toList s u → Blanks u (':' :: v) → Blanks v w →
      F.value m w t → F.Member (some m) ('"' :: s) t
  | strange {key s t u v w : List Char} : Spells key s u → (∀ k ∈ F.keys, key ≠ k.toList) → Blanks u (':' :: v) →
      Blanks v w → Wellformed .value w t → F.Member none ('"' :: s) t

/-- A record is written as an object of members, or as an array of the values of its first fields. -/
inductive Format.Record {μ : Type} (F : Format μ) : List (Option μ) → List Char → List Char → Prop
  | object {ms : List (Option μ)} {s t : List Char} : Items '\x7d' F.Member true ms s t → F.Record ms ('\x7b' :: s) t
  | array {ms : List μ} {s t : List Char} : ms.map F.key <+: F.keys → Items ']' F.value true ms s t →
      F.Record (ms.map some) ('[' :: s) t

/-- A format fits the schema by which the record is read. -/
structure Format.Fits {μ δ α : Type} (F : Format μ) (c : Schema δ α) (change : μ → Except Fault (δ → δ)) : Prop where
  keys : c.fields.map Field.key = F.keys
  distinct : F.keys.Nodup
  values : ∀ m, Values (F.value m)
  field : ∀ m, ∃ f ∈ c.fields, f.key = F.key m ∧ Reads f.read (F.value m) (change m)

section Records

variable {μ δ α : Type} {F : Format μ} {c : Schema δ α} {change : μ → Except Fault (δ → δ)}

/-- What a member changes in a draft. -/
def Schema.take (c : Schema δ α) (F : Format μ) (change : μ → Except Fault (δ → δ)) (d : Draft δ) :
    Option μ → Except Fault (Draft δ)
  | none => if c.closed then .error .mismatched else .ok d
  | some m =>
    if F.key m ∈ d.given then .error .mismatched
    else (change m).map fun f => ⟨F.key m :: d.given, f d.value⟩

/-- What a record is read as that has some members in this order. -/
def Schema.outcome (c : Schema δ α) (F : Format μ) (change : μ → Except Fault (δ → δ)) (ms : List (Option μ)) :
    Except Fault α := do
  let d ← ms.foldlM (c.take F change) ⟨[], c.start⟩
  c.finish d.value

/-- The field of a member is the only one with its key. -/
theorem Format.Fits.reads (h : F.Fits c change) {f : Field δ} {m : μ} (hf : f ∈ c.fields) (hkey : f.key = F.key m) :
    Reads f.read (F.value m) (change m) := by
  obtain ⟨g, hg, hgkey, hr⟩ := h.field m
  have hnodup : (c.fields.map Field.key).Nodup := h.keys ▸ h.distinct
  obtain rfl : g = f := List.inj_on_of_nodup_map hnodup hg hf (hgkey.trans hkey.symm)
  exact hr

/-- The field of a member is found by its key. -/
theorem Format.Fits.field? (h : F.Fits c change) (m : μ) :
    ∃ f, c.field? (F.key m).toList = some f ∧ f.key = F.key m ∧ Reads f.read (F.value m) (change m) := by
  obtain ⟨g, hg, hgkey, -⟩ := h.field m
  have hpresent : (c.field? (F.key m).toList).isSome := by
    rw [Schema.field?, List.find?_isSome]
    exact ⟨g, hg, by rw [hgkey]; exact decide_eq_true rfl⟩
  obtain ⟨f, hf⟩ := Option.isSome_iff_exists.mp hpresent
  have hkey : f.key.toList = (F.key m).toList := by simpa using List.find?_some hf
  exact ⟨f, hf, String.toList_inj.mp hkey, h.reads (List.mem_of_find?_eq_some hf) (String.toList_inj.mp hkey)⟩

/-- A strange key belongs to no field. -/
theorem Format.Fits.field?_strange (h : F.Fits c change) {key : List Char} (hk : ∀ k ∈ F.keys, key ≠ k.toList) :
    c.field? key = none := by
  rw [Schema.field?, List.find?_eq_none]
  intro f hf he
  exact hk f.key (h.keys ▸ List.mem_map_of_mem hf) (of_decide_eq_true he).symm

theorem Format.Member.length (hv : ∀ m, Values (F.value m)) {m : Option μ} {s t : List Char} (h : F.Member m s t) :
    t.length < s.length := by
  cases h with
  | @field m _ _ _ _ _ hs hu hw hvalue =>
    have hvalue := (hv m).length hvalue
    have hs := hs.length
    have hu := hu.length
    have hw := hw.length
    simp only [List.length_cons] at hu hw ⊢
    omega
  | strange hs _ hu hw hvalue =>
    have hs := hs.length
    have hu := hu.length
    have hw := hw.length
    have hvalue := hvalue.length
    simp only [List.length_cons] at hu ⊢
    omega

/-- A member is read from behind the opening quote of its key. -/
theorem Format.Fits.member_eq (h : F.Fits c change) {m : Option μ} {d : Draft δ} {s t : List Char}
    (hm : F.Member m ('"' :: s) t) (ht : Ends t) :
    c.member d s = (c.take F change d m).map (·, t) := by
  cases hm with
  | @field m _ _ u v w hs hu hw hvalue =>
    obtain ⟨f, hf, hkey, hr⟩ := h.field? m
    have hcolon : colon u = .ok v := by simp only [colon, hu.skip_cons (by decide)]
    unfold Schema.member
    rw [text_of_spells hs]
    simp only [Schema.take, hf, hkey, hcolon, hr v w t hw hvalue ht, bind, Except.bind]
    split
    · rfl
    · cases change m <;> rfl
  | @strange key _ _ u v w hs hkey hu hw hvalue =>
    have hcolon : colon u = .ok v := by simp only [colon, hu.skip_cons (by decide)]
    unfold Schema.member
    rw [text_of_spells hs]
    simp only [Schema.take, h.field?_strange hkey, hcolon, skipValue_of_wellformed hw hvalue ht, bind, Except.bind]
    split <;> rfl

/-- Members are read one after the other. -/
theorem Format.Fits.members_eq (h : F.Fits c change) {first : Bool} {ms : List (Option μ)} {d : Draft δ}
    {s t : List Char} (hm : Items '\x7d' F.Member first ms s t) :
    c.members first d s = (ms.foldlM (c.take F change) d >>= fun d => c.finish d.value).map (·, t) := by
  generalize hclosing : '\x7d' = closing at hm
  induction hm generalizing d with
  | none hs =>
    subst hclosing
    rw [Schema.members, nextMember_closed hs]
    rfl
  | @more first m ms s t u v hs hu hrest ih =>
    subst hclosing
    have hlen := hu.length h.values
    obtain ⟨w, rfl⟩ : ∃ w, u = '"' :: w := by cases hu <;> exact ⟨_, rfl⟩
    have hshort : v.length < s.length := Nat.lt_of_lt_of_le hlen hs.length
    rw [Schema.members, nextMember_item hs]
    simp only [h.member_eq hu (hrest.ends (.inr rfl)), List.foldlM_cons]
    cases c.take F change d m with
    | error f => rfl
    | ok d =>
      show (if v.length < s.length then c.members false d v else _) = _
      rw [if_pos hshort, ih]
      rfl

/-- Values of an array are read one after the other. -/
theorem Format.Fits.positional_eq (h : F.Fits c change) {first : Bool} {ms : List μ} {d : Draft δ} {s t : List Char}
    {fs gs : List (Field δ)} (hfields : c.fields = gs ++ fs) (hgiven : ∀ k ∈ d.given, k ∈ gs.map Field.key)
    (hfront : ms.map F.key <+: fs.map Field.key) (hm : Items ']' F.value first ms s t) :
    c.positional fs first d.value s =
      ((ms.map some).foldlM (c.take F change) d >>= fun d => c.finish d.value).map (·, t) := by
  generalize hclosing : ']' = closing at hm
  induction hm generalizing d fs gs with
  | none hs =>
    subst hclosing
    cases fs with
    | nil =>
      simp only [Schema.positional, closeArray, hs.skip_cons (by decide), List.map_nil, List.foldlM_nil, pure_bind]
      cases c.finish d.value <;> rfl
    | cons f fs =>
      simp only [Schema.positional, nextElement_closed hs]
      rfl
  | @more first m ms s t u v hs hu hrest ih =>
    subst hclosing
    obtain ⟨x, w, rfl, hb, hc, -⟩ := h.values m _ _ hu
    cases fs with
    | nil => exact absurd (List.prefix_nil.mp hfront) (List.cons_ne_nil _ _)
    | cons f fs =>
      obtain ⟨hkey, hfront⟩ := List.cons_prefix_cons.mp hfront
      have hfresh : F.key m ∉ d.given := by
        intro hm
        have hnodup : ((gs ++ f :: fs).map Field.key).Nodup := hfields ▸ h.keys ▸ h.distinct
        rw [List.map_append, List.nodup_append] at hnodup
        exact hnodup.2.2 _ (hgiven _ hm) _ (List.mem_map_of_mem List.mem_cons_self) hkey
      have hr := h.reads (hfields ▸ List.mem_append_right gs List.mem_cons_self) hkey.symm
      simp only [Schema.positional, nextElement_item hs hb hc, List.map_cons, List.foldlM_cons, Schema.take,
        if_neg hfresh]
      show (f.read (x :: w) >>= _) = _
      rw [hr _ _ _ .none hu (hrest.ends (.inl rfl))]
      cases change m with
      | error e => rfl
      | ok g =>
        have hfields : c.fields = (gs ++ [f]) ++ fs := by rw [hfields, List.append_assoc]; rfl
        refine ih (d := ⟨F.key m :: d.given, g d.value⟩) hfields (fun k hk => ?_) hfront
        rw [List.map_append, List.mem_append]
        rcases List.mem_cons.mp hk with rfl | hk
        · exact .inr (List.mem_singleton.mpr hkey)
        · exact .inl (hgiven k hk)

/-- A record is read as what its members come to, in either form. -/
theorem reads_record (h : F.Fits c change) (ms : List (Option μ)) :
    Reads c.read (F.Record ms) (c.outcome F change ms) := by
  intro s u t hs hu _
  cases hu with
  | object hm =>
    simp only [Schema.read, hs.skip_cons (by decide : isBlank '\x7b' = false)]
    exact h.members_eq hm
  | array hfront hm =>
    simp only [Schema.read, hs.skip_cons (by decide : isBlank '[' = false)]
    have hfields : c.fields = [] ++ c.fields := rfl
    exact h.positional_eq (d := ⟨[], c.start⟩) hfields (fun _ hk => absurd hk List.not_mem_nil) (h.keys ▸ hfront) hm

theorem values_record (hv : ∀ m, Values (F.value m)) (ms : List (Option μ)) : Values (F.Record ms) := by
  intro s t h
  cases h with
  | object hm => exact ⟨'\x7b', _, rfl, by decide, by decide, hm.length fun m s t hm => Nat.le_of_lt (hm.length hv)⟩
  | array _ hm =>
    exact ⟨'[', _, rfl, by decide, by decide, hm.length fun m _ _ hm => (hv m).length hm⟩

/-! ## The members of a record -/

/-- No field of a record is given twice. -/
def Format.Distinct {μ : Type} (F : Format μ) (ms : List (Option μ)) : Prop :=
  (ms.reduceOption.map F.key).Nodup

/-- A record with these members is not refused for its keys: no field is given twice, and if the record is closed no
member is strange. -/
def Schema.Admits (c : Schema δ α) (F : Format μ) (ms : List (Option μ)) : Prop :=
  F.Distinct ms ∧ (c.closed = true → none ∉ ms)

/-- What the fields of a record change in its draft one after the other. -/
def Schema.changed (change : μ → Except Fault (δ → δ)) (d : δ) (ms : List μ) : Except Fault δ :=
  ms.foldlM (fun d m => (change m).map (· d)) d

theorem foldlM_take_of_admits {ms : List (Option μ)} {d : Draft δ} (hclosed : c.closed = true → none ∉ ms)
    (hkeys : (ms.reduceOption.map F.key ++ d.given).Nodup) :
    (ms.foldlM (c.take F change) d).map Draft.value = Schema.changed change d.value ms.reduceOption := by
  induction ms generalizing d with
  | nil => rfl
  | cons m ms ih =>
    have hclosed' : c.closed = true → none ∉ ms := fun h hm => hclosed h (List.mem_cons_of_mem _ hm)
    cases m with
    | none =>
      have hopen : ¬ c.closed = true := fun h => hclosed h List.mem_cons_self
      simp only [List.foldlM_cons, Schema.take, if_neg hopen]
      exact ih hclosed' hkeys
    | some m =>
      have hkeys' : (F.key m :: (ms.reduceOption.map F.key ++ d.given)).Nodup := hkeys
      have hfresh : F.key m ∉ d.given := fun h => (List.nodup_cons.mp hkeys').1 (List.mem_append_right _ h)
      have hrest := List.perm_middle.nodup_iff.mpr hkeys'
      simp only [List.foldlM_cons, Schema.take, if_neg hfresh, Schema.changed, List.reduceOption_cons_of_some]
      cases change m with
      | error f => rfl
      | ok f => exact ih (d := ⟨F.key m :: d.given, f d.value⟩) hclosed' hrest

/-- A record that is not refused for its keys is judged by what its fields change. -/
theorem outcome_of_admits {ms : List (Option μ)} (h : c.Admits F ms) :
    c.outcome F change ms = Schema.changed change c.start ms.reduceOption >>= c.finish := by
  have hkeys : (ms.reduceOption.map F.key ++ []).Nodup := by
    rw [List.append_nil]
    exact h.1
  rw [← foldlM_take_of_admits (d := ⟨[], c.start⟩) h.2 hkeys, Schema.outcome]
  cases ms.foldlM (c.take F change) ⟨[], c.start⟩ <;> rfl

theorem foldlM_take_of_not_admits (hchange : ∀ m f, change m = .error f → f = .mismatched) {ms : List (Option μ)}
    {d : Draft δ} (hgiven : d.given.Nodup)
    (h : ¬ ((c.closed = true → none ∉ ms) ∧ (ms.reduceOption.map F.key ++ d.given).Nodup)) :
    ms.foldlM (c.take F change) d = .error .mismatched := by
  induction ms generalizing d with
  | nil => exact absurd ⟨fun _ => List.not_mem_nil, hgiven⟩ h
  | cons m ms ih =>
    rw [List.foldlM_cons]
    cases m with
    | none =>
      by_cases hopen : c.closed = true
      · simp only [Schema.take, if_pos hopen]
        rfl
      · simp only [Schema.take, if_neg hopen]
        exact ih hgiven fun ⟨_, hkeys⟩ => h ⟨fun hc => absurd hc hopen, hkeys⟩
    | some m =>
      by_cases hfresh : F.key m ∈ d.given
      · simp only [Schema.take, if_pos hfresh]
        rfl
      · simp only [Schema.take, if_neg hfresh]
        cases hm : change m with
        | error f =>
          cases hchange m f hm
          rfl
        | ok f =>
          refine ih (d := ⟨F.key m :: d.given, f d.value⟩) (List.nodup_cons.mpr ⟨hfresh, hgiven⟩) ?_
          rintro ⟨hclosed, hkeys⟩
          refine h ⟨fun hc hm => hclosed hc ?_, List.perm_middle.nodup_iff.mp hkeys⟩
          rcases List.mem_cons.mp hm with he | hm
          · cases he
          · exact hm

/-- A record in which a field is given twice is refused, and so is a closed record with a strange member. -/
theorem outcome_of_not_admits (hchange : ∀ m f, change m = .error f → f = .mismatched) {ms : List (Option μ)}
    (h : ¬ c.Admits F ms) : c.outcome F change ms = .error .mismatched := by
  have hnot : ¬ ((c.closed = true → none ∉ ms) ∧ (ms.reduceOption.map F.key ++ []).Nodup) := by
    rw [List.append_nil]
    exact fun hboth => h hboth.symm
  rw [Schema.outcome, foldlM_take_of_not_admits (d := ⟨[], c.start⟩) hchange List.nodup_nil hnot]
  rfl

/-- Members of which one has a value that is refused are refused. -/
theorem changed_of_mismatched (hchange : ∀ m f, change m = .error f → f = .mismatched) {m : μ} {ms : List μ}
    (hm : m ∈ ms) (h : change m = .error .mismatched) (d : δ) : Schema.changed change d ms = .error .mismatched := by
  induction ms generalizing d with
  | nil => cases hm
  | cons n ms ih =>
    rw [Schema.changed, List.foldlM_cons]
    cases hn : change n with
    | error f =>
      cases hchange n f hn
      rfl
    | ok f =>
      rcases List.mem_cons.mp hm with rfl | hm
      · rw [h] at hn
        cases hn
      · exact ih hm (f d)

/-- Nothing was given for a field whose key is not there. -/
theorem findSome?_eq_none {γ : Type} {pick : μ → Option γ} {k : String} {ms : List μ} (h : k ∉ ms.map F.key)
    (hpick : ∀ m a, pick m = some a → F.key m = k) : ms.findSome? pick = none := by
  refine List.findSome?_eq_none_iff.mpr fun m hm => ?_
  cases hp : pick m with
  | none => rfl
  | some a => exact absurd (hpick m a hp ▸ List.mem_map_of_mem hm) h

/-- What was given for a field is the value of its member, wherever it stands. -/
theorem findSome?_eq_some_iff {γ : Type} {pick : μ → Option γ} {k : String} {ms : List (Option μ)} (h : F.Distinct ms)
    (hpick : ∀ m a, pick m = some a → F.key m = k) (a : γ) :
    ms.reduceOption.findSome? pick = some a ↔ ∃ m, some m ∈ ms ∧ pick m = some a := by
  constructor
  · intro ha
    obtain ⟨m, hm, hp⟩ := List.exists_of_findSome?_eq_some ha
    exact ⟨m, List.reduceOption_mem_iff.mp hm, hp⟩
  · rintro ⟨m, hm, hp⟩
    have hm := List.reduceOption_mem_iff.mpr hm
    obtain ⟨b, hb⟩ : ∃ b, ms.reduceOption.findSome? pick = some b := by
      refine Option.isSome_iff_exists.mp (List.findSome?_isSome_iff.mpr ⟨m, hm, ?_⟩)
      rw [hp]
      rfl
    obtain ⟨n, hn, hq⟩ := List.exists_of_findSome?_eq_some hb
    obtain rfl : m = n := List.inj_on_of_nodup_map h hm hn ((hpick m a hp).trans (hpick n b hq).symm)
    rw [hb, ← hq, hp]

/-! ## Whole texts -/

/-- A record is all that a text holds, but for blanks around it. -/
def Format.Whole {μ : Type} (F : Format μ) (ms : List (Option μ)) (text : List Char) : Prop :=
  ∃ s t, Blanks text s ∧ F.Record ms s t ∧ Blanks t []

/-- A text that holds a record is read as what the members of the record come to. -/
theorem whole_record (h : F.Fits c change) {ms : List (Option μ)} {text : List Char} (hw : F.Whole ms text) :
    Reader.whole c.read text = c.outcome F change ms := by
  obtain ⟨s, t, hs, hr, ht⟩ := hw
  have hempty : skipBlanks t = [] := ht.skip
  rw [Reader.whole, reads_record h ms text s t hs hr ht.ends_nil]
  cases c.outcome F change ms with
  | error f => rfl
  | ok a =>
    show (if (skipBlanks t).isEmpty = true then _ else _) = _
    rw [hempty]
    rfl

/-! ## Writing -/

/-- What is written of a member is a member. -/
theorem member_ofMember {m : μ} {w : List Char} (h : ∀ t, F.value m (w ++ t) t) (t : List Char) :
    F.Member (some m) (ofMember (F.key m) w ++ t) t := by
  have := Format.Member.field (F := F) (spells_encode (F.key m).toList (':' :: (w ++ t))) .none .none (h t)
  simpa only [ofMember, encode, List.cons_append, List.append_assoc, List.nil_append] using this

/-- What is written of members, each paired with how its value is written, is a record. -/
theorem record_ofObject (ws : List (μ × List Char)) (h : ∀ w ∈ ws, ∀ t, F.value w.1 (w.2 ++ t) t) (t : List Char) :
    F.Record (ws.map fun w => some w.1) (ofObject (ws.map fun w => (F.key w.1, w.2)) ++ t) t := by
  have hmembers : ∀ w ∈ ws.map fun w => (some w.1, ofMember (F.key w.1) w.2), ∀ t, F.Member w.1 (w.2 ++ t) t := by
    intro w hw
    obtain ⟨v, hv, rfl⟩ := List.mem_map.mp hw
    exact member_ofMember (h v hv)
  have hrecord := Format.Record.object (items_separated _ hmembers t)
  simpa only [ofObject, List.map_map, Function.comp_def, List.cons_append, List.append_assoc, List.nil_append] using
    hrecord

end Records

end MediaRelay.Json
