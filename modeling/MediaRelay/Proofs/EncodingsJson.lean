import MediaRelay.Encoding
import MediaRelay.Proofs.Records

/-!
# Parameters as JSON

How encodings and the parameters that list them are written. What is read of parameters depends only on which field was
given which value (`Parameters.given`): `Parameters.parametersOfJson_whole`. What was written of parameters is read
back: `Parameters.faithful_parametersJson`.
-/

namespace MediaRelay

open Json (Fault Format Schema Literal)

/-! ## Encodings -/

namespace Encoding

/-- A field of an encoding. -/
inductive Member where
  | rid (r : String)
  | ssrc (n : Ssrc)

/-- How the fields of an encoding are written. -/
def format : Format Member where
  keys := ["rid", "ssrc"]
  key
    | .rid _ => "rid"
    | .ssrc _ => "ssrc"
  value
    | .rid r => Json.Text r.toList
    | .ssrc n => Literal (Json.ofNatural n.toNat)

/-- What a field changes. -/
def Member.change : Member → Except Fault (Encoding → Encoding)
  | .rid r => .ok fun e => { e with rid := r }
  | .ssrc n => .ok fun e => { e with ssrc := n }

theorem values_format (m : Member) : Json.Values (format.value m) := by
  cases m with
  | rid => exact Json.values_text _
  | ssrc => exact Json.values_natural _

theorem fits : format.Fits schema Member.change where
  keys := rfl
  distinct := by decide
  values := values_format
  field
    | .rid r =>
      ⟨_, .head _, rfl, (Json.reads_text r.toList).field
        (by simp only [Except.map, String.ofList_toList, Member.change])⟩
    | .ssrc n =>
      ⟨_, .tail _ (.head _), rfl, (Json.reads_natural n.toNat_lt (by decide)).field
        (by simp only [Except.map, UInt32.ofNat_toNat, Member.change])⟩

/-- The value of each field of an encoding, as far as it was given. -/
@[ext]
structure Given where
  rid : Option String
  ssrc : Option Ssrc

def Member.rid? : Member → Option String
  | .rid r => some r
  | _ => none

def Member.ssrc? : Member → Option Ssrc
  | .ssrc n => some n
  | _ => none

@[simp] theorem Member.rid?_eq_some {m : Member} {r : String} : m.rid? = some r ↔ m = .rid r := by
  cases m <;> simp [rid?]

@[simp] theorem Member.ssrc?_eq_some {m : Member} {n : Ssrc} : m.ssrc? = some n ↔ m = .ssrc n := by
  cases m <;> simp [ssrc?]

theorem Member.key_of_rid? (m : Member) (r : String) (h : m.rid? = some r) : format.key m = "rid" := by
  rw [rid?_eq_some.mp h]
  rfl

theorem Member.key_of_ssrc? (m : Member) (n : Ssrc) (h : m.ssrc? = some n) : format.key m = "ssrc" := by
  rw [ssrc?_eq_some.mp h]
  rfl

/-- What was given by some fields. -/
def given (ms : List Member) : Given where
  rid := ms.findSome? Member.rid?
  ssrc := ms.findSome? Member.ssrc?

/-- Which values the fields of an encoding are given by its members, none of them twice. -/
structure Gives (ms : List (Option Member)) (g : Given) : Prop where
  distinct : format.Distinct ms
  rid : ∀ r, g.rid = some r ↔ some (.rid r) ∈ ms
  ssrc : ∀ n, g.ssrc = some n ↔ some (.ssrc n) ∈ ms

theorem gives_given {ms : List (Option Member)} (h : format.Distinct ms) : Gives ms (given ms.reduceOption) where
  distinct := h
  rid r := (Json.findSome?_eq_some_iff h Member.key_of_rid? r).trans (by simp)
  ssrc n := (Json.findSome?_eq_some_iff h Member.key_of_ssrc? n).trans (by simp)

theorem Gives.unique {ms : List (Option Member)} {g g' : Given} (h : Gives ms g) (h' : Gives ms g') : g = g' :=
  Given.ext (Option.ext fun r => (h.rid r).trans (h'.rid r).symm)
    (Option.ext fun n => (h.ssrc n).trans (h'.ssrc n).symm)

/-- The encoding that was given, with defaults for what was not. -/
def Given.encoding (g : Given) (e : Encoding) : Encoding :=
  ⟨g.rid.getD e.rid, g.ssrc.getD e.ssrc⟩

/-- Fields that are all different change an encoding to what was given by them. -/
theorem changed_members {ms : List Member} (h : (ms.map format.key).Nodup) (e : Encoding) :
    Schema.changed Member.change e ms = .ok ((given ms).encoding e) := by
  induction ms generalizing e with
  | nil => rfl
  | cons m ms ih =>
    obtain ⟨hm, hms⟩ := List.nodup_cons.mp h
    cases m with
    | rid r =>
      have hnone : (given ms).rid = none := Json.findSome?_eq_none hm Member.key_of_rid?
      refine (ih hms { e with rid := r }).trans ?_
      rw [Given.encoding, hnone]
      rfl
    | ssrc n =>
      have hnone : (given ms).ssrc = none := Json.findSome?_eq_none hm Member.key_of_ssrc?
      refine (ih hms { e with ssrc := n }).trans ?_
      rw [Given.encoding, hnone]
      rfl

/-- What is read of an encoding. -/
def outcome (ms : List (Option Member)) : Except Fault Encoding :=
  schema.outcome format Member.change ms

theorem outcome_of_distinct {ms : List (Option Member)} (h : format.Distinct ms) :
    outcome ms = .ok ((given ms.reduceOption).encoding {}) := by
  rw [outcome, Json.outcome_of_admits ⟨h, fun hc => by cases hc⟩, changed_members h]
  rfl

theorem outcome_of_not_distinct {ms : List (Option Member)} (h : ¬ format.Distinct ms) :
    outcome ms = .error .mismatched :=
  Json.outcome_of_not_admits (fun m f hf => by cases m <;> cases hf) fun ha => h ha.1

/-- The fields of an encoding as they are written. -/
def members (e : Encoding) : List Member :=
  [.rid e.rid, .ssrc e.ssrc]

/-- What is written of an encoding is an encoding. -/
theorem record_json (e : Encoding) (t : List Char) : format.Record (e.members.map some) (e.json ++ t) t := by
  refine Json.record_ofObject (F := format) [
    (.rid e.rid, Json.encode e.rid.toList),
    (.ssrc e.ssrc, Json.ofNatural e.ssrc.toNat)] ?_ t
  simp only [List.forall_mem_cons, List.not_mem_nil, false_imp_iff, implies_true, and_true, format, Literal,
    Json.text_encode]

theorem distinct_members (e : Encoding) : format.Distinct (e.members.map some) :=
  (by decide : format.keys.Nodup)

end Encoding

/-! ## Parameters -/

namespace Encoding.Parameters

/-- The field of parameters; what is written of an encoding has members of its own. -/
inductive Member where
  | encodings (es : List (List (Option Encoding.Member)))

/-- How the field of parameters is written. -/
def format : Format Member where
  keys := ["encodings"]
  key _ := "encodings"
  value
    | .encodings es => Json.Array Encoding.format.Record es

/-- What the field changes. -/
def Member.change : Member → Except Fault (Option (List Encoding) → Option (List Encoding))
  | .encodings es => (es.mapM Encoding.outcome).map fun es _ => some es

theorem fits : format.Fits parameters Member.change where
  keys := rfl
  distinct := by decide
  values
    | .encodings es => Json.values_array (Json.values_record Encoding.values_format) es
  field
    | .encodings es =>
      ⟨_, .head _, rfl,
        (Json.reads_list (Json.values_record Encoding.values_format) (Json.reads_record Encoding.fits) es).field rfl⟩

/-- The encodings that were given, if they were. -/
abbrev Given := Option (List Encoding.Given)

def Member.encodings? : Member → Given
  | .encodings es => some (es.map fun ms => Encoding.given ms.reduceOption)

/-- What was given by some fields. -/
def given (ms : List Member) : Given :=
  ms.findSome? Member.encodings?

/-- The parameters that were given. The encodings are required. -/
def Given.parameters : Given → Except Fault (List Encoding)
  | some gs => .ok (gs.map fun g => g.encoding {})
  | none => .error .mismatched

/-- No field is given twice in parameters or an encoding of theirs. -/
def Proper (ms : List (Option Member)) : Prop :=
  format.Distinct ms ∧ ∀ es, some (.encodings es) ∈ ms → ∀ e ∈ es, Encoding.format.Distinct e

/-- Which encodings are given by the members of parameters. -/
structure Gives (ms : List (Option Member)) (g : Given) : Prop where
  proper : Proper ms
  encodings : ∀ gs, g = some gs ↔ ∃ es, some (.encodings es) ∈ ms ∧ List.Forall₂ Encoding.Gives es gs

theorem forall₂_gives_given {es : List (List (Option Encoding.Member))} (h : ∀ e ∈ es, Encoding.format.Distinct e) :
    List.Forall₂ Encoding.Gives es (es.map fun e => Encoding.given e.reduceOption) := by
  rw [List.forall₂_map_right_iff, List.forall₂_same]
  exact fun e he => Encoding.gives_given (h e he)

theorem gives_given {ms : List (Option Member)} (h : Proper ms) : Gives ms (given ms.reduceOption) where
  proper := h
  encodings gs := by
    refine (Json.findSome?_eq_some_iff h.1 (fun _ _ _ => rfl) gs).trans ⟨?_, ?_⟩
    · rintro ⟨⟨es⟩, hes, hgs⟩
      cases hgs
      exact ⟨es, hes, forall₂_gives_given (h.2 es hes)⟩
    · rintro ⟨es, hes, hgs⟩
      refine ⟨.encodings es, hes, congrArg some ?_⟩
      have hunique : Relator.RightUnique Encoding.Gives := fun _ _ _ => Encoding.Gives.unique
      exact List.right_unique_forall₂' hunique (forall₂_gives_given (h.2 es hes)) hgs

theorem Gives.unique {ms : List (Option Member)} {g g' : Given} (h : Gives ms g) (h' : Gives ms g') : g = g' :=
  Option.ext fun gs => (h.encodings gs).trans (h'.encodings gs).symm

theorem mapM_outcome_of_distinct {es : List (List (Option Encoding.Member))}
    (h : ∀ e ∈ es, Encoding.format.Distinct e) :
    es.mapM Encoding.outcome = .ok (es.map fun e => (Encoding.given e.reduceOption).encoding {}) := by
  induction es with
  | nil => rfl
  | cons e es ih =>
    obtain ⟨he, hes⟩ := List.forall_mem_cons.mp h
    rw [List.mapM_cons, outcome_of_distinct he, ih hes]
    rfl

theorem mapM_outcome_of_not_distinct {es : List (List (Option Encoding.Member))} {e : List (Option Encoding.Member)}
    (he : e ∈ es) (h : ¬ Encoding.format.Distinct e) : es.mapM Encoding.outcome = .error .mismatched := by
  induction es with
  | nil => cases he
  | cons d es ih =>
    rw [List.mapM_cons]
    by_cases hd : Encoding.format.Distinct d
    · rcases List.mem_cons.mp he with rfl | he
      · exact absurd hd h
      · rw [outcome_of_distinct hd, ih he]
        rfl
    · rw [outcome_of_not_distinct hd]
      rfl

theorem Member.mismatched (m : Member) (f : Fault) (h : m.change = .error f) : f = .mismatched := by
  obtain ⟨es⟩ := m
  by_cases hes : ∀ e ∈ es, Encoding.format.Distinct e
  · rw [Member.change, mapM_outcome_of_distinct hes] at h
    cases h
  · obtain ⟨e, he, hd⟩ : ∃ e ∈ es, ¬ Encoding.format.Distinct e := by simpa using hes
    rw [Member.change, mapM_outcome_of_not_distinct he hd] at h
    cases h
    rfl

/-- Fields that are all different change a draft to what was given by them. -/
theorem changed_members {ms : List Member} (h : (ms.map format.key).Nodup)
    (hd : ∀ es, .encodings es ∈ ms → ∀ e ∈ es, Encoding.format.Distinct e) (d : Option (List Encoding)) :
    Schema.changed Member.change d ms = .ok (((given ms).map fun gs => gs.map fun g => g.encoding {}).or d) := by
  induction ms generalizing d with
  | nil => rfl
  | cons m ms ih =>
    obtain ⟨hm, hms⟩ := List.nodup_cons.mp h
    obtain ⟨es⟩ := m
    have hnone : given ms = none := Json.findSome?_eq_none hm fun _ _ _ => rfl
    have hes := mapM_outcome_of_distinct (hd es List.mem_cons_self)
    rw [Schema.changed, List.foldlM_cons, Member.change, hes]
    refine (ih hms (fun es hes => hd es (List.mem_cons_of_mem _ hes)) (some _)).trans ?_
    rw [hnone]
    show Except.ok (some _) = Except.ok (some (List.map _ (List.map _ es)))
    rw [List.map_map]
    rfl

/-- What is read of parameters. -/
def outcome (ms : List (Option Member)) : Except Fault (List Encoding) :=
  parameters.outcome format Member.change ms

theorem outcome_of_proper {ms : List (Option Member)} (h : Proper ms) :
    outcome ms = (given ms.reduceOption).parameters := by
  have hd : ∀ es, .encodings es ∈ ms.reduceOption → ∀ e ∈ es, Encoding.format.Distinct e :=
    fun es hes => h.2 es (List.reduceOption_mem_iff.mp hes)
  rw [outcome, Json.outcome_of_admits ⟨h.1, fun hc => by cases hc⟩, changed_members h.1 hd]
  cases given ms.reduceOption <;> rfl

theorem outcome_of_not_proper {ms : List (Option Member)} (h : ¬ Proper ms) : outcome ms = .error .mismatched := by
  by_cases ha : parameters.Admits format ms
  · obtain ⟨es, hes, e, he, hd⟩ :
        ∃ es, some (.encodings es) ∈ ms ∧ ∃ e ∈ es, ¬ Encoding.format.Distinct e := by
      by_contra hno
      exact h ⟨ha.1, fun es hes e he => by_contra fun hd => hno ⟨es, hes, e, he, hd⟩⟩
    have hchange : (Member.encodings es).change = .error .mismatched := by
      rw [Member.change, mapM_outcome_of_not_distinct he hd]
      rfl
    rw [outcome, Json.outcome_of_admits ha,
      Json.changed_of_mismatched Member.mismatched (List.reduceOption_mem_iff.mpr hes) hchange]
    rfl
  · exact Json.outcome_of_not_admits Member.mismatched ha

/-- Parameters are read off any text that holds them: what is read depends only on which field was given which value. -/
theorem parametersOfJson_whole {ms : List (Option Member)} {text : String} (h : format.Whole ms text.toList) :
    (∀ g, Gives ms g → parametersOfJson text = g.parameters) ∧
      (¬ Proper ms → parametersOfJson text = .error .mismatched) := by
  have hread : parametersOfJson text = outcome ms := Json.whole_record fits h
  rw [hread]
  refine ⟨fun g hg => ?_, outcome_of_not_proper⟩
  rw [hg.unique (gives_given hg.proper), outcome_of_proper hg.proper]

/-- The field of parameters as it is written. -/
def members (es : List Encoding) : List Member :=
  [.encodings (es.map fun e => e.members.map some)]

/-- What is written of parameters holds them. -/
theorem whole_json (es : List Encoding) : format.Whole ((members es).map some) (parametersJson es).toList := by
  have harray (t : List Char) :
      Json.Array Encoding.format.Record (es.map fun e => e.members.map some) (Json.ofArray (es.map json) ++ t) t := by
    have := Json.array_ofArray (es.map fun e => (e.members.map some, e.json)) (fun w hw => by
      obtain ⟨e, -, rfl⟩ := List.mem_map.mp hw
      exact e.record_json) t
    rwa [List.map_map, List.map_map] at this
  have hrecord := Json.record_ofObject (F := format)
    [(.encodings (es.map fun e => e.members.map some), Json.ofArray (es.map json))]
    (fun w hw t => by
      cases List.mem_singleton.mp hw
      exact harray t) []
  rw [List.append_nil] at hrecord
  rw [parametersJson, String.toList_ofList]
  exact ⟨_, [], .none, hrecord, .none⟩

theorem proper_members (es : List Encoding) : Proper ((members es).map some) := by
  refine ⟨(by decide : format.keys.Nodup), fun ds hds d hd => ?_⟩
  have : ds = es.map fun e => e.members.map some := by simpa [members] using hds
  rw [this] at hd
  obtain ⟨e, -, rfl⟩ := List.mem_map.mp hd
  exact e.distinct_members

/-- Parameters are read back from what was written of them. -/
theorem parametersOfJson_json (es : List Encoding) : parametersOfJson (parametersJson es) = .ok es := by
  have hgiven : given (members es) = some (es.map fun e => Encoding.given e.members) := by
    show some (List.map _ (List.map _ es)) = _
    rw [List.map_map]
    rfl
  rw [(parametersOfJson_whole (whole_json es)).1 _ (gives_given (proper_members es))]
  show Given.parameters (given (members es)) = _
  rw [hgiven, Given.parameters, List.map_map]
  exact congrArg _ (List.map_id es)

/-- Parameters are read back from what was written of them, so different parameters are written differently. -/
theorem faithful_parametersJson :
    (∀ es, parametersOfJson (parametersJson es) = .ok es) ∧ Function.Injective parametersJson := by
  refine ⟨parametersOfJson_json, fun es ds h => ?_⟩
  have hread := parametersOfJson_json es
  rw [h, parametersOfJson_json ds] at hread
  exact (Except.ok.inj hread).symm

end Encoding.Parameters

end MediaRelay
