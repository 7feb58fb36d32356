import MediaRelay.Settings
import MediaRelay.Proofs.Records

/-!
# Settings as JSON

How settings and their intervals are written. What is read of settings depends only on which field was given which value
(`Settings.given`): `Settings.ofJson_whole`. What was written of settings is read back, and that is so of all settings an
application can come to, since it keeps the interval greater than zero: `Settings.faithful_after`.
-/

namespace MediaRelay

open Json (Fault Format Schema Literal)

/-! ## Intervals -/

namespace Interval

/-- A field of an interval. -/
inductive Part where
  | seconds (n : UInt64)
  | nanoseconds (n : UInt32)

/-- How the fields of an interval are written. -/
def format : Format Part where
  keys := ["secs", "nanos"]
  key
    | .seconds _ => "secs"
    | .nanoseconds _ => "nanos"
  value
    | .seconds n => Literal (Json.ofNatural n.toNat)
    | .nanoseconds n => Literal (Json.ofNatural n.toNat)

/-- What a field changes. -/
def Part.change : Part → Except Fault (Option Nat × Option Nat → Option Nat × Option Nat)
  | .seconds n => .ok fun d => (some n.toNat, d.2)
  | .nanoseconds n => .ok fun d => (d.1, some n.toNat)

theorem values_format (p : Part) : Json.Values (format.value p) := by
  cases p <;> exact Json.values_natural _

theorem fits : format.Fits schema Part.change where
  keys := rfl
  distinct := by decide
  values := values_format
  field
    | .seconds n => ⟨_, .head _, rfl, (Json.reads_natural n.toNat_lt (by decide)).field rfl⟩
    | .nanoseconds n => ⟨_, .tail _ (.head _), rfl, (Json.reads_natural n.toNat_lt (by decide)).field rfl⟩

/-- The value of each field of an interval, as far as it was given. -/
@[ext]
structure Given where
  seconds : Option UInt64
  nanoseconds : Option UInt32

def Part.seconds? : Part → Option UInt64
  | .seconds n => some n
  | _ => none

def Part.nanoseconds? : Part → Option UInt32
  | .nanoseconds n => some n
  | _ => none

@[simp] theorem Part.seconds?_eq_some {p : Part} {n : UInt64} : p.seconds? = some n ↔ p = .seconds n := by
  cases p <;> simp [seconds?]

@[simp] theorem Part.nanoseconds?_eq_some {p : Part} {n : UInt32} : p.nanoseconds? = some n ↔ p = .nanoseconds n := by
  cases p <;> simp [nanoseconds?]

theorem Part.key_of_seconds? (p : Part) (n : UInt64) (h : p.seconds? = some n) : format.key p = "secs" := by
  rw [seconds?_eq_some.mp h]
  rfl

theorem Part.key_of_nanoseconds? (p : Part) (n : UInt32) (h : p.nanoseconds? = some n) : format.key p = "nanos" := by
  rw [nanoseconds?_eq_some.mp h]
  rfl

/-- What was given by some fields. -/
def given (ps : List Part) : Given where
  seconds := ps.findSome? Part.seconds?
  nanoseconds := ps.findSome? Part.nanoseconds?

/-- Which values the fields of an interval are given by its members: none is given twice, and no member is strange. -/
structure Gives (ps : List (Option Part)) (g : Given) : Prop where
  admits : schema.Admits format ps
  seconds : ∀ n, g.seconds = some n ↔ some (.seconds n) ∈ ps
  nanoseconds : ∀ n, g.nanoseconds = some n ↔ some (.nanoseconds n) ∈ ps

theorem gives_given {ps : List (Option Part)} (h : schema.Admits format ps) : Gives ps (given ps.reduceOption) where
  admits := h
  seconds n := (Json.findSome?_eq_some_iff h.1 Part.key_of_seconds? n).trans (by simp)
  nanoseconds n := (Json.findSome?_eq_some_iff h.1 Part.key_of_nanoseconds? n).trans (by simp)

theorem Gives.unique {ps : List (Option Part)} {g g' : Given} (h : Gives ps g) (h' : Gives ps g') : g = g' :=
  Given.ext (Option.ext fun n => (h.seconds n).trans (h'.seconds n).symm)
    (Option.ext fun n => (h.nanoseconds n).trans (h'.nanoseconds n).symm)

/-- The interval that was given. Both fields are required, and whole seconds carry over. -/
def Given.interval (g : Given) : Except Fault Interval :=
  match g with
  | ⟨some s, some n⟩ =>
    match carry? s.toNat n.toNat with
    | some i => .ok i
    | none => .error .mismatched
  | _ => .error .mismatched

/-- Fields that are all different change a draft to what was given by them. -/
theorem changed_parts {ps : List Part} (h : (ps.map format.key).Nodup) (d : Option Nat × Option Nat) :
    Schema.changed Part.change d ps =
      .ok (((given ps).seconds.map UInt64.toNat).or d.1, ((given ps).nanoseconds.map UInt32.toNat).or d.2) := by
  induction ps generalizing d with
  | nil => rfl
  | cons p ps ih =>
    obtain ⟨hp, hps⟩ := List.nodup_cons.mp h
    cases p with
    | seconds n =>
      have hnone : (given ps).seconds = none := Json.findSome?_eq_none hp Part.key_of_seconds?
      refine (ih hps (some n.toNat, d.2)).trans ?_
      rw [hnone]
      rfl
    | nanoseconds n =>
      have hnone : (given ps).nanoseconds = none := Json.findSome?_eq_none hp Part.key_of_nanoseconds?
      refine (ih hps (d.1, some n.toNat)).trans ?_
      rw [hnone]
      rfl

/-- What is read of an interval. -/
def outcome (ps : List (Option Part)) : Except Fault Interval :=
  schema.outcome format Part.change ps

theorem outcome_of_admits {ps : List (Option Part)} (h : schema.Admits format ps) :
    outcome ps = (given ps.reduceOption).interval := by
  rw [outcome, Json.outcome_of_admits h, changed_parts h.1]
  rcases given ps.reduceOption with ⟨_ | s, _ | n⟩ <;> rfl

/-- An interval is refused in which a field is given twice or a member is strange. -/
theorem outcome_of_not_admits {ps : List (Option Part)} (h : ¬ schema.Admits format ps) :
    outcome ps = .error .mismatched :=
  Json.outcome_of_not_admits (fun p f hf => by cases p <;> cases hf) h

/-- A given interval is refused as a value of another kind, if at all. -/
theorem Given.mismatched {g : Given} {f : Fault} (h : g.interval = .error f) : f = .mismatched := by
  unfold Given.interval at h
  split at h
  · split at h <;> cases h
    rfl
  · cases h
    rfl

theorem outcome_mismatched {ps : List (Option Part)} {f : Fault} (h : outcome ps = .error f) : f = .mismatched := by
  by_cases ha : schema.Admits format ps
  · exact Given.mismatched (outcome_of_admits ha ▸ h)
  · rw [outcome_of_not_admits ha] at h
    cases h
    rfl

/-- The fields of an interval as they are written. -/
def parts (i : Interval) : List Part :=
  [.seconds i.seconds, .nanoseconds (UInt32.ofNat i.nanoseconds)]

theorem toNat_ofNat_nanoseconds (i : Interval) : (UInt32.ofNat i.nanoseconds).toNat = i.nanoseconds := by
  have := i.nanoseconds.isLt
  exact UInt32.toNat_ofNat_of_lt' (Nat.lt_trans this (by decide))

/-- What is written of an interval is an interval. -/
theorem record_json (i : Interval) (t : List Char) : format.Record (i.parts.map some) (i.json ++ t) t := by
  refine Json.record_ofObject (F := format) [
    (.seconds i.seconds, Json.ofNatural i.seconds.toNat),
    (.nanoseconds (UInt32.ofNat i.nanoseconds), Json.ofNatural i.nanoseconds)] ?_ t
  simp only [List.forall_mem_cons, List.not_mem_nil, false_imp_iff, implies_true, and_true, format, Literal,
    toNat_ofNat_nanoseconds]

theorem admits_parts (i : Interval) : schema.Admits format (i.parts.map some) :=
  ⟨(by decide : format.keys.Nodup), fun _ h => by simp [parts] at h⟩

/-- An interval is what its fields come to. -/
theorem interval_parts (i : Interval) : (given i.parts).interval = .ok i := by
  have hn := i.nanoseconds.isLt
  have hcarry : carry? i.seconds.toNat i.nanoseconds = some i := by
    have hs : i.seconds.toNat < UInt64.size := i.seconds.toNat_lt
    simp only [carry?, Nat.div_eq_of_lt hn, Nat.add_zero, if_pos hs, UInt64.ofNat_toNat, Fin.ofNat_val_eq_self]
  have hgiven : given i.parts = ⟨some i.seconds, some (UInt32.ofNat i.nanoseconds)⟩ := rfl
  rw [hgiven, Given.interval]
  simp only [toNat_ofNat_nanoseconds, hcarry]

end Interval

/-! ## Settings -/

namespace Settings

/-- A field of settings; what is written of an interval has members of its own. -/
inductive Member where
  | mtu (n : UInt64)
  | interval (ps : List (Option Interval.Part))
  | bitrate (n : UInt64)
  | feedback (b : Bool)

/-- How the fields of settings are written. -/
def format : Format Member where
  keys := ["receive_mtu", "feedback_interval", "target_bitrate", "feedback_enabled"]
  key
    | .mtu _ => "receive_mtu"
    | .interval _ => "feedback_interval"
    | .bitrate _ => "target_bitrate"
    | .feedback _ => "feedback_enabled"
  value
    | .mtu n => Literal (Json.ofNatural n.toNat)
    | .interval ps => Interval.format.Record ps
    | .bitrate n => Literal (Json.ofNatural n.toNat)
    | .feedback b => Literal (Json.ofBoolean b)

/-- What a field changes. -/
def Member.change : Member → Except Fault (Settings → Settings)
  | .mtu n => .ok fun s => { s with mtu := n }
  | .interval ps => (Interval.outcome ps).map fun i s => { s with interval := i }
  | .bitrate n => .ok fun s => { s with bitrate := n }
  | .feedback b => .ok fun s => { s with feedback := b }

theorem values_format (m : Member) : Json.Values (format.value m) := by
  cases m with
  | mtu => exact Json.values_natural _
  | interval ps => exact Json.values_record Interval.values_format ps
  | bitrate => exact Json.values_natural _
  | feedback => exact Json.values_boolean _

theorem fits : format.Fits schema Member.change where
  keys := rfl
  distinct := by decide
  values := values_format
  field
    | .mtu n =>
      ⟨_, .head _, rfl, (Json.reads_natural n.toNat_lt (by decide)).field
        (by simp only [Except.map, UInt64.ofNat_toNat, Member.change])⟩
    | .interval ps => ⟨_, .tail _ (.head _), rfl, (Json.reads_record Interval.fits ps).field rfl⟩
    | .bitrate n =>
      ⟨_, .tail _ (.tail _ (.head _)), rfl, (Json.reads_natural n.toNat_lt (by decide)).field
        (by simp only [Except.map, UInt64.ofNat_toNat, Member.change])⟩
    | .feedback b => ⟨_, .tail _ (.tail _ (.tail _ (.head _))), rfl, (Json.reads_boolean b).field rfl⟩

/-- The value of each field of settings, as far as it was given. -/
@[ext]
structure Given where
  mtu : Option UInt64
  interval : Option Interval.Given
  bitrate : Option UInt64
  feedback : Option Bool

def Member.mtu? : Member → Option UInt64
  | .mtu n => some n
  | _ => none

def Member.interval? : Member → Option Interval.Given
  | .interval ps => some (Interval.given ps.reduceOption)
  | _ => none

def Member.bitrate? : Member → Option UInt64
  | .bitrate n => some n
  | _ => none

def Member.feedback? : Member → Option Bool
  | .feedback b => some b
  | _ => none

section Members

variable {m : Member} {n : UInt64} {i : Interval.Given} {b : Bool}

@[simp] theorem Member.mtu?_eq_some : m.mtu? = some n ↔ m = .mtu n := by
  cases m <;> simp [mtu?]

@[simp] theorem Member.interval?_eq_some :
    m.interval? = some i ↔ ∃ ps, m = .interval ps ∧ Interval.given ps.reduceOption = i := by
  cases m <;> simp [interval?]

@[simp] theorem Member.bitrate?_eq_some : m.bitrate? = some n ↔ m = .bitrate n := by
  cases m <;> simp [bitrate?]

@[simp] theorem Member.feedback?_eq_some : m.feedback? = some b ↔ m = .feedback b := by
  cases m <;> simp [feedback?]

end Members

theorem Member.key_of_mtu? (m : Member) (n : UInt64) (h : m.mtu? = some n) : format.key m = "receive_mtu" := by
  rw [mtu?_eq_some.mp h]
  rfl

theorem Member.key_of_interval? (m : Member) (i : Interval.Given) (h : m.interval? = some i) :
    format.key m = "feedback_interval" := by
  obtain ⟨ps, rfl, -⟩ := interval?_eq_some.mp h
  rfl

theorem Member.key_of_bitrate? (m : Member) (n : UInt64) (h : m.bitrate? = some n) :
    format.key m = "target_bitrate" := by
  rw [bitrate?_eq_some.mp h]
  rfl

theorem Member.key_of_feedback? (m : Member) (b : Bool) (h : m.feedback? = some b) :
    format.key m = "feedback_enabled" := by
  rw [feedback?_eq_some.mp h]
  rfl

/-- What was given by some fields. -/
def given (ms : List Member) : Given where
  mtu := ms.findSome? Member.mtu?
  interval := ms.findSome? Member.interval?
  bitrate := ms.findSome? Member.bitrate?
  feedback := ms.findSome? Member.feedback?

/-- No field is given twice in settings or their interval, and the interval has no strange member. -/
def Proper (ms : List (Option Member)) : Prop :=
  schema.Admits format ms ∧ ∀ ps, some (.interval ps) ∈ ms → Interval.schema.Admits Interval.format ps

/-- Which values the fields of settings are given by their members. -/
structure Gives (ms : List (Option Member)) (g : Given) : Prop where
  proper : Proper ms
  mtu : ∀ n, g.mtu = some n ↔ some (.mtu n) ∈ ms
  interval : ∀ i, g.interval = some i ↔ ∃ ps, some (.interval ps) ∈ ms ∧ Interval.Gives ps i
  bitrate : ∀ n, g.bitrate = some n ↔ some (.bitrate n) ∈ ms
  feedback : ∀ b, g.feedback = some b ↔ some (.feedback b) ∈ ms

theorem gives_given {ms : List (Option Member)} (h : Proper ms) : Gives ms (given ms.reduceOption) where
  proper := h
  mtu n := (Json.findSome?_eq_some_iff h.1.1 Member.key_of_mtu? n).trans (by simp)
  interval i := by
    refine (Json.findSome?_eq_some_iff h.1.1 Member.key_of_interval? i).trans ⟨?_, ?_⟩
    · rintro ⟨m, hm, hi⟩
      obtain ⟨ps, rfl, rfl⟩ := Member.interval?_eq_some.mp hi
      exact ⟨ps, hm, Interval.gives_given (h.2 ps hm)⟩
    · rintro ⟨ps, hps, hi⟩
      exact ⟨.interval ps, hps, congrArg some ((Interval.gives_given hi.admits).unique hi)⟩
  bitrate n := (Json.findSome?_eq_some_iff h.1.1 Member.key_of_bitrate? n).trans (by simp)
  feedback b := (Json.findSome?_eq_some_iff h.1.1 Member.key_of_feedback? b).trans (by simp)

theorem Gives.unique {ms : List (Option Member)} {g g' : Given} (h : Gives ms g) (h' : Gives ms g') : g = g' :=
  Given.ext (Option.ext fun n => (h.mtu n).trans (h'.mtu n).symm)
    (Option.ext fun i => (h.interval i).trans (h'.interval i).symm)
    (Option.ext fun n => (h.bitrate n).trans (h'.bitrate n).symm)
    (Option.ext fun b => (h.feedback b).trans (h'.feedback b).symm)

/-- The draft of settings with what was given in it. -/
def Given.draft (g : Given) (s : Settings) : Except Fault Settings := do
  let i ← g.interval.elim (.ok s.interval) Interval.Given.interval
  .ok ⟨g.mtu.getD s.mtu, i, g.bitrate.getD s.bitrate, g.feedback.getD s.feedback⟩

/-- The settings that were given, with defaults for what was not. -/
def Given.settings (g : Given) : Except Error Settings :=
  match g.draft schema.start with
  | .error f => .error (.json f)
  | .ok s => if s.interval.total = 0 then .error .zeroFeedbackInterval else .ok s

/-- Fields that are all different change a draft to what was given by them. -/
theorem changed_members {ms : List Member} (h : (ms.map format.key).Nodup)
    (hi : ∀ ps, .interval ps ∈ ms → Interval.schema.Admits Interval.format ps) (s : Settings) :
    Schema.changed Member.change s ms = (given ms).draft s := by
  induction ms generalizing s with
  | nil => rfl
  | cons m ms ih =>
    obtain ⟨hm, hms⟩ := List.nodup_cons.mp h
    have ih := ih hms fun ps hps => hi ps (List.mem_cons_of_mem _ hps)
    cases m with
    | mtu n =>
      have hnone : (given ms).mtu = none := Json.findSome?_eq_none hm Member.key_of_mtu?
      refine (ih { s with mtu := n }).trans ?_
      rw [Given.draft, hnone]
      rfl
    | interval ps =>
      have hnone : (given ms).interval = none := Json.findSome?_eq_none hm Member.key_of_interval?
      have hps := Interval.outcome_of_admits (hi ps List.mem_cons_self)
      rw [Schema.changed, List.foldlM_cons, Member.change, hps]
      show _ = (Interval.Given.interval _ >>= _)
      cases (Interval.given ps.reduceOption).interval with
      | error f => rfl
      | ok i =>
        refine (ih { s with interval := i }).trans ?_
        rw [Given.draft, hnone]
        rfl
    | bitrate n =>
      have hnone : (given ms).bitrate = none := Json.findSome?_eq_none hm Member.key_of_bitrate?
      refine (ih { s with bitrate := n }).trans ?_
      rw [Given.draft, hnone]
      rfl
    | feedback b =>
      have hnone : (given ms).feedback = none := Json.findSome?_eq_none hm Member.key_of_feedback?
      refine (ih { s with feedback := b }).trans ?_
      rw [Given.draft, hnone]
      rfl

/-- What is read of settings before their interval is judged. -/
def outcome (ms : List (Option Member)) : Except Fault Settings :=
  schema.outcome format Member.change ms

theorem Member.mismatched (m : Member) (f : Fault) (h : m.change = .error f) : f = .mismatched := by
  cases m with
  | interval ps =>
    cases hps : Interval.outcome ps with
    | error g =>
      rw [Member.change, hps] at h
      cases h
      exact Interval.outcome_mismatched hps
    | ok i =>
      rw [Member.change, hps] at h
      cases h
  | _ => cases h

theorem outcome_of_proper {ms : List (Option Member)} (h : Proper ms) :
    outcome ms = (given ms.reduceOption).draft schema.start := by
  have hi : ∀ ps, .interval ps ∈ ms.reduceOption → Interval.schema.Admits Interval.format ps :=
    fun ps hps => h.2 ps (List.reduceOption_mem_iff.mp hps)
  rw [outcome, Json.outcome_of_admits h.1, changed_members h.1.1 hi]
  show (given ms.reduceOption).draft schema.start >>= .ok = _
  cases (given ms.reduceOption).draft schema.start <;> rfl

theorem outcome_of_not_proper {ms : List (Option Member)} (h : ¬ Proper ms) : outcome ms = .error .mismatched := by
  by_cases ha : schema.Admits format ms
  · obtain ⟨ps, hps, hi⟩ : ∃ ps, some (.interval ps) ∈ ms ∧ ¬ Interval.schema.Admits Interval.format ps := by
      by_contra hno
      exact h ⟨ha, fun ps hps => by_contra fun hi => hno ⟨ps, hps, hi⟩⟩
    have hchange : (Member.interval ps).change = .error .mismatched := by
      rw [Member.change, Interval.outcome_of_not_admits hi]
      rfl
    rw [outcome, Json.outcome_of_admits ha,
      Json.changed_of_mismatched Member.mismatched (List.reduceOption_mem_iff.mpr hps) hchange]
    rfl
  · exact Json.outcome_of_not_admits Member.mismatched ha

/-- Settings are read off any text that holds them: what is read depends only on which field was given which value. -/
theorem ofJson_whole {ms : List (Option Member)} {text : String} (h : format.Whole ms text.toList) :
    (∀ g, Gives ms g → ofJson text = g.settings) ∧ (¬ Proper ms → ofJson text = .error (.json .mismatched)) := by
  have hread : Json.Reader.whole schema.read text.toList = outcome ms := Json.whole_record fits h
  constructor
  · intro g hg
    rw [hg.unique (gives_given hg.proper), ofJson, hread, outcome_of_proper hg.proper]
    rfl
  · intro hp
    rw [ofJson, hread, outcome_of_not_proper hp]

/-- The fields of settings as they are written. -/
def members (s : Settings) : List Member :=
  [.mtu s.mtu, .interval (s.interval.parts.map some), .bitrate s.bitrate, .feedback s.feedback]

/-- What is written of settings holds them. -/
theorem whole_json (s : Settings) : format.Whole (s.members.map some) s.json.toList := by
  have hrecord := Json.record_ofObject (F := format) [
    (.mtu s.mtu, Json.ofNatural s.mtu.toNat),
    (.interval (s.interval.parts.map some), s.interval.json),
    (.bitrate s.bitrate, Json.ofNatural s.bitrate.toNat),
    (.feedback s.feedback, Json.ofBoolean s.feedback)]
    (by simp only [List.forall_mem_cons, List.not_mem_nil, false_imp_iff, implies_true, and_true, format, Literal,
      Interval.record_json]) []
  rw [List.append_nil] at hrecord
  rw [json, String.toList_ofList]
  exact ⟨_, [], .none, hrecord, .none⟩

theorem proper_members (s : Settings) : Proper (s.members.map some) := by
  refine ⟨⟨?_, fun h => by cases h⟩, fun ps hps => ?_⟩
  · exact (by decide : format.keys.Nodup)
  · have : ps = s.interval.parts.map some := by simpa [members] using hps
    rw [this]
    exact s.interval.admits_parts

/-- Settings with an interval greater than zero are read back from what was written of them. -/
theorem ofJson_json {s : Settings} (h : 0 < s.interval.total) : ofJson s.json = .ok s := by
  have hgiven : (given s.members).draft schema.start = .ok s := by
    show (Interval.given s.interval.parts).interval >>= _ = _
    rw [Interval.interval_parts]
    rfl
  rw [(ofJson_whole (whole_json s)).1 _ (gives_given (proper_members s))]
  show Given.settings (given s.members) = _
  rw [Given.settings, hgiven]
  exact if_neg (Nat.ne_of_gt h)

/-! ### Choices -/

/-- The settings after some choices; the defaults come first. -/
def after (cs : List Choice) : Settings :=
  cs.foldl (fun s c => (s.perform c).1) schema.start

/-- Settings are read with an interval greater than zero, if at all. -/
theorem total_pos_of_ofJson {text : String} {s : Settings} (h : ofJson text = .ok s) : 0 < s.interval.total := by
  unfold ofJson at h
  split at h
  · cases h
  · split at h
    · cases h
    · next hne =>
      cases h
      exact Nat.pos_of_ne_zero hne

/-- A choice keeps the interval greater than zero. -/
theorem total_pos_choose {s s' : Settings} {c : Choice} (hs : 0 < s.interval.total) (h : s.choose c = .ok s') :
    0 < s'.interval.total := by
  cases c with
  | default =>
    cases h
    decide
  | json text => exact total_pos_of_ofJson h
  | interval span =>
    simp only [choose, setInterval] at h
    split at h
    · cases h
    · next hne =>
      cases h
      exact Nat.pos_of_ne_zero hne
  | mtu | bitrate | disableFeedback =>
    cases h
    exact hs

theorem total_pos_perform {s : Settings} (hs : 0 < s.interval.total) (c : Choice) :
    0 < (s.perform c).1.interval.total := by
  unfold perform
  split
  · next h => exact total_pos_choose hs h
  · exact hs

/-- A choice is carried out, or it is refused and changes nothing. -/
theorem perform_ok_or_same (s : Settings) (c : Choice) : (s.perform c).2 = .ok () ∨ (s.perform c).1 = s := by
  unfold perform
  split
  · exact .inl rfl
  · exact .inr rfl

theorem total_pos_after (cs : List Choice) : 0 < (after cs).interval.total := by
  have run : ∀ s : Settings, 0 < s.interval.total → 0 < (cs.foldl (fun s c => (s.perform c).1) s).interval.total := by
    induction cs with
    | nil => exact fun _ hs => hs
    | cons c cs ih => exact fun s hs => ih _ (total_pos_perform hs c)
  exact run schema.start (by decide)

/-- Whatever an application chooses, the interval is greater than zero and has less than a second of nanoseconds, a
choice that is refused changes nothing, and what is written of the settings is read back as the same settings. -/
theorem faithful_after (cs : List Choice) :
    0 < (after cs).interval.total ∧ ((after cs).interval.nanoseconds : Nat) < nanosecondsPerSecond ∧
      (∀ c, ((after cs).perform c).2 = .ok () ∨ ((after cs).perform c).1 = after cs) ∧
      ofJson (after cs).json = .ok (after cs) :=
  ⟨total_pos_after cs, (after cs).interval.nanoseconds.isLt, perform_ok_or_same _,
    ofJson_json (total_pos_after cs)⟩

end Settings

end MediaRelay
