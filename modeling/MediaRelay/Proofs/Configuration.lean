import MediaRelay.Proofs.EncodingsJson
import MediaRelay.Proofs.SettingsJson

/-!
# What is read of a configuration

Settings and parameters are read off any text that holds them. Blanks, the order of members, strange members, escapes in
keys and whether records are objects or arrays make no difference; a field that is given twice does. Only in an interval
is a strange member refused.
-/

namespace MediaRelay

/-- What is read of settings and of parameters depends only on which field was given which value, with defaults for the
fields that are optional. A text that gives a field twice is refused, in whatever record that is and however the keys
are spelled, and so is one with a strange member in an interval. -/
theorem read_as_given :
    (∀ (ms : List (Option Settings.Member)) (text : String), Settings.format.Whole ms text.toList →
      (∀ g, Settings.Gives ms g → Settings.ofJson text = g.settings) ∧
        (¬ Settings.Proper ms → Settings.ofJson text = .error (.json .mismatched))) ∧
      ∀ (ms : List (Option Encoding.Parameters.Member)) (text : String),
        Encoding.Parameters.format.Whole ms text.toList →
          (∀ g, Encoding.Parameters.Gives ms g → Encoding.parametersOfJson text = g.parameters) ∧
            (¬ Encoding.Parameters.Proper ms → Encoding.parametersOfJson text = .error .mismatched) :=
  ⟨fun _ _ => Settings.ofJson_whole, fun _ _ => Encoding.Parameters.parametersOfJson_whole⟩

/-- A key is read with an escape in it, among blanks and behind a strange member; it is the same key a second time; and
parameters are read from an array. -/
theorem read_as_given_spelled :
    Settings.ofJson "\x7b\"x\":[[]], \"\\u0066eedback_enabled\":false\x7d" = .ok { feedback := false } ∧
      Settings.ofJson "\x7b\"feedback_enabled\":true,\"\\u0066eedback_enabled\":false\x7d" =
        .error (.json .mismatched) ∧
      Encoding.parametersOfJson "[[\x7b\"ssrc\":7\x7d]]" = .ok [⟨"", 7⟩] := by
  have unit (t : List Char) : Json.CodeUnit 'f'.toNat ('0' :: '0' :: '6' :: '6' :: t) t :=
    .digits (by decide : Json.hexDigit? '0' = some 0) (by decide : Json.hexDigit? '0' = some 0)
      (by decide : Json.hexDigit? '6' = some 6) (by decide : Json.hexDigit? '6' = some 6)
  have escaped (t : List Char) : Json.Spells "feedback_enabled".toList
      ('\\' :: 'u' :: '0' :: '0' :: '6' :: '6' :: ("eedback_enabled".toList.flatMap Json.encodeChar ++ '"' :: t)) t :=
    .unit (unit _) (by decide) (by decide) (Json.spells_encode "eedback_enabled".toList t)
  have strange (t : List Char) : Json.Wellformed .value ('[' :: '[' :: ']' :: ']' :: t) t :=
    .array (.lastElement .none (.emptyArray .none) .none)
  refine ⟨?_, ?_, ?_⟩
  · have hwhole : Settings.format.Whole [none, some (.feedback false)]
        "\x7b\"x\":[[]], \"\\u0066eedback_enabled\":false\x7d".toList :=
      ⟨_, [], .none, .object (.more (.first .none)
        (.strange (Json.spells_encode ['x'] _) (by decide) .none .none (strange _))
        (.more (.later .none (.more rfl .none)) (.field (escaped _) .none .none rfl) (.none .none))), .none⟩
    have hproper : Settings.Proper [none, some (.feedback false)] :=
      ⟨⟨(by decide : ["feedback_enabled"].Nodup), fun h => by cases h⟩, fun ps h => by simp at h⟩
    have hgiven : (Settings.given [.feedback false]).settings = .ok { feedback := false } := by decide +kernel
    exact ((read_as_given.1 _ _ hwhole).1 _ (Settings.gives_given hproper)).trans hgiven
  · have hwhole : Settings.format.Whole [some (.feedback true), some (.feedback false)]
        "\x7b\"feedback_enabled\":true,\"\\u0066eedback_enabled\":false\x7d".toList :=
      ⟨_, [], .none, .object (.more (.first .none) (.field (Json.spells_encode _ _) .none .none rfl)
        (.more (.later .none .none) (.field (escaped _) .none .none rfl) (.none .none))), .none⟩
    refine (read_as_given.1 _ _ hwhole).2 fun h => ?_
    exact absurd h.1.1 (by decide : ¬ ["feedback_enabled", "feedback_enabled"].Nodup)
  · have hrecord : Encoding.Parameters.format.Record ([.encodings [[some (.ssrc 7)]]].map some)
        "[[\x7b\"ssrc\":7\x7d]]".toList [] :=
      .array (by decide) (.more (.first .none) (Json.Array.bracket (.more (.first .none)
        (.object (.more (.first .none) (.field (Json.spells_encode _ _) .none .none rfl) (.none .none)))
        (.none .none))) (.none .none))
    have hproper : Encoding.Parameters.Proper [some (.encodings [[some (.ssrc 7)]])] := by
      refine ⟨(by decide : ["encodings"].Nodup), fun es hes e he => ?_⟩
      cases List.mem_singleton.mp hes
      cases List.mem_singleton.mp he
      exact (by decide : ["ssrc"].Nodup)
    exact (read_as_given.2 _ _ ⟨_, _, .none, hrecord, .none⟩).1 _ (Encoding.Parameters.gives_given hproper)

/-- In an interval a strange member is refused that would be passed over elsewhere, and so is a strange member whose key
is no text because a surrogate stands alone in it. -/
theorem strange_members_refused :
    Settings.ofJson "\x7b\"feedback_interval\":\x7b\"secs\":1,\"nanos\":0,\"x\":1\x7d\x7d" = .error (.json .mismatched) ∧
      Settings.ofJson "\x7b\"feedback_interval\":\x7b\"secs\":1,\"nanos\":0\x7d,\"x\":1\x7d" =
        .ok { interval := ⟨1, 0⟩ } ∧
      Settings.ofJson "\x7b\"\\ud800\":1\x7d" = .error (.json .malformed) ∧ Settings.ofJson "\x7b\x7d" = .ok {} := by
  decide +kernel

end MediaRelay
