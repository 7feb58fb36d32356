import MediaRelay.Error
import MediaRelay.Json.Compact
import MediaRelay.Json.Record

/-!
# Settings

`Settings` holds what an application chooses: the size of a receiver's buffers, and how often and with which bitrate
feedback is sent. `Settings.perform` carries out a choice; one that is refused changes nothing, and the interval
between two rounds of feedback always stays greater than zero. Settings can be written with `json` and read with
`ofJson`.
-/

namespace MediaRelay

/-! ## Intervals -/

/-- Nanoseconds in a second. -/
abbrev nanosecondsPerSecond : Nat := 1000000000

/-- Nanoseconds in a millisecond. -/
abbrev nanosecondsPerMillisecond : Nat := 1000000

/-- A span of time: whole seconds, and nanoseconds that make less than a second. -/
structure Interval where
  seconds : UInt64
  nanoseconds : Fin nanosecondsPerSecond
deriving DecidableEq, Repr

namespace Interval

/-- The span in nanoseconds. -/
def total (i : Interval) : Nat :=
  i.seconds.toNat * nanosecondsPerSecond + i.nanoseconds

/-- The interval of seconds and any number of nanoseconds, of which whole seconds carry over. There is none if the
seconds do not fit into 64 bits. -/
def carry? (seconds nanoseconds : Nat) : Option Interval :=
  let s := seconds + nanoseconds / nanosecondsPerSecond
  if s < UInt64.size then some ⟨UInt64.ofNat s, Fin.ofNat _ nanoseconds⟩ else none

/-- The interval of a number of milliseconds. -/
def ofMilliseconds? (n : Nat) : Option Interval :=
  carry? (n / 1000) (n % 1000 * nanosecondsPerMillisecond)

/-! ## JSON -/

/-- An interval as a record; both fields are required. -/
def schema : Json.Schema (Option Nat × Option Nat) Interval where
  start := (none, none)
  fields := [
    .of "secs" (Json.natural UInt64.size) fun n d => (some n, d.2),
    .of "nanos" (Json.natural UInt32.size) fun n d => (d.1, some n)]
  closed := true
  finish
    | (some s, some n) =>
      match carry? s n with
      | some i => .ok i
      | none => .error .mismatched
    | _ => .error .mismatched

/-- The interval written as JSON. -/
def json (i : Interval) : List Char :=
  Json.ofObject [("secs", Json.ofNatural i.seconds.toNat), ("nanos", Json.ofNatural i.nanoseconds)]

end Interval

/-! ## Settings -/

/-- The size of a receiver's buffers when none is chosen. -/
def defaultMtu : UInt64 := 1460

/-- What an application chooses. -/
structure Settings where
  mtu : UInt64 := defaultMtu
  interval : Interval := ⟨3, 0⟩
  bitrate : UInt64 := 10000000
  feedback : Bool := true
deriving DecidableEq, Repr

namespace Settings

/-- The size of a receiver's buffers; a chosen size of zero means the default. -/
def receiverMtu (s : Settings) : Nat :=
  (if s.mtu = 0 then defaultMtu else s.mtu).toNat

/-- Chooses the interval between two rounds of feedback. -/
def setInterval (s : Settings) (i : Interval) : Except Error Settings :=
  if i.total = 0 then .error .zeroFeedbackInterval else .ok { s with interval := i }

/-! ## JSON -/

/-- Settings as a record; every field is optional. -/
def schema : Json.Schema Settings Settings where
  start := {}
  fields := [
    .of "receive_mtu" (Json.natural UInt64.size) fun n s => { s with mtu := UInt64.ofNat n },
    .of "feedback_interval" Interval.schema.read fun i s => { s with interval := i },
    .of "target_bitrate" (Json.natural UInt64.size) fun n s => { s with bitrate := UInt64.ofNat n },
    .of "feedback_enabled" Json.boolean fun b s => { s with feedback := b }]
  finish := .ok

/-- The settings that a JSON text stands for. The interval is judged after the whole text has been read. -/
def ofJson (text : String) : Except Error Settings :=
  match Json.Reader.whole schema.read text.toList with
  | .error f => .error (.json f)
  | .ok s => if s.interval.total = 0 then .error .zeroFeedbackInterval else .ok s

/-- The settings written as JSON, with the fields in the order of their declaration. -/
def json (s : Settings) : String :=
  String.ofList (Json.ofObject [
    ("receive_mtu", Json.ofNatural s.mtu.toNat),
    ("feedback_interval", s.interval.json),
    ("target_bitrate", Json.ofNatural s.bitrate.toNat),
    ("feedback_enabled", Json.ofBoolean s.feedback)])

end Settings

/-! ## Choices -/

/-- A choice of an application. -/
inductive Choice where
  | default
  | json (text : String)
  | mtu (bytes : UInt64)
  | interval (span : Interval)
  | bitrate (bitsPerSecond : UInt64)
  | disableFeedback (disabled : Bool)
deriving DecidableEq, Repr

/-- The settings after a choice, unless it is refused. -/
def Settings.choose (s : Settings) : Choice → Except Error Settings
  | .default => .ok {}
  | .json text => ofJson text
  | .mtu bytes => .ok { s with mtu := bytes }
  | .interval span => s.setInterval span
  | .bitrate bitsPerSecond => .ok { s with bitrate := bitsPerSecond }
  | .disableFeedback disabled => .ok { s with feedback := !disabled }

/-- Carries out a choice. One that is refused changes nothing. -/
def Settings.perform (s : Settings) (c : Choice) : Settings × Except Error Unit :=
  match s.choose c with
  | .ok s => (s, .ok ())
  | .error e => (s, .error e)

end MediaRelay
