import MediaRelay.Json.Compact
import MediaRelay.Json.Record
import MediaRelay.Rtp.Packet

/-!
# Negotiated encodings

Negotiation tells a receiver which encodings of one source to expect: each has a RID (empty if there is only one)
and the SSRC of its packets, zero while that is unknown. `Encoding.parametersOfJson` and `Encoding.parametersJson`
read and write the list of them.
-/

namespace MediaRelay

/-- One encoding that the other side may send. -/
structure Encoding where
  rid : String := ""
  ssrc : Ssrc := 0
deriving DecidableEq, Repr

namespace Encoding

/-! ## JSON -/

/-- An encoding as a record; both fields are optional. -/
def schema : Json.Schema Encoding Encoding where
  start := {}
  fields := [
    .of "rid" Json.textValue fun r e => { e with rid := String.ofList r },
    .of "ssrc" (Json.natural UInt32.size) fun n e => { e with ssrc := UInt32.ofNat n }]
  finish := .ok

/-- The parameters of a receiver as a record: its encodings, which are required. -/
def parameters : Json.Schema (Option (List Encoding)) (List Encoding) where
  start := none
  fields := [.of "encodings" (Json.list schema.read) fun es _ => some es]
  finish
    | some es => .ok es
    | none => .error .mismatched

/-- The encodings of the parameters that a JSON text stands for. -/
def parametersOfJson (text : String) : Except Json.Fault (List Encoding) :=
  Json.Reader.whole parameters.read text.toList

/-- The encoding written as JSON. -/
def json (e : Encoding) : List Char :=
  Json.ofObject [("rid", Json.encode e.rid.toList), ("ssrc", Json.ofNatural e.ssrc.toNat)]

/-- The parameters written as JSON. -/
def parametersJson (es : List Encoding) : String :=
  String.ofList (Json.ofObject [("encodings", Json.ofArray (es.map json))])

end Encoding

end MediaRelay
