import MediaRelay.Proofs.Lasting

/-!
# The fate of packets

`Egress.fate` says what is to become of a packet that is forwarded to a track, as things stand outside, and `fate` of a
datagram that a pump takes; what forwarding leaves at the writers, and whether it succeeds, is what the fate says
(`Egress.forward_fate`).
-/

namespace MediaRelay

/-- What becomes of a packet that is forwarded to a track: the pump gives up, the packet is dropped, or it comes to
a writer under the SSRC, and perhaps the payload type, of the track. -/
def Egress.fate (e : Egress) (track : Nat) (p : Rtp.Packet) : Except Error (Option (String × Rtp.Packet)) :=
  match e.tracks[track]? with
  | none => .ok none
  | some (.refusing _ cause) => if cause.isClosedPipe then .ok none else .error cause
  | some (.static t) =>
    match t.writer with
    | none => .ok none
    | some name =>
      if (e.writer name).closed then .ok none
      else if (e.writer name).failing then .error (.other "mock writer: write failed")
      else .ok (some (name, t.stamp { p with ssrc := t.ssrc }))

/-- What becomes of a datagram that a pump takes while its packets go to a track as things stand outside. -/
def fate (mtu track : Nat) (x : Datagram × Egress) : Except Error (Option (String × Rtp.Packet)) :=
  if mtu < x.1.length then .error .shortBuffer
  else
    match decodeMedia x.1 with
    | .error cause => .error cause
    | .ok p => x.2.fate track p

/-- What a fate leaves at a writer. -/
def recordAt (name : String) : Except Error (Option (String × Rtp.Packet)) → List Rtp.Packet
  | .ok (some (writer, p)) => if writer = name then [p] else []
  | _ => []

namespace Egress

variable (e : Egress)

/-- What a write leaves at the writers, and whether it succeeds. -/
theorem write_fate (track : Nat) (p : Rtp.Packet) :
    (∀ name, ((e.write track (Forwarder.stamp e track p)).1.writer name).written
        = (e.writer name).written ++ recordAt name (e.fate track p))
      ∧ Forwarder.delivered (e.write track (Forwarder.stamp e track p)).2 = (e.fate track p).map fun _ => () := by
  unfold write fate Forwarder.stamp
  cases ht : e.tracks[track]? with
  | none => exact ⟨fun name => by simp [recordAt], rfl⟩
  | some o =>
    cases o with
    | refusing s cause =>
      dsimp only
      split
      · next hc => exact ⟨fun name => by simp [recordAt], by simp [Forwarder.delivered, hc, Except.map]⟩
      · next hc => exact ⟨fun name => by simp [recordAt], by simp [Forwarder.delivered, hc, Except.map]⟩
    | static t =>
      dsimp only [Outbound.ssrc]
      cases hw : t.writer with
      | none => exact ⟨fun name => by simp [recordAt], rfl⟩
      | some writer =>
        have same : ∀ name, ((e.setWriter writer (e.writer writer)).writer name).written = (e.writer name).written := by
          intro name
          by_cases hn : name = writer
          · rw [hn, writer_setWriter_self]
          · rw [writer_setWriter_of_ne _ _ hn]
        dsimp only
        by_cases hc : (e.writer writer).closed = true
        · simp only [Writer.write, if_pos hc]
          exact ⟨fun name => by simp [recordAt, same name], rfl⟩
        · by_cases hf : (e.writer writer).failing = true
          · simp only [Writer.write, if_neg hc, if_pos hf]
            exact ⟨fun name => by simp [recordAt, same name], rfl⟩
          · simp only [Writer.write, if_neg hc, if_neg hf]
            refine ⟨fun name => ?_, rfl⟩
            by_cases hn : name = writer
            · rw [hn, writer_setWriter_self]
              simp [recordAt]
            · rw [writer_setWriter_of_ne _ _ hn]
              simp [recordAt, Ne.symm hn]

/-- What forwarding leaves at the writers, and whether it succeeds. -/
theorem forward_fate {f : Forwarder} {rid : String} {track : Nat} (hf : f.routes.find? rid = some track)
    (p : Rtp.Packet) :
    (∀ name, ((f.forward e rid p).1.writer name).written = (e.writer name).written ++ recordAt name (e.fate track p))
      ∧ (f.forward e rid p).2 = (e.fate track p).map fun _ => () := by
  unfold Forwarder.forward
  rw [hf]
  exact e.write_fate track p

end Egress

end MediaRelay
