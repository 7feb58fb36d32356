import MediaRelay.Bytes
import MediaRelay.Secure.Index
import MediaRelay.Secure.Window
import Mathlib.Data.List.Chain

/-!
# What replay protection lets pass

Everything that is protected for one SSRC is a list of postings. Both ends work out indices, and the reader keeps a
window of the sequence numbers that it let pass (`Guard`). `passed` is what the reader lets pass of what arrives.

- `passed_eq_written`: if everything arrives and the numbers are fresh, the reader lets everything pass;
- `fresh_of_ahead`: numbers of which each is ahead of the one before are fresh, however often they wrap around.
-/

namespace MediaRelay

namespace ReplayWindow

variable {w : ReplayWindow} {n : UInt16}

theorem behind_self (n : UInt16) : behind n n = 0 := by
  simp only [behind]
  omega

/-- The number after another is one ahead of it. -/
theorem behind_pred (n : UInt16) : behind (n - 1) n = -1 := by
  have hn := n.toNat_lt
  have h : (n - 1).toNat = if n.toNat = 0 then 65535 else n.toNat - 1 := by
    rw [UInt16.toNat_sub]
    show (65536 - 1 + n.toNat) % 65536 = _
    split <;> omega
  simp only [behind, h]
  split <;> split <;> omega

/-- A number that comes first is admitted. -/
theorem admits_before (n : UInt16) : (before n).admits n := by
  have h : behind (n - 1) n < width := by
    rw [behind_pred]
    decide
  simp [admits, before, h]

/-- No number that is remembered is ahead of the latest. -/
def Sound (w : ReplayWindow) : Prop :=
  ∀ n ∈ w.accepted, 0 ≤ behind w.latest n

theorem sound_before (n : UInt16) : (before n).Sound :=
  fun _ h => by cases h

theorem Sound.accept (hw : w.Sound) (n : UInt16) : (w.accept n).Sound := by
  unfold ReplayWindow.accept
  split
  · intro m hm
    rcases List.mem_cons.mp hm with rfl | hm
    · exact Int.le_of_eq (behind_self _).symm
    · have := (List.mem_filter.mp hm).2
      simp only [decide_eq_true_eq] at this
      exact this.1
  · next hn =>
    split
    · intro m hm
      rcases List.mem_cons.mp hm with rfl | hm
      · exact Int.not_lt.mp hn
      · exact hw m hm
    · exact hw

/-- A number that is ahead of the latest is admitted. -/
theorem Sound.admits_ahead (hw : w.Sound) (hn : behind w.latest n < 0) : w.admits n := by
  have hwidth : behind w.latest n < width := Int.lt_trans hn (by decide)
  have hnew : n ∉ w.accepted := fun h => absurd (hw n h) (Int.not_le.mpr hn)
  simp [admits, hwidth, hnew]

theorem latest_accept (hn : behind w.latest n < 0) : (w.accept n).latest = n := by
  rw [accept, if_pos hn]

/-- Numbers that a window admits one after the other. -/
def AdmitsAll : ReplayWindow → List UInt16 → Prop
  | _, [] => True
  | w, n :: ns => w.admits n ∧ (w.accept n).AdmitsAll ns

theorem Sound.admitsAll_ahead {ns : List UInt16} (hw : w.Sound)
    (h : (w.latest :: ns).IsChain fun m n => behind m n < 0) : w.AdmitsAll ns := by
  induction ns generalizing w with
  | nil => trivial
  | cons n ns ih =>
    obtain ⟨hn, hns⟩ := List.isChain_cons_cons.mp h
    exact ⟨hw.admits_ahead hn, ih (hw.accept n) (by rwa [latest_accept hn])⟩

/-- Numbers that are admitted one after the other, beginning without a window. -/
def Fresh : List UInt16 → Prop
  | [] => True
  | n :: ns => ((before n).accept n).AdmitsAll ns

/-- Numbers of which each is ahead of the one before are fresh. -/
theorem fresh_of_ahead {ns : List UInt16} (h : ns.IsChain fun m n => behind m n < 0) : Fresh ns := by
  cases ns with
  | nil => trivial
  | cons n ns =>
    refine ((sound_before n).accept n).admitsAll_ahead ?_
    rwa [latest_accept]
    show behind (n - 1) n < 0
    rw [behind_pred]
    decide

end ReplayWindow

/-! ## Postings -/

/-- A datagram that was protected for an SSRC, with its sequence number if it is a media packet. -/
structure Posting where
  sequence : UInt16 := 0
  datagram : Datagram
  arrives : Bool
deriving DecidableEq

/-- The datagrams that arrive. -/
def written (ms : List Posting) : List Datagram :=
  (ms.filter (·.arrives)).map (·.datagram)

theorem written_cons (m : Posting) (ms : List Posting) :
    written (m :: ms) = (if m.arrives then [m.datagram] else []) ++ written ms := by
  unfold written
  cases hm : m.arrives <;> simp [hm]

theorem written_concat (ms : List Posting) (m : Posting) :
    written (ms ++ [m]) = written ms ++ if m.arrives then [m.datagram] else [] := by
  unfold written
  cases hm : m.arrives <;> simp [hm]

/-- What the two ends know about an SSRC: the last index that the writer worked out, the last index that the reader
accepted, and the reader's window. -/
structure Guard where
  writer : Option PacketIndex := none
  reader : Option PacketIndex := none
  window : Option ReplayWindow := none

namespace Guard

variable {g : Guard} {m : Posting} {ms : List Posting}

/-- The window that a sequence number is looked up in. -/
def windowFor (g : Guard) (seq : UInt16) : ReplayWindow :=
  g.window.getD (.before seq)

/-- Whether the reader lets the next packet pass if it arrives: its number is fresh, and both ends count the same
wraps. -/
def lets (g : Guard) (seq : UInt16) : Bool :=
  (g.windowFor seq).admits seq && (PacketIndex.next g.reader seq).wraps == (PacketIndex.next g.writer seq).wraps

/-- What the ends know after a posting. -/
def after (g : Guard) (m : Posting) : Guard where
  writer := some (.next g.writer m.sequence)
  reader := if m.arrives && g.lets m.sequence then some (.next g.reader m.sequence) else g.reader
  window :=
    if m.arrives then
      let w := g.windowFor m.sequence
      some (if g.lets m.sequence then w.accept m.sequence else w)
    else g.window

/-- The datagrams that the reader lets pass. -/
def passed (g : Guard) : List Posting → List Datagram
  | [] => []
  | m :: ms => (if m.arrives && g.lets m.sequence then [m.datagram] else []) ++ (g.after m).passed ms

theorem passed_concat (g : Guard) (ms : List Posting) (m : Posting) :
    g.passed (ms ++ [m])
      = g.passed ms ++ if m.arrives && (ms.foldl after g).lets m.sequence then [m.datagram] else [] := by
  induction ms generalizing g with
  | nil => simp [passed]
  | cons k ms ih => rw [List.cons_append, passed, ih, passed, List.append_assoc, List.foldl_cons]

/-- The reader lets nothing pass that did not arrive, and keeps the order. -/
theorem passed_sublist (g : Guard) (ms : List Posting) : (g.passed ms).Sublist (written ms) := by
  induction ms generalizing g with
  | nil => exact .slnil
  | cons m ms ih =>
    rw [passed, written_cons]
    refine List.Sublist.append ?_ (ih _)
    cases m.arrives <;> cases g.lets m.sequence <;> simp

/-- As long as the ends agree on the last index, only the window can refuse a packet. -/
theorem passed_of_admitsAll {w : ReplayWindow} (hi : g.reader = g.writer) (hw : g.window = some w)
    (harrive : ∀ m ∈ ms, m.arrives = true) (h : w.AdmitsAll (ms.map (·.sequence))) : g.passed ms = written ms := by
  induction ms generalizing g w with
  | nil => rfl
  | cons m ms ih =>
    obtain ⟨hm, hms⟩ := h
    have ha := harrive m List.mem_cons_self
    have hlets : g.lets m.sequence = true := by simp [lets, windowFor, hw, hm, hi]
    have hafter : (g.after m).passed ms = written ms :=
      ih (by simp [after, ha, hlets, hi]) (by simp [after, ha, hlets, windowFor, hw])
        (fun k hk => harrive k (List.mem_cons_of_mem _ hk)) hms
    rw [passed, hafter, written_cons, hlets, Bool.and_true]

/-- If everything arrives and all numbers are fresh, everything passes. -/
theorem passed_eq_written (harrive : ∀ m ∈ ms, m.arrives = true) (h : ReplayWindow.Fresh (ms.map (·.sequence))) :
    ({} : Guard).passed ms = written ms := by
  cases ms with
  | nil => rfl
  | cons m ms =>
    have ha := harrive m List.mem_cons_self
    have hlets : ({} : Guard).lets m.sequence = true := by
      simp [lets, windowFor, ReplayWindow.admits_before]
    have hafter : (({} : Guard).after m).passed ms = written ms :=
      passed_of_admitsAll (by simp [after, ha, hlets]) (by simp [after, ha, hlets, windowFor])
        (fun k hk => harrive k (List.mem_cons_of_mem _ hk)) h
    rw [passed, hafter, written_cons, hlets, Bool.and_true]

end Guard

end MediaRelay
