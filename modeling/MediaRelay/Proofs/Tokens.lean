import MediaRelay.Proofs.Kinship

/-!
# Notes about tokens

The tokens that the receiver hands out and those of relays descend from the receiver's own; pumps and schedulers of the
application have tokens without ancestors. `Session.notes` lists what the commands of a run did with them.

- `Session.noted_perform`: what a command does to tokens is what is noted of it;
- `Ledger` relates notes to what is kept of tokens: no number is given twice, and one that was given is cancelled
  exactly if that is noted (`Ledger.enter`), whatever layers of relays fail (`Ledger.fall`).
-/

namespace MediaRelay

/-! ## Notes -/

/-- What a command does with a token. -/
inductive TokenNote where
  /-- The receiver hands it out under a name. -/
  | handed (name : String) (t : Token)
  /-- A pump or a scheduler of the application runs under it, and it gets the same name. -/
  | own (name : String) (t : Token)
  /-- A new relay gets it. -/
  | relay (t : Token)
  /-- It is cancelled by its name. -/
  | cancelled (t : Token)
  /-- The relay that has it is closed. -/
  | closed (t : Token)
deriving DecidableEq

namespace TokenNote

/-- The token that is new. -/
def given? : TokenNote → Option Token
  | .handed _ t | .own _ t | .relay t => some t
  | _ => none

/-- Whether what is new descends from the receiver's token. -/
def descends : TokenNote → Bool
  | .own _ _ => false
  | _ => true

/-- The token of a new relay. -/
def relay? : TokenNote → Option Token
  | .relay t => some t
  | _ => none

/-- The names of tokens after a note. -/
def name (names : Table String Token) : TokenNote → Table String Token
  | .handed n t | .own n t => names.insert n t
  | _ => names

end TokenNote

/-- The tokens that are new in some notes. -/
def given (notes : List TokenNote) : List Token :=
  notes.filterMap TokenNote.given?

namespace Session

/-- What is to be noted of a command. -/
def noted (s : Session) : Command → List TokenNote
  | .token (.take name) => if s.hub.held then [.handed name s.hub.tokens.ofReceiver.2] else []
  | .token (.cancel name) => ((s.tokens.find? name).map .cancelled).toList
  | .relay (.add _ _) => if s.hub.held then [.relay s.hub.tokens.ofReceiver.2] else []
  | .relay (.close name) => ((s.relay? name).map fun x => .closed x.2.token).toList
  | .relay (.startPump name rid forwarder) =>
    match s.hub.receiver.layer? rid, s.forwarder? forwarder with
    | some _, some _ => [.own name s.hub.tokens.fresh.2]
    | _, _ => []
  | .relay (.startScheduler name rid _ _) =>
    match s.hub.receiver.layer? rid with
    | some _ => [.own name s.hub.tokens.fresh.2]
    | none => []
  | _ => []

/-- What is to be noted of a run. -/
def notes (s : Session) : List Command → List TokenNote
  | [] => []
  | c :: cs => s.noted c ++ notes (s.step c).1 cs

end Session

/-! ## What commands do to tokens -/

/-- The names of tokens, the numbers that were cancelled, and the tokens of relays. -/
structure Books where
  names : Table String Token
  cancelled : List Nat
  relays : List Token

/-- The books before and after something is noted, given the next number. -/
inductive Books.Entered (next : Nat) (b : Books) : List TokenNote → Books → Prop
  | nothing : Entered next b [] b
  | handed (name : String) :
    Entered next b [.handed name ⟨[next], true⟩] { b with names := b.names.insert name ⟨[next], true⟩ }
  | own (name : String) :
    Entered next b [.own name ⟨[next], false⟩] { b with names := b.names.insert name ⟨[next], false⟩ }
  | relay : Entered next b [.relay ⟨[next], true⟩] { b with relays := b.relays ++ [⟨[next], true⟩] }
  | cancelled {name : String} {t : Token} (hn : b.names.find? name = some t) :
    Entered next b [.cancelled t] { b with cancelled := t.ids.take 1 ++ b.cancelled }
  | closed {t : Token} (hr : t ∈ b.relays) :
    Entered next b [.closed t] { b with cancelled := t.ids.take 1 ++ b.cancelled }

/-- What a hub and names for tokens keep of tokens. -/
def Hub.books (h : Hub) (names : Table String Token) : Books :=
  ⟨names, h.tokens.cancelled, h.relays.map Relay.token⟩

namespace Session

variable {s : Session}

/-- What a session keeps of tokens. -/
def books (s : Session) : Books :=
  s.hub.books s.tokens

theorem books_startRelay (h : Hub) (names : Table String Token) (index : Nat) (rids : List String) :
    (h.startRelay index rids).1.books names = h.books names := by
  have hc : (h.startRelay index rids).1.tokens.cancelled = h.tokens.cancelled := by
    rcases h.startRelay_cases index rids with he | ⟨r, -, -, -, hc, -⟩
    · rw [he]
    · exact hc
  rw [Hub.books, hc, h.map_token_startRelay]
  rfl

/-- Commands that are about other things leave the tokens alone. -/
theorem books_perform {c : Command} (ht : ∀ d, c ≠ .token d) (hr : ∀ d, c ≠ .relay d) (hc : ∀ n, c ≠ .advance n) :
    (s.perform c).1.books = s.books := by
  have d := deed_of_perform (s := s) hc
  show (s.perform c).1.hub.books (s.perform c).1.tokens = s.hub.books s.tokens
  generalize (s.perform c).1.hub = g at d
  generalize (s.perform c).1.tokens = names at d
  cases d with
  | read q =>
    obtain ⟨u, hu, -⟩ := s.hub.read_transport q
    rw [hu]
    rfl
  | takeToken | cancelToken => exact absurd rfl (ht _)
  | giveFeedback | addRelay | startRelay | closeRelay | startPump | startScheduler => exact absurd rfl (hr _)
  | _ => rfl

theorem entered_performToken (c : TokenCommand) :
    s.books.Entered s.hub.tokens.next (s.noted (.token c)) (s.performToken c).1.books := by
  cases c with
  | take name =>
    simp only [performToken, noted]
    split
    · exact .handed name
    · exact .nothing
  | state name =>
    simp only [performToken, noted]
    split <;> exact .nothing
  | cancel name =>
    simp only [performToken, noted]
    split
    · next t hn =>
      rw [hn]
      exact .cancelled hn
    · next hn =>
      rw [hn]
      exact .nothing

theorem entered_performRelay (c : RelayCommand) :
    s.books.Entered s.hub.tokens.next (s.noted (.relay c)) (s.performRelay c).1.books := by
  cases c with
  | add name map =>
    simp only [performRelay, noted]
    split
    · have he : ({ s with hub := s.hub.addRelay (s.route map),
                          relays := s.relays.insert name s.hub.relays.length } : Session).books
          = { s.books with relays := s.books.relays ++ [⟨[s.hub.tokens.next], true⟩] } := by
        simp [books, Hub.books, Hub.addRelay, TokenPool.ofReceiver]
      rw [he]
      exact .relay
    · exact .nothing
  | start name =>
    simp only [performRelay, noted]
    split
    · split
      · rw [show (s.setHub _).books = _ from books_startRelay _ _ _ _]
        exact .nothing
      · exact .nothing
    · exact .nothing
  | close name =>
    simp only [performRelay, noted]
    split
    · next r hn =>
      rw [hn]
      exact .closed (List.mem_map_of_mem (List.mem_of_getElem? (of_relay? hn).2))
    · next hn =>
      rw [hn]
      exact .nothing
  | startPump name rid forwarder =>
    simp only [performRelay, noted]
    cases s.hub.receiver.layer? rid with
    | none => exact .nothing
    | some l =>
      cases s.forwarder? forwarder with
      | none => exact .nothing
      | some f => exact .own name
  | startScheduler name rid period bitrate =>
    simp only [performRelay, noted]
    cases s.hub.receiver.layer? rid with
    | none => exact .nothing
    | some l => exact .own name
  | takeFailures name =>
    simp only [performRelay, noted]
    split
    · exact .nothing
    · split <;> exact .nothing
  | install name =>
    simp only [performRelay, noted]
    split
    · split <;> exact .nothing
    · exact .nothing
  | addForwarder name map => exact .nothing
  | _ =>
    simp only [performRelay, noted]
    split <;> exact .nothing

/-- What a command does to tokens is what is noted of it. -/
theorem noted_perform {c : Command} (hc : ∀ n, c ≠ .advance n) :
    s.books.Entered s.hub.tokens.next (s.noted c) (s.perform c).1.books := by
  cases c with
  | token c => exact entered_performToken c
  | relay c => exact entered_performRelay c
  | advance n => exact absurd rfl (hc n)
  | _ =>
    rw [books_perform (fun _ h => by cases h) (fun _ h => by cases h) hc]
    exact .nothing

end Session

/-! ## Notes and books -/

section Given

variable {notes : List TokenNote} {x y : TokenNote} {t u : Token}

theorem given_append (notes : List TokenNote) (x : TokenNote) :
    given (notes ++ [x]) = given notes ++ x.given?.toList := by
  rw [given, List.filterMap_append]
  rfl

theorem mem_given_of_mem (hx : x ∈ notes) (ht : x.given? = some t) : t ∈ given notes :=
  List.mem_filterMap.mpr ⟨x, hx, ht⟩

theorem mem_given_of_relay (h : t ∈ notes.filterMap TokenNote.relay?) : TokenNote.relay t ∈ notes := by
  obtain ⟨x, hx, he⟩ := List.mem_filterMap.mp h
  cases x with
  | relay t' =>
    cases he
    exact hx
  | _ => cases he

/-- Where no number is given twice, a number is given by one note. -/
theorem note_unique (hd : ((given notes).map Token.ids).Nodup) (hx : x ∈ notes) (hy : y ∈ notes)
    (ht : x.given? = some t) (hu : y.given? = some t) : x = y := by
  induction notes with
  | nil => cases hx
  | cons z notes ih =>
    cases hz : z.given? with
    | none =>
      rw [given, List.filterMap_cons_none hz] at hd
      rcases List.mem_cons.mp hx with rfl | hx
      · cases hz.symm.trans ht
      rcases List.mem_cons.mp hy with rfl | hy
      · cases hz.symm.trans hu
      exact ih hd hx hy
    | some k =>
      rw [given, List.filterMap_cons_some hz, List.map_cons] at hd
      obtain ⟨hn, hd⟩ := List.nodup_cons.mp hd
      have other : ∀ w ∈ notes, w.given? = some t → k ≠ t := fun w hw hwt he =>
        hn (List.mem_map_of_mem (he ▸ mem_given_of_mem hw hwt))
      rcases List.mem_cons.mp hx with hxz | hx' <;> rcases List.mem_cons.mp hy with hyz | hy'
      · exact hxz.trans hyz.symm
      · exact absurd (Option.some.inj (hz.symm.trans (hxz ▸ ht))) (other y hy' hu)
      · exact absurd (Option.some.inj (hz.symm.trans (hyz ▸ hu))) (other x hx' ht)
      · exact ih hd hx' hy'

/-- Who has a name has got it by a note. -/
theorem noted_of_find? {names : Table String Token} {name : String}
    (h : (notes.foldl TokenNote.name names).find? name = some t) :
    names.find? name = some t ∨ .handed name t ∈ notes ∨ .own name t ∈ notes := by
  induction notes generalizing names with
  | nil => exact .inl h
  | cons x notes ih =>
    rcases ih h with hx | hx
    · have new : ∀ n k, (names.insert n k).find? name = some t → (n = name ∧ k = t) ∨ names.find? name = some t := by
        intro n k hn
        by_cases he : name = n
        · rw [he, Table.find?_insert_self] at hn
          exact .inl ⟨he.symm, Option.some.inj hn⟩
        · rw [Table.find?_insert_of_ne _ _ he] at hn
          exact .inr hn
      cases x with
      | handed n k =>
        rcases new n k hx with ⟨rfl, rfl⟩ | hx
        · exact .inr (.inl List.mem_cons_self)
        · exact .inl hx
      | own n k =>
        rcases new n k hx with ⟨rfl, rfl⟩ | hx
        · exact .inr (.inr List.mem_cons_self)
        · exact .inl hx
      | _ => exact .inl hx
    · exact .inr (hx.imp (List.mem_cons_of_mem _) (List.mem_cons_of_mem _))

end Given

/-! ## The ledger -/

/-- Notes and books that go together, given to which layers the numbers belong that have been taken. -/
structure Ledger (b : Books) (notes : List TokenNote) (a : Leases) (next : Nat) : Prop where
  rooted : ∀ t ∈ given notes, t.Rooted a next
  flags : ∀ x ∈ notes, ∀ t, x.given? = some t → t.ofReceiver = x.descends
  distinct : ((given notes).map Token.ids).Nodup
  names : b.names = notes.foldl TokenNote.name {}
  relays : b.relays = notes.filterMap TokenNote.relay?
  cancelled : ∀ t, .cancelled t ∈ notes → ∃ name, .handed name t ∈ notes ∨ .own name t ∈ notes
  closed : ∀ t, .closed t ∈ notes → .relay t ∈ notes
  /-- A number that was given is cancelled exactly if that is noted. -/
  cut : ∀ t ∈ given notes, ∀ n ∈ t.ids, n ∈ b.cancelled ↔ .cancelled t ∈ notes ∨ .closed t ∈ notes

namespace Ledger

variable {b b' : Books} {notes ns : List TokenNote} {a a' : Leases} {next next' : Nat} {t : Token} {x : TokenNote}

theorem mem_given (l : Ledger b notes a next) (h : .cancelled t ∈ notes ∨ .closed t ∈ notes) : t ∈ given notes := by
  rcases h with h | h
  · obtain ⟨name, h | h⟩ := l.cancelled t h
    · exact mem_given_of_mem h rfl
    · exact mem_given_of_mem h rfl
  · exact mem_given_of_mem (l.closed t h) rfl

/-- A number that was given has been taken from the pool. -/
theorem lt (l : Ledger b notes a next) (ht : t ∈ given notes) {n : Nat} (hn : n ∈ t.ids) : n < next := by
  obtain ⟨k, hk, hi, -⟩ := l.rooted t ht
  rw [hi, List.mem_singleton] at hn
  exact hn ▸ hk

theorem grown (l : Ledger b notes a next) (hg : a.Grown next a' next') : Ledger b notes a' next' :=
  { l with rooted := fun t ht => (l.rooted t ht).mono hg }

/-- A new token is given. -/
theorem give (l : Ledger b notes a next) (hx : x.given? = some t) (hi : t.ids = [next])
    (hf : t.ofReceiver = x.descends) (hn : next ∉ b.cancelled) (hg : a.Grown next a' next') (hr : t.Rooted a' next')
    {relays : List Token} (hrel : relays = b.relays ++ x.relay?.toList) :
    Ledger ⟨x.name b.names, b.cancelled, relays⟩ (notes ++ [x]) a' next' := by
  have he : given (notes ++ [x]) = given notes ++ [t] := by
    rw [given_append, hx]
    rfl
  have old : ∀ {y : TokenNote}, y.given? = none → (y ∈ notes ++ [x] ↔ y ∈ notes) := fun {y} hy => by
    rw [List.mem_append, List.mem_singleton, or_iff_left]
    rintro rfl
    cases hx.symm.trans hy
  refine ⟨?_, ?_, ?_, ?_, ?_, ?_, ?_, ?_⟩
  · intro u hu
    rw [he] at hu
    rcases List.mem_append.mp hu with hu | hu
    · exact (l.rooted u hu).mono hg
    · exact List.mem_singleton.mp hu ▸ hr
  · intro y hy u hu
    rcases List.mem_append.mp hy with hy | hy
    · exact l.flags y hy u hu
    · obtain rfl := List.mem_singleton.mp hy
      cases hx.symm.trans hu
      exact hf
  · rw [he, List.map_append]
    refine List.nodup_append.mpr ⟨l.distinct, List.nodup_singleton _, fun is his js hjs e => ?_⟩
    obtain ⟨u, hu, rfl⟩ := List.mem_map.mp his
    have hu := l.lt hu (n := next) (by rw [e, List.mem_singleton.mp hjs, hi]; exact List.mem_singleton_self _)
    exact Nat.lt_irrefl _ hu
  · rw [List.foldl_append, ← l.names]
    rfl
  · rw [List.filterMap_append, ← l.relays]
    exact hrel
  · intro u hu
    obtain ⟨name, h⟩ := l.cancelled u ((old rfl).mp hu)
    exact ⟨name, h.imp (List.mem_append_left _) (List.mem_append_left _)⟩
  · exact fun u hu => List.mem_append_left _ (l.closed u ((old rfl).mp hu))
  · intro u hu n hnu
    rw [old rfl, old rfl]
    rw [he] at hu
    rcases List.mem_append.mp hu with hu | hu
    · exact l.cut u hu n hnu
    · obtain rfl := List.mem_singleton.mp hu
      rw [hi, List.mem_singleton] at hnu
      refine ⟨fun hc => absurd (hnu ▸ hc) hn, fun h => ?_⟩
      exact absurd (l.lt (l.mem_given h) (n := next) (by rw [hi]; exact List.mem_singleton_self _)) (Nat.lt_irrefl _)

/-- A token that was given is cancelled. -/
theorem strike (l : Ledger b notes a next)
    (hx : x = .cancelled t ∧ (∃ name, .handed name t ∈ notes ∨ .own name t ∈ notes)
      ∨ x = .closed t ∧ .relay t ∈ notes) :
    Ledger { b with cancelled := t.ids.take 1 ++ b.cancelled } (notes ++ [x]) a next := by
  have ht : t ∈ given notes := by
    rcases hx with ⟨-, name, h | h⟩ | ⟨-, h⟩ <;> exact mem_given_of_mem h rfl
  have hnone : x.given? = none ∧ x.relay? = none ∧ ∀ names, x.name names = names := by
    rcases hx with ⟨rfl, -⟩ | ⟨rfl, -⟩ <;> exact ⟨rfl, rfl, fun _ => rfl⟩
  have he : given (notes ++ [x]) = given notes := by
    rw [given_append, hnone.1]
    exact List.append_nil _
  obtain ⟨k, hk, hi, -⟩ := l.rooted t ht
  refine ⟨?_, ?_, ?_, ?_, ?_, ?_, ?_, ?_⟩
  · rw [he]
    exact l.rooted
  · intro y hy u hu
    rcases List.mem_append.mp hy with hy | hy
    · exact l.flags y hy u hu
    · rw [List.mem_singleton.mp hy, hnone.1] at hu
      cases hu
  · rw [he]
    exact l.distinct
  · rw [List.foldl_append, ← l.names]
    exact (hnone.2.2 _).symm
  · rw [List.filterMap_append, ← l.relays, List.filterMap_cons_none hnone.2.1]
    exact (List.append_nil _).symm
  · intro u hu
    rcases List.mem_append.mp hu with hu | hu
    · obtain ⟨name, h⟩ := l.cancelled u hu
      exact ⟨name, h.imp (List.mem_append_left _) (List.mem_append_left _)⟩
    · rcases hx with ⟨rfl, name, h⟩ | ⟨rfl, -⟩
      · cases List.mem_singleton.mp hu
        exact ⟨name, h.imp (List.mem_append_left _) (List.mem_append_left _)⟩
      · cases List.mem_singleton.mp hu
  · intro u hu
    rcases List.mem_append.mp hu with hu | hu
    · exact List.mem_append_left _ (l.closed u hu)
    · rcases hx with ⟨rfl, -⟩ | ⟨rfl, h⟩
      · cases List.mem_singleton.mp hu
      · cases List.mem_singleton.mp hu
        exact List.mem_append_left _ h
  · intro u hu n hn
    rw [he] at hu
    have hstruck : .cancelled u ∈ notes ++ [x] ∨ .closed u ∈ notes ++ [x]
        ↔ (.cancelled u ∈ notes ∨ .closed u ∈ notes) ∨ u = t := by
      rcases hx with ⟨rfl, -⟩ | ⟨rfl, -⟩ <;> simp <;> tauto
    show n ∈ t.ids.take 1 ++ b.cancelled ↔ _
    rw [hstruck, hi, ← l.cut u hu n hn]
    show n ∈ k :: b.cancelled ↔ _
    rw [List.mem_cons, or_comm]
    refine or_congr_right ⟨fun hnk => ?_, fun hut => ?_⟩
    · obtain ⟨m, -, hm, -⟩ := l.rooted u hu
      rw [hm, List.mem_singleton] at hn
      exact List.inj_on_of_nodup_map l.distinct hu ht (by rw [hm, hi, ← hn, hnk])
    · rw [hut, hi, List.mem_singleton] at hn
      exact hn

/-- Something is noted. -/
theorem enter (l : Ledger b notes a next) (he : b.Entered next ns b') (hg : a.Grown next a' next')
    (hr : ∀ t ∈ given ns, t.Rooted a' next') (hn : next ∉ b.cancelled) : Ledger b' (notes ++ ns) a' next' := by
  cases he with
  | nothing =>
    rw [List.append_nil]
    exact l.grown hg
  | handed name =>
    exact l.give (x := .handed name ⟨[next], true⟩) rfl rfl rfl hn hg (hr _ (List.mem_singleton_self _))
      (List.append_nil _).symm
  | own name =>
    exact l.give (x := .own name ⟨[next], false⟩) rfl rfl rfl hn hg (hr _ (List.mem_singleton_self _))
      (List.append_nil _).symm
  | relay => exact l.give (x := .relay ⟨[next], true⟩) rfl rfl rfl hn hg (hr _ (List.mem_singleton_self _)) rfl
  | cancelled hname =>
    rw [l.names] at hname
    have h := (noted_of_find? hname).resolve_left (fun h => by cases h)
    exact (l.strike (.inl ⟨rfl, _, h⟩)).grown hg
  | closed hrel =>
    rw [l.relays] at hrel
    exact (l.strike (.inr ⟨rfl, mem_given_of_relay hrel⟩)).grown hg

/-- The token of a layer is cancelled. -/
theorem fall (l : Ledger b notes a next) {m : Nat} {y : Nat × String} (hm : a m = some y) :
    Ledger { b with cancelled := m :: b.cancelled } notes a next := by
  refine { l with cut := fun t ht n hn => ?_ }
  rw [← l.cut t ht n hn, List.mem_cons, or_iff_right]
  rintro rfl
  obtain ⟨k, -, hi, hk⟩ := l.rooted t ht
  rw [hi, List.mem_singleton] at hn
  rw [hn, hk] at hm
  cases hm

end Ledger

end MediaRelay
