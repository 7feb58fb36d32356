/-!
# Cancellation tokens

A token is cancelled when it or one of its ancestors has been cancelled. A token is the list of its own number and
those of its ancestors; tokens that descend from the receiver are cancelled too once the receiver has begun to
stop. `TokenPool` numbers tokens and remembers which numbers were cancelled.
-/

namespace MediaRelay

/-- A token: its own number, then those of its ancestors. -/
structure Token where
  ids : List Nat
  ofReceiver : Bool
deriving DecidableEq, Repr

/-- The next unused number, and the numbers that were cancelled. -/
structure TokenPool where
  next : Nat := 0
  cancelled : List Nat := []
deriving DecidableEq, Repr

namespace TokenPool

/-- A token without ancestors. -/
def fresh (p : TokenPool) : TokenPool × Token :=
  ({ p with next := p.next + 1 }, ⟨[p.next], false⟩)

/-- A child of the receiver's own token. -/
def ofReceiver (p : TokenPool) : TokenPool × Token :=
  ({ p with next := p.next + 1 }, ⟨[p.next], true⟩)

/-- A child of a token. -/
def child (p : TokenPool) (t : Token) : TokenPool × Token :=
  ({ p with next := p.next + 1 }, ⟨p.next :: t.ids, t.ofReceiver⟩)

/-- Cancels a token, and so all its descendants. -/
def cancel (p : TokenPool) (t : Token) : TokenPool :=
  { p with cancelled := t.ids.take 1 ++ p.cancelled }

/-- Whether a token is cancelled, given whether the receiver has begun to stop. -/
def isCancelled (p : TokenPool) (closing : Bool) (t : Token) : Bool :=
  (t.ofReceiver && closing) || t.ids.any fun i => p.cancelled.contains i

end TokenPool

end MediaRelay
