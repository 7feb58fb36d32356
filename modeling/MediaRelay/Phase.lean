/-!
# Phases of a receiver

A receiver is created, then receives, and is stopped in the end. Phases are read from words and numbers and shown
as words.
-/

namespace MediaRelay

/-- How far a receiver has got. -/
inductive Phase where
  | unspecified
  | created
  | receiving
  | stopped
deriving DecidableEq, Repr

namespace Phase

/-- All phases, in the order of their numbers. -/
def all : List Phase := [unspecified, created, receiving, stopped]

/-- The number of a phase. -/
def number : Phase → Nat
  | unspecified => 0
  | created => 1
  | receiving => 2
  | stopped => 3

/-- The word for a phase. -/
def shown : Phase → String
  | unspecified => "Unspecified"
  | created => "created"
  | receiving => "receiving"
  | stopped => "stopped"

/-- The phase of a number; other numbers stand for no phase in particular. -/
def ofNumber (n : Nat) : Phase :=
  (all.find? (·.number = n)).getD unspecified

/-- The phase of a word; other words stand for no phase in particular. -/
def ofText (s : String) : Phase :=
  (all.find? (·.shown = s)).getD unspecified

end Phase

end MediaRelay
