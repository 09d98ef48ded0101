/-!
# Spans of code points

Character classes are given by finite tables of code-point spans. A span is closed on both sides;
a run also has a step, because upper- and lower-case letters often alternate.
-/

namespace ProtocolCodec.Text

/-- The code points from `first` to `last`, both included. -/
structure Span where
  first : Nat
  last : Nat
deriving Repr, DecidableEq

namespace Span

/-- Whether a code point lies in the span. -/
def holds (span : Span) (point : Nat) : Bool :=
  span.first ≤ point && point ≤ span.last

end Span

/-- Every `step`-th code point from `first` to `last`, sent to consecutive code points of the same
distance from `image`. -/
structure Run where
  first : Nat
  last : Nat
  step : Nat
  image : Nat
deriving Repr, DecidableEq

namespace Run

/-- Whether a code point belongs to the run. -/
def holds (run : Run) (point : Nat) : Bool :=
  run.first ≤ point && point ≤ run.last && (point - run.first) % run.step == 0

/-- Where the run sends one of its code points. -/
def send (run : Run) (point : Nat) : Nat :=
  run.image + (point - run.first)

end Run

/-- Whether some span of the table holds the character. -/
def inSpans (table : List Span) (c : Char) : Bool :=
  table.any (·.holds c.toNat)

end ProtocolCodec.Text
