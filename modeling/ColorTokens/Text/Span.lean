/-! Half-open byte ranges of a text. -/

set_option autoImplicit false

namespace ColorTokens.Text

/-- The bytes from `start` up to but not including `stop`. -/
structure Span where
  start : Nat
  stop : Nat
  deriving DecidableEq, Repr, Inhabited

namespace Span

/-- A reversed span has length zero. -/
def length (span : Span) : Nat :=
  span.stop - span.start

def isEmpty (span : Span) : Bool :=
  span.stop ≤ span.start

def intersects (a b : Span) : Bool :=
  a.start < b.stop && b.start < a.stop

instance : Ord Span where
  compare a b := (compare a.start b.start).then (compare a.stop b.stop)

def le (a b : Span) : Bool :=
  (compare a b).isLE

end Span

end ColorTokens.Text
