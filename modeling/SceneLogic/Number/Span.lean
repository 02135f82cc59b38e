/-
Spans: finite numbers of seconds that are not negative.

Durations, start times and sustain times are spans.
-/
import SceneLogic.Number.Text
namespace SceneLogic

/-- A finite number of seconds, not negative. -/
structure Span where
  seconds : Scalar
  nonneg : 0 ≤ seconds
deriving DecidableEq

namespace Span

instance : Zero Span := ⟨⟨0, Int.le_refl 0⟩⟩
instance : Inhabited Span := ⟨0⟩

/-- The span a finite value is, if it is not negative. -/
def ofScalar? (x : Scalar) : Option Span := if h : 0 ≤ x then some ⟨x, h⟩ else none

/-- The span a number is, if it is finite and not negative. -/
def ofNumber? (x : Number) : Option Span := x.toScalar?.bind ofScalar?

/-- The span as a number. -/
def number (s : Span) : Number := .scalar s.seconds

/-- The written form. -/
def text (s : Span) : String := s.seconds.text

/-- The longer of two spans. -/
def max (s t : Span) : Span := if s.seconds < t.seconds then t else s

/-- The longest of some spans, zero if there are none. -/
def longest (spans : List Span) : Span := spans.foldl max 0

end Span

end SceneLogic
