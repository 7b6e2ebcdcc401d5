import LinkTest.Text.Digits

/-! # Lengths of time

A span is a count of nanoseconds. The largest span that can be kept has `2 ^ 64 - 1` whole
seconds; arithmetic that may leave this range answers nothing where it does. -/

namespace LinkTest

structure Span where
  nanos : Nat
deriving DecidableEq, Repr, Inhabited

namespace Span

def zero : Span := ⟨0⟩

def ofSeconds (n : Nat) : Span := ⟨1000000000 * n⟩

def ofMillis (n : Nat) : Span := ⟨1000000 * n⟩

/-- The spans that can be kept. -/
def Fits (s : Span) : Prop := s.nanos < Nat.pow 2 64 * 1000000000

instance (s : Span) : Decidable s.Fits := inferInstanceAs (Decidable (_ < _))

def checked (s : Span) : Option Span := if s.Fits then some s else none

def times? (s : Span) (n : Nat) : Option Span := checked ⟨n * s.nanos⟩

def plus? (s t : Span) : Option Span := checked ⟨s.nanos + t.nanos⟩

/-- Whole units and the rest of a unit, without zeros at the end of the fraction. -/
private def decimalUnits (nanos unit places : Nat) (name : String) : String :=
  let ds := ((Text.padded places (nanos % unit)).reverse.dropWhile (· = '0')).reverse
  toString (nanos / unit) ++ (if ds.isEmpty then "" else "." ++ String.ofList ds) ++ name

/-- The span in the largest unit of which it holds at least one. -/
def text (s : Span) : String :=
  if 1000000000 ≤ s.nanos then decimalUnits s.nanos 1000000000 9 "s"
  else if 1000000 ≤ s.nanos then decimalUnits s.nanos 1000000 6 "ms"
  else if 1000 ≤ s.nanos then decimalUnits s.nanos 1000 3 "\u00b5s"
  else toString s.nanos ++ "ns"

end Span
end LinkTest
