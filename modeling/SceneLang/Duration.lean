import SceneLang.Number.Binary64

/-!
# Spans of time
-/

namespace SceneLang

/-- A span of time, in whole nanoseconds. -/
structure Duration where
  nanoseconds : Nat
deriving DecidableEq, Repr

namespace Duration

def ofMilliseconds (n : Nat) : Duration := ⟨n * 1000000⟩

/-- A number of units of `10 ^ places` parts each, without zeros at the end of the
fraction. -/
def inUnits (places : Nat) (parts : Nat) : String :=
  let whole := parts / tenTo places
  let digits := (Nat.toDigits 10 (tenTo places + parts % tenTo places)).tail
  let fraction := String.ofList (digits.reverse.dropWhile (· = '0')).reverse
  if fraction.isEmpty then toString whole else s!"{whole}.{fraction}"

/-- The written form, in the largest unit of which there is at least one. -/
def text (d : Duration) : String :=
  if 1000000000 ≤ d.nanoseconds then inUnits 9 d.nanoseconds ++ "s"
  else if 1000000 ≤ d.nanoseconds then inUnits 6 d.nanoseconds ++ "ms"
  else if 1000 ≤ d.nanoseconds then inUnits 3 d.nanoseconds ++ "µs"
  else inUnits 0 d.nanoseconds ++ "ns"

end Duration

end SceneLang
