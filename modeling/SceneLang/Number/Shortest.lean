import SceneLang.Number.Binary64

/-!
# Shortest decimal forms

Among the decimals that read back as a given binary number, the shortest form has the
fewest digits, and is the nearest of those.  How the digits are laid out is decided by a
record, so that the digits and their layout can be stated apart.
-/

namespace SceneLang.Shortest

/-- The decimal `digits * 10 ^ exponent`. -/
structure Digits where
  digits : Nat
  exponent : Int
deriving DecidableEq, Repr

/-- Numbers that round to one binary number lie between two bounds, here multiplied by
four times the weight of its last bit; the bounds belong to it when its significand is
even. -/
structure Interval where
  low : Nat
  value : Nat
  high : Nat
  /-- The common factor, a quotient of naturals. -/
  num : Nat
  den : Nat
  closed : Bool

def interval (x : Binary64) : Interval :=
  let (significand, exponent) := x.parts
  let narrow := significand = twoTo 52 ∧ -1074 < exponent
  let shifted := exponent - 2
  { low := 4 * significand - if narrow then 1 else 2
    value := 4 * significand
    high := 4 * significand + 2
    num := if 0 ≤ shifted then twoTo shifted.toNat else 1
    den := if 0 ≤ shifted then 1 else twoTo (-shifted).toNat
    closed := significand % 2 = 0 }

/-- Is `candidate * 10 ^ place` in the interval? -/
def Interval.holds (i : Interval) (candidate : Nat) (place : Int) : Bool :=
  let (up, down) := if 0 ≤ place then (tenTo place.toNat, 1) else (1, tenTo (-place).toNat)
  let point := candidate * up * i.den
  let low := i.low * i.num * down
  let high := i.high * i.num * down
  if i.closed then low ≤ point ∧ point ≤ high else low < point ∧ point < high

/-- The neighbours of the value on the grid of multiples of `10 ^ place`, if one of them
lies in the interval; the nearer one of two, and the even one of two that are equally
near. -/
def Interval.onGrid? (i : Interval) (place : Int) : Option Nat :=
  let (up, down) := if 0 ≤ place then (tenTo place.toNat, 1) else (1, tenTo (-place).toNat)
  let num := i.value * i.num * down
  let den := i.den * up
  let below := num / den
  let near := Binary64.roundDiv num den
  if i.holds near place then some near
  else if i.holds below place then some below
  else if i.holds (below + 1) place then some (below + 1)
  else none

/-- The number of decimal places before the point of a positive quotient, not above zero
for quotients below one. -/
def decimalPlaces (num den : Nat) : Int :=
  let guess : Int := (((num.log2 : Int) - den.log2 - 1) * 30103) / 100000 - 1
  let fits (k : Int) : Bool :=
    if 0 ≤ k then num < den * tenTo k.toNat else num * tenTo (-k).toNat < den
  (([0, 1, 2, 3, 4] : List Int).map (guess + ·)).find? fits |>.getD (guess + 5)

/-- The shortest digits of a finite number other than zero. -/
def digits (x : Binary64) : Digits :=
  let i := interval x
  let places := decimalPlaces (i.value * i.num) i.den
  let found := (List.range 17).findSome? fun count =>
    let place := places - (count + 1 : Nat)
    (i.onGrid? place).map fun n => (⟨n, place⟩ : Digits)
  let rec strip : Nat → Digits → Digits
    | 0, d => d
    | fuel + 1, d =>
        if d.digits % 10 = 0 ∧ d.digits ≠ 0 then strip fuel ⟨d.digits / 10, d.exponent + 1⟩
        else d
  strip 20 (found.getD ⟨0, 0⟩)

/-- How digits are laid out: numbers with a point position between `leastPlaces` and
`mostPlaces` are written in full, with `.0` if they are whole, and all others with an
exponent. -/
structure Layout where
  leastPlaces : Int
  mostPlaces : Int
  /-- What stands before the digits of an exponent that is not negative. -/
  plus : List Char

def exponentText (layout : Layout) (exponent : Int) : List Char :=
  'e' :: ((if 0 ≤ exponent then layout.plus else []) ++ (toString exponent).toList)

def render (layout : Layout) (x : Binary64) : String :=
  let sign := if x.isNegative then "-" else ""
  if x.isZero then sign ++ "0.0"
  else
    let d := digits x
    let text := Nat.toDigits 10 d.digits
    let places : Int := text.length + d.exponent
    let zeros (n : Int) : List Char := List.replicate n.toNat '0'
    let body :=
      if 0 ≤ d.exponent ∧ places ≤ layout.mostPlaces then
        text ++ zeros d.exponent ++ ['.', '0']
      else if 0 < places ∧ places ≤ layout.mostPlaces then
        text.take places.toNat ++ '.' :: text.drop places.toNat
      else if layout.leastPlaces < places ∧ places ≤ 0 then
        ['0', '.'] ++ zeros (-places) ++ text
      else
        let mantissa :=
          match text with
          | [digit] => [digit]
          | first :: more => first :: '.' :: more
          | [] => []
        mantissa ++ exponentText layout (places - 1)
    sign ++ String.ofList body

end SceneLang.Shortest

namespace SceneLang.Binary64

/-! ## Decimals with a fixed number of places -/

/-- A finite number with a fixed number of decimal places.  It is rounded to the nearest
such decimal, and a half goes to the even one. -/
def fixed (places : Nat) (x : Binary64) : String :=
  let (num, den) := x.ratio
  let digits := Nat.toDigits 10 (roundDiv (num * tenTo places) den)
  let padded := List.replicate (places + 1 - digits.length) '0' ++ digits
  let (whole, fraction) := padded.splitAt (padded.length - places)
  let sign := if x.isNegative then ['-'] else []
  String.ofList (sign ++ whole ++ if places = 0 then [] else '.' :: fraction)

end SceneLang.Binary64
