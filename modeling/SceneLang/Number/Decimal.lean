import SceneLang.Number.Binary64

/-!
# Decimal literals

A decimal literal is an optional sign, digits with at most one point among them, and an
optional exponent.  Reading one gives the nearest binary number, with a single rounding.
-/

namespace SceneLang

/-- The number `± digits * 10 ^ exponent`. -/
structure Decimal where
  negative : Bool
  digits : Nat
  exponent : Int
deriving DecidableEq, Repr, Inhabited

namespace Decimal

/-- The natural number that a list of decimal digits denotes. -/
def digitsValue (digits : List Char) : Nat :=
  digits.foldl (fun value c => value * 10 + (c.toNat - '0'.toNat)) 0

/-- An exponent `e5`, `E-7` at the very end of a literal; nothing stands for zero. -/
def exponent? : List Char → Option Int
  | [] => some 0
  | mark :: rest =>
      if mark = 'e' ∨ mark = 'E' then
        let (negative, digits) :=
          match rest with
          | '-' :: digits => (true, digits)
          | '+' :: digits => (false, digits)
          | digits => (false, digits)
        if digits ≠ [] ∧ digits.all Char.isDigit then
          let size : Int := digitsValue digits
          some (if negative then -size else size)
        else none
      else none

/-- Read digits, an optional point with more digits, and an optional exponent.  One digit
before or after the point is needed. -/
def unsigned? (negative : Bool) (text : List Char) : Option Decimal :=
  let whole := text.takeWhile Char.isDigit
  let afterWhole := text.dropWhile Char.isDigit
  let (fraction, rest) :=
    match afterWhole with
    | '.' :: more => (more.takeWhile Char.isDigit, more.dropWhile Char.isDigit)
    | more => ([], more)
  if whole = [] ∧ fraction = [] then none
  else
    (exponent? rest).map fun exponent =>
      ⟨negative, digitsValue (whole ++ fraction), exponent - fraction.length⟩

def ofText? : List Char → Option Decimal
  | '-' :: rest => unsigned? true rest
  | '+' :: rest => unsigned? false rest
  | text => unsigned? false text

/-- The binary number nearest to a decimal one.  Past the four-hundredth decimal place
nothing but zero and infinity is left. -/
def toBinary64 (d : Decimal) : Binary64 :=
  let places : Int := (Nat.toDigits 10 d.digits).length + d.exponent
  if d.digits = 0 ∨ places < -400 then .ofMagnitude d.negative 0
  else if 400 < places then .ofMagnitude d.negative Binary64.infinityBits
  else if 0 ≤ d.exponent then .nearest d.negative (d.digits * tenTo d.exponent.toNat) 1
  else .nearest d.negative d.digits (tenTo (-d.exponent).toNat)

end Decimal

end SceneLang
