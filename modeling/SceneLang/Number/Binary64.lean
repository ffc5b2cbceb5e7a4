/-!
# Binary numbers of 64 bits

A number of the binary64 format of IEEE 754 is its bit pattern.  Every result here is the
exact quotient of two naturals, rounded once to the nearest number of the format, and a
half goes to the even neighbour.
-/

namespace SceneLang

/-! ## Powers of two and ten

Word sizes and binary numbers count in powers of two, decimal places in powers of ten.
-/

def twoTo (exponent : Nat) : Nat := Nat.pow 2 exponent

def tenTo (exponent : Nat) : Nat := Nat.pow 10 exponent

theorem twoTo_pos (exponent : Nat) : 0 < twoTo exponent :=
  Nat.pow_pos (by omega)

theorem tenTo_pos (exponent : Nat) : 0 < tenTo exponent :=
  Nat.pow_pos (by omega)

theorem twoTo_succ (exponent : Nat) : twoTo (exponent + 1) = twoTo exponent * 2 := rfl

theorem tenTo_succ (exponent : Nat) : tenTo (exponent + 1) = tenTo exponent * 10 := rfl

/-- A binary64 number. -/
structure Binary64 where
  bits : UInt64
deriving DecidableEq, Repr, Inhabited

namespace Binary64

/-- The bit pattern of infinity without its sign. -/
def infinityBits : Nat := 2047 * twoTo 52

/-- A number of a sign and the 63 bits below it. -/
def ofMagnitude (negative : Bool) (magnitude : Nat) : Binary64 :=
  ⟨UInt64.ofNat ((if negative then twoTo 63 else 0) + magnitude)⟩

def zero : Binary64 := ⟨0⟩

def isNegative (x : Binary64) : Bool :=
  twoTo 63 ≤ x.bits.toNat

/-- The 63 bits below the sign. -/
def magnitude (x : Binary64) : Nat :=
  x.bits.toNat % twoTo 63

def isFinite (x : Binary64) : Bool :=
  x.magnitude < infinityBits

def isZero (x : Binary64) : Bool :=
  x.magnitude = 0

/-- The significand and the exponent of a finite number, so that its absolute value is
`significand * 2 ^ exponent`. -/
def parts (x : Binary64) : Nat × Int :=
  let field : Nat := x.magnitude / twoTo 52
  let fraction := x.magnitude % twoTo 52
  if field = 0 then (fraction, -1074) else (twoTo 52 + fraction, (field : Int) - 1075)

/-- The quotient rounded to the nearest natural, a half to the even one. -/
def roundDiv (num den : Nat) : Nat :=
  let quotient := num / den
  let twice := 2 * (num % den)
  if den < twice ∨ twice = den ∧ quotient % 2 = 1 then quotient + 1 else quotient

theorem roundDiv_bounds {num den : Nat} (hden : 0 < den) :
    2 * num ≤ 2 * (roundDiv num den * den) + den ∧
      2 * (roundDiv num den * den) ≤ 2 * num + den := by
  have hsplit := Nat.div_add_mod num den
  have hmod := Nat.mod_lt num hden
  have hcomm : den * (num / den) = num / den * den := Nat.mul_comm _ _
  unfold roundDiv
  simp only
  split
  · rw [Nat.add_mul]
    omega
  · omega

/-- The quotient `num / den` divided by a power of two, as a numerator and a
denominator. -/
def scaled (num den : Nat) (exponent : Int) : Nat × Nat :=
  if 0 ≤ exponent then (num, den * twoTo exponent.toNat) else (num * twoTo (-exponent).toNat, den)

/-- The exponent at which the quotient has a significand of 53 bits, or the least one of
the format. -/
def exponentFor (num den : Nat) : Int :=
  let guess : Int := (num.log2 : Int) - den.log2 - 53
  let (n, d) := scaled num den guess
  max (-1074) (if twoTo 53 ≤ n / d then guess + 1 else guess)

/-- The bits, without a sign, of the number nearest to a quotient. -/
def nearestBits (num den : Nat) : Nat :=
  if num = 0 then 0
  else
    let exponent := exponentFor num den
    let (n, d) := scaled num den exponent
    min infinityBits ((exponent + 1074).toNat * twoTo 52 + roundDiv n d)

/-- The number nearest to `± num / den`. -/
def nearest (negative : Bool) (num den : Nat) : Binary64 :=
  ofMagnitude negative (nearestBits num den)

def ofNat (n : Nat) : Binary64 :=
  nearest false n 1

/-- The absolute value of a finite number as a quotient of naturals. -/
def ratio (x : Binary64) : Nat × Nat :=
  let (significand, exponent) := x.parts
  if 0 ≤ exponent then (significand * twoTo exponent.toNat, 1)
  else (significand, twoTo (-exponent).toNat)

def mul (x y : Binary64) : Binary64 :=
  let (a, b) := x.ratio
  let (c, d) := y.ratio
  nearest (x.isNegative != y.isNegative) (a * c) (b * d)

/-- The quotient of finite numbers; the divisor is not zero. -/
def div (x y : Binary64) : Binary64 :=
  let (a, b) := x.ratio
  let (c, d) := y.ratio
  nearest (x.isNegative != y.isNegative) (a * d) (b * c)

def negate (x : Binary64) : Binary64 :=
  ofMagnitude (!x.isNegative) x.magnitude

def hex (x : Binary64) : String :=
  let digits := (Nat.toDigits 16 x.bits.toNat).map Char.toLower
  String.ofList (List.replicate (16 - digits.length) '0' ++ digits)

end Binary64

end SceneLang
