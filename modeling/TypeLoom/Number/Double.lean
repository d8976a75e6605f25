/-! Binary floating-point numbers of 64 bits, by their bits. A finite number is an integer
significand times a power of two; all questions about it are answered in exact arithmetic. -/
namespace TypeLoom

structure Double where
  bits : UInt64
deriving DecidableEq, Repr

namespace Double

def twoTo (n : Nat) : Nat := Nat.pow 2 n
def tenTo (n : Nat) : Nat := Nat.pow 10 n

/-- The bit of the sign. -/
def signBit : Nat := twoTo 63

/-- The leading bit of a significand, which is not stored, and the first bit of a stored exponent.
-/
def leadingBit : Nat := twoTo 52

/-- Exponent of the smallest positive number. -/
def minExponent : Int := -1074

def negative (x : Double) : Bool :=
  x.bits.toNat / signBit == 1

/-- The bits without the sign. -/
def magnitude (x : Double) : Nat :=
  x.bits.toNat % signBit

/-- Magnitude of infinity. Larger magnitudes are no numbers. -/
def infiniteMagnitude : Nat := 2047 * leadingBit

def ofParts (negative : Bool) (magnitude : Nat) : Double :=
  ⟨UInt64.ofNat (magnitude + if negative then signBit else 0)⟩

def nan : Double := ⟨0x7ff8000000000000⟩
def infinity : Double := ofParts false infiniteMagnitude
def zero : Double := ⟨0⟩

def isNaN (x : Double) : Bool := infiniteMagnitude < x.magnitude
def isInfinite (x : Double) : Bool := x.magnitude == infiniteMagnitude
def isFinite (x : Double) : Bool := x.magnitude < infiniteMagnitude

def neg (x : Double) : Double :=
  ofParts (!x.negative) x.magnitude

/-- Significand of a finite number: with the leading bit that is not stored, if there is one. -/
def significand (x : Double) : Nat :=
  let fraction := x.magnitude % leadingBit
  if x.magnitude / leadingBit = 0 then fraction else fraction + leadingBit

/-- Exponent of a finite number, so that its size is `significand * 2 ^ exponent`. -/
def exponent (x : Double) : Int :=
  minExponent + ((x.magnitude / leadingBit - 1 : Nat) : Int)

/-- Size of a finite number as a quotient. -/
def ratio (x : Double) : Nat × Nat :=
  (x.significand * twoTo x.exponent.toNat, twoTo (-x.exponent).toNat)

/-- The integer that a finite number is, if it is one. -/
def integer? (x : Double) : Option Int :=
  let (num, den) := x.ratio
  if x.isFinite && num % den == 0 then
    let size : Int := (num / den : Nat)
    some (if x.negative then -size else size)
  else none

/-- Quotient to the nearest integer, half to even. -/
def roundDiv (num den : Nat) : Nat :=
  let floor := num / den
  let twice := 2 * (num % den)
  if twice < den || (twice == den && floor % 2 == 0) then floor else floor + 1

/-- Exponent that gives `num / den` a significand of 53 bits, or the least one. -/
def fittingExponent (num den : Nat) : Int :=
  let guess : Int := (num.log2 : Int) - den.log2 - 52
  let fits := den * twoTo (52 + guess).toNat ≤ num * twoTo (-(52 + guess)).toNat
  max minExponent (if fits then guess else guess - 1)

/-- Magnitude of the number nearest to `num / den`, half to even; too large is infinite. A
significand rounded up to 54 bits carries into the exponent by itself. -/
def nearestMagnitude (num den : Nat) : Nat :=
  if num = 0 then 0
  else
    let e := fittingExponent num den
    let rounded := roundDiv (num * twoTo (-e).toNat) (den * twoTo e.toNat)
    min infiniteMagnitude ((e - minExponent).toNat * leadingBit + rounded)

def nearest (negative : Bool) (num den : Nat) : Double :=
  ofParts negative (nearestMagnitude num den)

def ofInt (n : Int) : Double :=
  nearest (n < 0) n.natAbs 1

/-- Product of finite numbers. -/
def mul (x y : Double) : Double :=
  let (a, b) := x.ratio
  let (c, d) := y.ratio
  nearest (x.negative != y.negative) (a * c) (b * d)

/-- Quotient of finite numbers, the second not zero. -/
def div (x y : Double) : Double :=
  let (a, b) := x.ratio
  let (c, d) := y.ratio
  nearest (x.negative != y.negative) (a * d) (b * c)

/-- Number of decimal digits. -/
def digitCount (n : Nat) : Nat :=
  (Nat.toDigits 10 n).length

/-- The number nearest to `digits * 10 ^ scale`. Sizes far outside the range are decided by the
number of digits, without the power. -/
def ofDecimal (negative : Bool) (digits : Nat) (scale : Int) : Double :=
  let top := (digitCount digits : Int) + scale
  if digits = 0 ∨ top < -400 then ofParts negative 0
  else if 400 < top then ofParts negative infiniteMagnitude
  else nearest negative (digits * tenTo scale.toNat) (tenTo (-scale).toNat)

end Double

end TypeLoom
