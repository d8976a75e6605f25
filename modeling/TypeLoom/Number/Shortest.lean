import TypeLoom.Number.Double

/-! The shortest decimal of a number: of all decimals that read back as the number one on the
coarsest grid of powers of ten, and of two such the nearer. It is always written positionally. -/
namespace TypeLoom.Double

/-- The decimal `digits * 10 ^ scale`. -/
structure Decimal where
  digits : Nat
  scale : Int
deriving DecidableEq, Repr

/-- The quotients that read back as one number, in units of `1 / den`. The ends count if the
significand is even. -/
structure Interval where
  low : Nat
  value : Nat
  high : Nat
  den : Nat
  closed : Bool

/-- Whether `num / den` lies in the interval. -/
def Interval.contains (i : Interval) (num den : Nat) : Bool :=
  let point := num * i.den
  if i.closed then i.low * den ≤ point && point ≤ i.high * den
  else i.low * den < point && point < i.high * den

/-- Half way to the neighbours on both sides. A power of two has its lower neighbour at half the
distance. -/
def interval (x : Double) : Interval :=
  let unit := twoTo x.exponent.toNat
  let value := 4 * x.significand * unit
  let narrow := x.significand == leadingBit && x.exponent != minExponent
  { low := value - if narrow then unit else 2 * unit
    value := value
    high := value + 2 * unit
    den := 4 * twoTo (-x.exponent).toNat
    closed := x.significand % 2 == 0 }

/-- The point of the grid `10 ^ scale` that stands for the interval, if one lies in it: of the two
grid points around the value the nearer, and the upper one if both are as near. -/
def Interval.onGrid? (i : Interval) (scale : Int) : Option Nat :=
  let grid := tenTo scale.toNat
  let parts := tenTo (-scale).toNat
  let num := i.value * parts
  let den := i.den * grid
  let floor := num / den
  let lower := i.contains (floor * grid) parts
  let upper := i.contains ((floor + 1) * grid) parts
  if upper && (!lower || den ≤ 2 * (num % den)) then some (floor + 1)
  else if lower then some floor
  else none

/-- The first grid that has a point in the interval, from `scale` downwards. The value itself lies
on the grid of scale -1074, so a long enough search finds one. -/
def Interval.search (i : Interval) : (steps : Nat) → (scale : Int) → Decimal
  | 0, scale => ⟨0, scale⟩
  | steps + 1, scale =>
    match i.onGrid? scale with
    | some digits => ⟨digits, scale⟩
    | none => i.search steps (scale - 1)

/-- Shortest decimal of a finite number other than zero. -/
def shortest (x : Double) : Decimal :=
  let i := x.interval
  let top := digitCount (i.high / i.den)
  i.search (top + 1076) top

/-- All digits before and after the point, without an exponent. -/
def Decimal.positional (d : Decimal) : List Char :=
  let digits := Nat.toDigits 10 d.digits
  let places := (-d.scale).toNat
  if places = 0 then digits ++ List.replicate d.scale.toNat '0'
  else if places < digits.length then
    digits.take (digits.length - places) ++ '.' :: digits.drop (digits.length - places)
  else ['0', '.'] ++ List.replicate (places - digits.length) '0' ++ digits

/-- The number as text. -/
def text (x : Double) : String :=
  if x.isNaN then "NaN"
  else
    let size := if x.isInfinite then "inf"
      else if x.magnitude = 0 then "0"
      else String.ofList x.shortest.positional
    if x.negative then "-" ++ size else size

end TypeLoom.Double
