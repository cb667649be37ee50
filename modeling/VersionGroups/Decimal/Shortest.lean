import VersionGroups.Decimal.Binary64

/-!
# The shortest decimal of a float

A float is written with the fewest decimal digits from which rounding gives the same float back; of
two candidates with that many digits the nearer one is taken.
-/

namespace VersionGroups

namespace Shortest

/-- The number of decimal digits of a whole number. -/
def width (n : Nat) : Nat := (Nat.toDigits 10 n).length

/-- Whether `a / b < c / d`. -/
def below (a b c d : Nat) : Bool := a * d < c * b

/-- The power of ten of the leading digit of a positive `num / den`. -/
def leading (num den : Nat) : Int :=
  if den ≤ num then (width (num / den) : Int) - 1
  else -(descend (Nat.log2 den + 2) 1)
where
  /-- The least `j` with `den ≤ num · 10 ^ j`, from `j` on. -/
  descend : Nat → Nat → Int
    | 0, j => j
    | fuel + 1, j => if den ≤ num * Nat.pow 10 j then j else descend fuel (j + 1)

/-- `units · 10 ^ power` as a numerator and a denominator. -/
def decimalRatio (units : Nat) (power : Int) : Nat × Nat :=
  match power with
  | .ofNat k => (units * Nat.pow 10 k, 1)
  | .negSucc k => (units, Nat.pow 10 (k + 1))

/-- The interval of numbers that round to a float: its ends, and whether they belong to it. -/
structure Basin where
  lower : Nat × Nat
  upper : Nat × Nat
  closed : Bool

def Basin.ofFloat (x : Binary64) : Basin :=
  let narrow :=
    x.mantissa = Nat.pow 2 (Binary64.precision - 1) ∧ Binary64.leastExponent < x.exponent
  { lower :=
      if narrow then Binary64.scale (4 * x.mantissa - 1) 1 (x.exponent - 2)
      else Binary64.scale (2 * x.mantissa - 1) 1 (x.exponent - 1)
    upper := Binary64.scale (2 * x.mantissa + 1) 1 (x.exponent - 1)
    closed := x.mantissa % 2 = 0 }

def Basin.holds (b : Basin) (num den : Nat) : Bool :=
  if b.closed then
    !below num den b.lower.1 b.lower.2 && !below b.upper.1 b.upper.2 num den
  else below b.lower.1 b.lower.2 num den && below num den b.upper.1 b.upper.2

/-- The decimal of a given number of digits that lies in the basin and is nearest to the float. -/
def onGrid? (x : Binary64) (count : Nat) : Option (Nat × Int) :=
  let (num, den) := x.ratio
  let power := leading num den - count + 1
  let (unitNum, unitDen) := decimalRatio 1 power
  let down := num * unitDen / (den * unitNum)
  let rest := num * unitDen % (den * unitNum)
  let basin := Basin.ofFloat x
  let fits (units : Nat) : Bool :=
    let (n, d) := decimalRatio units power
    basin.holds n d
  let upFirst := den * unitNum < 2 * rest ∨ (den * unitNum = 2 * rest ∧ down % 2 = 1)
  let first := if upFirst then down + 1 else down
  let second := if upFirst then down else down + 1
  if fits first then some (first, power)
  else if fits second then some (second, power)
  else none

/-- The first grid with a hit, from `count` digits on. -/
def search (x : Binary64) : Nat → Nat → Nat × Int
  | 0, count => (onGrid? x count).getD (x.mantissa, 0)
  | fuel + 1, count =>
      match onGrid? x count with
      | some hit => hit
      | none => search x fuel (count + 1)

/-- Drops zeros at the end, counting them in the power. -/
def stripZeros : Nat → Nat → Int → Nat × Int
  | 0, units, power => (units, power)
  | fuel + 1, units, power =>
      if units ≠ 0 ∧ units % 10 = 0 then stripZeros fuel (units / 10) (power + 1)
      else (units, power)

end Shortest

/-- The shortest decimal `units · 10 ^ power` of the absolute value of a float. -/
def Binary64.shortest (x : Binary64) : Nat × Int :=
  if x.isZero then (0, 0)
  else
    let (units, power) := Shortest.search x 17 1
    Shortest.stripZeros 20 units power

end VersionGroups
