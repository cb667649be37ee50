import VersionGroups.Decimal.Shortest

/-!
# Rounded decimals

The decimal texts of a ratio with a given number of digits after the point: with all digits before
the point, with a single one and a power of ten, or in the shorter of the two forms. A tie goes to
the even neighbour.
-/

namespace VersionGroups

namespace Decimal

/-- The multiple of a power of ten that is nearest to `num / den`, counted in that power. -/
def unitsAt (num den : Nat) (power : Int) : Nat :=
  if power < 0 then Binary64.roundQuotient (num * Nat.pow 10 (-power).toNat) den
  else Binary64.roundQuotient num (den * Nat.pow 10 power.toNat)

/-- Digits with a point before the last ones; there is no point before none. -/
def pointed (places : Nat) (digits : List Char) : List Char :=
  let digits := List.replicate (places + 1 - digits.length) '0' ++ digits
  let whole := digits.take (digits.length - places)
  if places = 0 then whole else whole ++ '.' :: digits.drop whole.length

/-- The text with all digits before the point. -/
def fixed (places num den : Nat) : List Char :=
  pointed places (Nat.toDigits 10 (unitsAt num den (-places)))

/-- The digits of the form with a power of ten, and the power. -/
def leadingDigits (places num den : Nat) : List Char × Int :=
  if num = 0 then (List.replicate (places + 1) '0', 0)
  else
    let power := Shortest.leading num den
    let digits := Nat.toDigits 10 (unitsAt num den (power - places))
    if places + 1 < digits.length then (digits.dropLast, power + 1) else (digits, power)

/-- A power of ten behind a mark, with at least two digits. -/
def powerText (power : Int) : List Char :=
  let digits := Nat.toDigits 10 power.natAbs
  'e' :: (if power < 0 then '-' else '+') ::
    (List.replicate (2 - digits.length) '0' ++ digits)

/-- The text with a power of ten. -/
def scientific (places num den : Nat) : List Char :=
  let (digits, power) := leadingDigits places num den
  pointed places digits ++ powerText power

/-- The text without the zeros at the end of its places. -/
def withoutZeros (cs : List Char) : List Char :=
  if cs.contains '.' then
    let cs := cs.reverse.dropWhile (· == '0')
    (if cs.head? = some '.' then cs.tail else cs).reverse
  else cs

/-- The text of some digits in the shorter form; zeros at the end are kept if they are asked for. -/
def general (keepsZeros : Bool) (count num den : Nat) : List Char :=
  let trim (cs : List Char) : List Char := if keepsZeros then cs else withoutZeros cs
  let places := count - 1
  let (digits, power) := leadingDigits places num den
  if -4 ≤ power ∧ power ≤ (places : Int) then
    trim (fixed ((places : Int) - power).toNat num den)
  else trim (pointed places digits) ++ powerText power

end Decimal

end VersionGroups
