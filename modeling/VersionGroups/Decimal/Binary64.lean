/-!
# Finite binary floating-point numbers

A finite 64-bit float as an exact value: a sign, a mantissa of at most 53 bits and a power of two.
Every operation computes exactly and rounds once, to the nearest float and on a tie to the even
mantissa; a result beyond the largest float is no number here.
-/

namespace VersionGroups

/-- The number `± mantissa · 2 ^ exponent`. In normal form the mantissa has 53 bits, or fewer when
the exponent is the least one. -/
structure Binary64 where
  negative : Bool
  mantissa : Nat
  exponent : Int
  deriving DecidableEq, Repr

namespace Binary64

def precision : Nat := 53

def leastExponent : Int := -1074

def greatestExponent : Int := 971

def zero (negative : Bool) : Binary64 := ⟨negative, 0, leastExponent⟩

def isZero (x : Binary64) : Bool := x.mantissa == 0

/-- The same number with the other sign. -/
def negate (x : Binary64) : Binary64 := { x with negative := !x.negative }

/-- The quotient as a whole number, a tie going to the even one. -/
def roundQuotient (num den : Nat) : Nat :=
  let q := num / den
  let twice := 2 * (num % den)
  if twice < den then q
  else if den < twice then q + 1
  else if q % 2 = 0 then q else q + 1

/-- Multiplies the numerator or the denominator by a power of two, for `num / den · 2 ^ shift`. -/
def scale (num den : Nat) (shift : Int) : Nat × Nat :=
  match shift with
  | .ofNat k => (num * Nat.pow 2 k, den)
  | .negSucc k => (num, den * Nat.pow 2 (k + 1))

/-- The greatest power of two that is at most `num / den`. -/
def magnitude (num den : Nat) : Int :=
  let guess : Int := (Nat.log2 num : Int) - (Nat.log2 den : Int)
  let (n, d) := scale num den (-guess)
  if d ≤ n then guess else guess - 1

/-- The float nearest to `± num / den`, unless it is too large. -/
def ofRatio? (negative : Bool) (num den : Nat) : Option Binary64 :=
  if num = 0 then some (zero negative)
  else
    let exponent := max (magnitude num den - (precision - 1 : Nat)) leastExponent
    let (n, d) := scale num den (-exponent)
    let mantissa := roundQuotient n d
    let (mantissa, exponent) :=
      if mantissa = Nat.pow 2 precision then (Nat.pow 2 (precision - 1), exponent + 1)
      else (mantissa, exponent)
    if greatestExponent < exponent then none else some ⟨negative, mantissa, exponent⟩

/-- The float nearest to a whole number. -/
def ofNat? (n : Nat) : Option Binary64 := ofRatio? false n 1

/-- The numerator and denominator of the absolute value. -/
def ratio (x : Binary64) : Nat × Nat := scale x.mantissa 1 x.exponent

def mul? (x y : Binary64) : Option Binary64 :=
  let (a, b) := x.ratio
  let (c, d) := y.ratio
  ofRatio? (x.negative != y.negative) (a * c) (b * d)

/-- The rounded quotient; a division by zero has none. -/
def div? (x y : Binary64) : Option Binary64 :=
  if y.mantissa = 0 then none
  else
    let (a, b) := x.ratio
    let (c, d) := y.ratio
    ofRatio? (x.negative != y.negative) (a * d) (b * c)

/-- The greatest power of ten that is a float. -/
def greatestTen : Nat := 308

/-- `x · 10 ^ exponent` with the power rounded before the product. An exponent below the powers of
ten that are floats is used up in several divisions. -/
def timesTen? (x : Binary64) (exponent : Int) : Option Binary64 :=
  if 0 ≤ exponent then
    if exponent.toNat ≤ greatestTen then (ofNat? (Nat.pow 10 exponent.toNat)).bind (mul? x)
    else if x.isZero then some x else none
  else descend (exponent.natAbs / greatestTen + 1) x exponent.natAbs
where
  /-- Divides by a power of ten, the largest usable one at a time. -/
  descend : Nat → Binary64 → Nat → Option Binary64
    | 0, x, _ => some x
    | fuel + 1, x, power =>
        if power ≤ greatestTen then (ofNat? (Nat.pow 10 power)).bind (div? x)
        else if x.isZero then some x
        else
          (ofNat? (Nat.pow 10 greatestTen)).bind fun ten =>
            (div? x ten).bind fun y => descend fuel y (power - greatestTen)

/-- Whether two floats are the same number; the two zeros are. -/
def sameValue (x y : Binary64) : Bool :=
  (x.isZero && y.isZero) || x == y

theorem sameValue_refl (x : Binary64) : x.sameValue x = true := by
  simp [sameValue]

theorem sameValue_symm {x y : Binary64} (h : x.sameValue y = true) : y.sameValue x = true := by
  simp only [sameValue, Bool.or_eq_true, Bool.and_eq_true, beq_iff_eq] at h ⊢
  rcases h with ⟨hx, hy⟩ | h
  · exact Or.inl ⟨hy, hx⟩
  · exact Or.inr h.symm

theorem sameValue_trans {x y z : Binary64} (h : x.sameValue y = true)
    (k : y.sameValue z = true) : x.sameValue z = true := by
  simp only [sameValue, Bool.or_eq_true, Bool.and_eq_true, beq_iff_eq] at h k ⊢
  rcases h with ⟨hx, hy⟩ | rfl
  · rcases k with ⟨_, hz⟩ | rfl
    · exact Or.inl ⟨hx, hz⟩
    · exact Or.inl ⟨hx, hy⟩
  · exact k

end Binary64

end VersionGroups
