/-!
# Hexadecimal numbers

Digits of either case are read; numbers are written with lower-case digits.
-/

namespace VersionGroups

/-- The value of a hexadecimal digit. -/
def hexDigit? (c : Char) : Option Nat :=
  if '0' ≤ c ∧ c ≤ '9' then some (c.toNat - '0'.toNat)
  else if 'a' ≤ c ∧ c ≤ 'f' then some (c.toNat - 'a'.toNat + 10)
  else if 'A' ≤ c ∧ c ≤ 'F' then some (c.toNat - 'A'.toNat + 10)
  else none

/-- The value of digits that follow a number already read. -/
def hexDigits? (read : Nat) : List Char → Option Nat
  | [] => some read
  | c :: rest => (hexDigit? c).bind fun d => hexDigits? (read * 16 + d) rest

/-- The value of one or more digits. -/
def hexValue? (cs : List Char) : Option Nat :=
  if cs.isEmpty then none else hexDigits? 0 cs

/-- The digits of a number, with a zero in front of a single digit. -/
def hexPair (n : Nat) : List Char :=
  let digits := Nat.toDigits 16 n
  List.replicate (2 - digits.length) '0' ++ digits

end VersionGroups
