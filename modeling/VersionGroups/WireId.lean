import VersionGroups.Text.Hex

/-!
# Versions and wire ids

A protocol version is a number; a wire id is the 32-bit number that stands for a packet on the wire.
Documents write wire ids in hexadecimal, as one or more digits of either case with an optional `0x`
or `0X` in front.
-/

namespace VersionGroups

/-- The number of a protocol version. -/
abbrev Version := Nat

/-- A 32-bit packet number. -/
structure WireId where
  value : Nat
  value_lt : value < UInt32.size
  deriving DecidableEq, Repr

namespace WireId

/-- The wire id with a given number. -/
def ofNat? (n : Nat) : Option WireId := if h : n < UInt32.size then some ⟨n, h⟩ else none

@[ext] theorem ext {a b : WireId} (h : a.value = b.value) : a = b := by
  cases a; cases b; cases h; rfl

instance : Ord WireId := ⟨compareOn WireId.value⟩

theorem compare_def (a b : WireId) : compare a b = compare a.value b.value := rfl

instance : Std.TransOrd WireId := inferInstanceAs (Std.TransCmp (compareOn WireId.value))

instance : Std.LawfulEqOrd WireId where
  compare_self {a} := show compare a.value a.value = .eq from Std.ReflCmp.compare_self
  eq_of_compare {a b} h :=
    ext (Std.LawfulEqCmp.eq_of_compare (show compare a.value b.value = .eq from h))

/-- The digits of a key: what follows the mark of a hexadecimal number, if there is one. -/
def digitsOf : List Char → List Char
  | '0' :: 'x' :: rest => rest
  | '0' :: 'X' :: rest => rest
  | cs => cs

/-- The wire id that a key of an id mapping stands for. -/
def ofKey? (key : String) : Option WireId := (hexValue? (digitsOf key.toList)).bind ofNat?

/-- The number `n` in hexadecimal, with at least two digits. -/
def hexText (n : Nat) : String := String.ofList ('0' :: 'x' :: hexPair n)

/-- The text of a wire id. -/
def text (id : WireId) : String := hexText id.value

end WireId

end VersionGroups
