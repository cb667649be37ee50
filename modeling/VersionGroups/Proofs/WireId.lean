import Mathlib.Data.List.Forall2
import Mathlib.Data.Nat.Digits.Defs
import VersionGroups.WireId

/-!
# The keys of wire ids

A hexadecimal numeral is one or more digits of either case, the first of which weighs most. A key is
a numeral with or without a mark in front, and it stands for its value if that fits into 32 bits. No
mark is part of a numeral, since `x` is not a digit, so a key tells where its digits begin. Zeros in
front do not change a value, which is why the text of a wire id, padded to two digits, is a key of
the same wire id.
-/
namespace VersionGroups

/-- A hexadecimal digit, with a letter in either case, and its value. -/
def IsHexDigit (c : Char) (d : Nat) : Prop :=
  d < 16 ∧ (c = Nat.digitChar d ∨ c = (Nat.digitChar d).toUpper)

instance (c : Char) (d : Nat) : Decidable (IsHexDigit c d) := inferInstanceAs (Decidable (_ ∧ _))

/-- One or more hexadecimal digits and their value in base 16. -/
def IsHexNumeral (cs : List Char) (n : Nat) : Prop :=
  cs ≠ [] ∧ ∃ ds, List.Forall₂ IsHexDigit cs ds ∧ Nat.ofDigits 16 ds.reverse = n

/-- A numeral behind an optional mark of hexadecimal numbers. -/
def WireId.IsKey (key : String) (n : Nat) : Prop :=
  ∃ mark ∈ ["", "0x", "0X"], ∃ digits,
    key.toList = mark.toList ++ digits ∧ IsHexNumeral digits n

variable {c : Char} {cs : List Char} {d m n : Nat} {key : String}

theorem hexDigit?_digitChar : ∀ d < 16,
    hexDigit? d.digitChar = some d ∧ hexDigit? d.digitChar.toUpper = some d := by
  decide

theorem isHexDigit_ofNat :
    ∀ n < 103, ∀ d ∈ hexDigit? (Char.ofNat n), IsHexDigit (Char.ofNat n) d := by
  decide

/-- No character after the letter `f` is read as a digit. -/
theorem toNat_lt_of_hexDigit? (h : hexDigit? c = some d) : c.toNat < 103 := by
  have hle : ∀ last : Char, c ≤ last → c.toNat ≤ last.toNat := fun _ => Char.le_def.mp
  rw [hexDigit?] at h
  split at h
  · rename_i hrange
    exact Nat.lt_of_le_of_lt (hle '9' hrange.2) (by decide)
  · split at h
    · rename_i hrange
      exact Nat.lt_of_le_of_lt (hle 'f' hrange.2) (by decide)
    · split at h
      · rename_i hrange
        exact Nat.lt_of_le_of_lt (hle 'F' hrange.2) (by decide)
      · cases h

theorem hexDigit?_eq_some_iff : hexDigit? c = some d ↔ IsHexDigit c d := by
  constructor
  · intro h
    have hdigit := isHexDigit_ofNat c.toNat (toNat_lt_of_hexDigit? h)
    rw [Char.ofNat_toNat] at hdigit
    exact hdigit d h
  · rintro ⟨hlt, rfl | rfl⟩
    · exact (hexDigit?_digitChar d hlt).1
    · exact (hexDigit?_digitChar d hlt).2

/-- Reading on multiplies what was read by 16 for each digit. -/
theorem hexDigits?_eq_some_iff : hexDigits? m cs = some n ↔
    ∃ ds, List.Forall₂ IsHexDigit cs ds ∧ m * 16 ^ ds.length + Nat.ofDigits 16 ds.reverse = n := by
  induction cs generalizing m with
  | nil => simp [hexDigits?]
  | cons c rest ih =>
      rw [hexDigits?, Option.bind_eq_some_iff]
      constructor
      · rintro ⟨d, hd, hrest⟩
        obtain ⟨ds, hds, rfl⟩ := ih.mp hrest
        refine ⟨d :: ds, .cons (hexDigit?_eq_some_iff.mp hd) hds, ?_⟩
        rw [Nat.ofDigits_reverse_cons, List.length_cons]
        ring
      · rintro ⟨_, hall, rfl⟩
        cases hall with
        | @cons _ d _ ds hd hds =>
            refine ⟨d, hexDigit?_eq_some_iff.mpr hd, ih.mpr ⟨ds, hds, ?_⟩⟩
            rw [Nat.ofDigits_reverse_cons, List.length_cons]
            ring

theorem hexValue?_eq_some_iff : hexValue? cs = some n ↔ IsHexNumeral cs n := by
  rw [hexValue?, IsHexNumeral]
  cases cs with
  | nil => simp
  | cons c rest => simp [hexDigits?_eq_some_iff]

theorem IsHexNumeral.push (h : IsHexNumeral cs n) (hd : IsHexDigit c d) :
    IsHexNumeral (cs ++ [c]) (16 * n + d) := by
  obtain ⟨-, ds, hds, rfl⟩ := h
  refine ⟨by simp, ds ++ [d], List.rel_append hds (.cons hd .nil), ?_⟩
  rw [List.reverse_append, List.reverse_singleton, List.singleton_append, Nat.ofDigits_cons,
    Nat.add_comm]

theorem IsHexNumeral.zero_cons (h : IsHexNumeral cs n) : IsHexNumeral ('0' :: cs) n := by
  obtain ⟨-, ds, hds, rfl⟩ := h
  refine ⟨by simp, 0 :: ds, .cons (by decide) hds, ?_⟩
  rw [Nat.ofDigits_reverse_cons, Nat.mul_zero, Nat.add_zero]

theorem isHexNumeral_toDigits (n : Nat) : IsHexNumeral (Nat.toDigits 16 n) n := by
  induction n using Nat.strongRecOn with
  | ind n ih =>
      by_cases hlt : n < 16
      · rw [Nat.toDigits_of_lt_base hlt]
        exact ⟨by simp, [n], .cons ⟨hlt, .inl rfl⟩ .nil, by simp⟩
      · have hdigit : IsHexDigit (n % 16).digitChar (n % 16) :=
          ⟨Nat.mod_lt n (by decide), .inl rfl⟩
        rw [Nat.toDigits_of_base_le (by decide) (Nat.not_lt.mp hlt)]
        have hpush := (ih (n / 16) (by omega)).push hdigit
        rwa [Nat.div_add_mod] at hpush

theorem isHexNumeral_hexPair (n : Nat) : IsHexNumeral (hexPair n) n := by
  rw [hexPair]
  generalize 2 - (Nat.toDigits 16 n).length = zeros
  induction zeros with
  | zero => exact isHexNumeral_toDigits n
  | succ zeros ih => exact ih.zero_cons

theorem IsHexNumeral.not_mark {mark : Char} (hmark : mark = 'x' ∨ mark = 'X') :
    ¬ IsHexNumeral (c :: mark :: cs) n := by
  rintro ⟨-, _, hall, -⟩
  cases hall with
  | cons _ hrest =>
      cases hrest with
      | cons hx _ =>
          have hread := hexDigit?_eq_some_iff.mpr hx
          rcases hmark with rfl | rfl <;> cases hread

namespace WireId

theorem digitsOf_of_isHexNumeral (h : IsHexNumeral cs n) : digitsOf cs = cs := by
  rw [digitsOf.eq_def]
  split
  · exact absurd h (IsHexNumeral.not_mark (.inl rfl))
  · exact absurd h (IsHexNumeral.not_mark (.inr rfl))
  · rfl

/-- The digits of a key are what is left after its mark. -/
theorem isKey_iff : IsKey key n ↔ IsHexNumeral (digitsOf key.toList) n := by
  constructor
  · rintro ⟨mark, hmark, digits, hkey, hdigits⟩
    rw [hkey]
    simp only [List.mem_cons, List.not_mem_nil, or_false] at hmark
    rcases hmark with rfl | rfl | rfl
    · exact (digitsOf_of_isHexNumeral hdigits).symm ▸ hdigits
    · exact hdigits
    · exact hdigits
  · intro h
    rw [digitsOf.eq_def] at h
    split at h
    · rename_i rest hkey
      exact ⟨"0x", by simp, rest, hkey, h⟩
    · rename_i rest hkey
      exact ⟨"0X", by simp, rest, hkey, h⟩
    · exact ⟨"", by simp, key.toList, rfl, h⟩

theorem map_value_ofNat? : (ofNat? m).map WireId.value = some n ↔ n < 2 ^ 32 ∧ m = n := by
  rw [ofNat?]
  split
  · rename_i hlt
    constructor
    · intro h
      obtain rfl : m = n := Option.some.inj h
      exact ⟨hlt, rfl⟩
    · rintro ⟨-, rfl⟩
      rfl
  · rename_i hge
    constructor
    · intro h
      cases h
    · rintro ⟨hlt, rfl⟩
      exact absurd hlt hge

theorem map_value_ofKey? : (ofKey? key).map WireId.value = some n ↔ n < 2 ^ 32 ∧ IsKey key n := by
  simp only [ofKey?, Option.map_bind, Option.bind_eq_some_iff, Function.comp_apply,
    map_value_ofNat?, hexValue?_eq_some_iff, isKey_iff]
  constructor
  · rintro ⟨m, hm, hlt, rfl⟩
    exact ⟨hlt, hm⟩
  · rintro ⟨hlt, hn⟩
    exact ⟨n, hn, hlt, rfl⟩

theorem IsKey.unique (h : IsKey key m) (h' : IsKey key n) : m = n := by
  rw [isKey_iff, ← hexValue?_eq_some_iff] at h h'
  exact Option.some.inj (h.symm.trans h')

theorem ofKey?_eq_none_iff : ofKey? key = none ↔ ¬ ∃ n < 2 ^ 32, IsKey key n := by
  rw [← Option.map_eq_none_iff (f := WireId.value), Option.eq_none_iff_forall_ne_some]
  simp only [ne_eq, map_value_ofKey?, not_exists, not_and]

/-- Exactly the keys with a value below 2 ^ 32 stand for wire ids, and each for that with its value:
no key does whose value is too large, and no text with two marks. The text of a wire id stands for
it. -/
theorem ofKey?_exact :
    (∀ key n, (ofKey? key).map WireId.value = some n ↔ n < 2 ^ 32 ∧ IsKey key n) ∧
    (∀ key, ofKey? key = none ↔ ¬ ∃ n < 2 ^ 32, IsKey key n) ∧
    (∀ key n, IsKey key n → 2 ^ 32 ≤ n → ofKey? key = none) ∧
    (∀ mark ∈ ["0x", "0X"], ∀ again ∈ ["0x", "0X"], ∀ rest,
      ofKey? (mark ++ again ++ rest) = none) ∧
    ∀ id : WireId, ofKey? id.text = some id := by
  refine ⟨fun _ _ => map_value_ofKey?, fun _ => ofKey?_eq_none_iff, fun key n hkey hn => ?_,
    fun mark hmark again hagain rest => ?_, fun id => ?_⟩
  · rw [ofKey?_eq_none_iff]
    rintro ⟨m, hm, hkey'⟩
    rw [hkey.unique hkey'] at hn
    exact Nat.not_lt.mpr hn hm
  · rw [ofKey?_eq_none_iff]
    rintro ⟨n, -, hkey⟩
    rw [isKey_iff] at hkey
    simp only [List.mem_cons, List.not_mem_nil, or_false] at hmark hagain
    have hdigits : digitsOf (mark ++ again ++ rest).toList = again.toList ++ rest.toList := by
      rw [String.toList_append, String.toList_append]
      rcases hmark with rfl | rfl <;> rfl
    rw [hdigits] at hkey
    rcases hagain with rfl | rfl
    · exact IsHexNumeral.not_mark (.inl rfl) hkey
    · exact IsHexNumeral.not_mark (.inr rfl) hkey
  · have hkey : IsKey id.text id.value :=
      ⟨"0x", by simp, hexPair id.value, String.toList_ofList, isHexNumeral_hexPair id.value⟩
    obtain ⟨found, hfound, hvalue⟩ :=
      Option.map_eq_some_iff.mp (map_value_ofKey?.mpr ⟨id.value_lt, hkey⟩)
    rw [hfound, WireId.ext hvalue]

/-- The last wire id, the key after it, and a key with two marks. -/
theorem ofKey?_exact_last :
    (ofKey? "0X00fFffFFff").map WireId.value = some (2 ^ 32 - 1) ∧ ofKey? "100000000" = none ∧
      ofKey? "0x0X1" = none := by
  obtain ⟨hread, -, hlarge, hmarks, -⟩ := ofKey?_exact
  have hlast : IsKey "0X00fFffFFff" (2 ^ 32 - 1) :=
    isKey_iff.mpr (hexValue?_eq_some_iff.mp (by decide))
  have hnext : IsKey "100000000" (2 ^ 32) :=
    isKey_iff.mpr (hexValue?_eq_some_iff.mp (by decide))
  exact ⟨(hread _ _).mpr ⟨by decide, hlast⟩, hlarge _ _ hnext (by decide),
    hmarks "0x" (by simp) "0X" (by simp) "1"⟩

end WireId

end VersionGroups
