/-!
# Reading UTF-8

Bytes are read as characters. Where they are no valid sequence, the longest piece that could have
begun one counts as a single mistake and reading goes on after it; a lenient reading puts the
replacement character in its place. Shortened forms, surrogates and numbers beyond the last code
point are mistakes.
-/

namespace VersionGroups

namespace Utf8

/-- A sequence that has begun: how many bytes it lacks, the range of the next one, and the number
read so far. -/
structure Pending where
  missing : Nat
  low : Nat
  high : Nat
  number : Nat
  deriving DecidableEq, Repr

/-- What a byte is at the beginning of a sequence. -/
inductive Opening where
  | whole (c : Char)
  | part (pending : Pending)
  | mistake
  deriving DecidableEq, Repr

/-- The opening that a byte makes. The range of a second byte excludes shortened forms, surrogates
and numbers that are too large. -/
def opening (byte : Nat) : Opening :=
  if byte < 0x80 then .whole (Char.ofNat byte)
  else if byte < 0xc2 then .mistake
  else if byte < 0xe0 then .part ⟨1, 0x80, 0xbf, byte - 0xc0⟩
  else if byte = 0xe0 then .part ⟨2, 0xa0, 0xbf, 0⟩
  else if byte = 0xed then .part ⟨2, 0x80, 0x9f, 0xd⟩
  else if byte < 0xf0 then .part ⟨2, 0x80, 0xbf, byte - 0xe0⟩
  else if byte = 0xf0 then .part ⟨3, 0x90, 0xbf, 0⟩
  else if byte < 0xf4 then .part ⟨3, 0x80, 0xbf, byte - 0xf0⟩
  else if byte = 0xf4 then .part ⟨3, 0x80, 0x8f, 4⟩
  else .mistake

/-- The characters of bytes after a sequence that may have begun; `none` stands for a mistake. -/
def characters : Option Pending → List UInt8 → List (Option Char)
  | none, [] => []
  | some _, [] => [none]
  | none, byte :: rest =>
      match opening byte.toNat with
      | .whole c => some c :: characters none rest
      | .part pending => characters (some pending) rest
      | .mistake => none :: characters none rest
  | some pending, byte :: rest =>
      let b := byte.toNat
      if pending.low ≤ b ∧ b ≤ pending.high then
        let number := pending.number * 0x40 + (b - 0x80)
        if pending.missing ≤ 1 then some (Char.ofNat number) :: characters none rest
        else characters (some ⟨pending.missing - 1, 0x80, 0xbf, number⟩) rest
      else
        none ::
          match opening b with
          | .whole c => some c :: characters none rest
          | .part next => characters (some next) rest
          | .mistake => none :: characters none rest

/-- The character that stands for a mistake. -/
def replacement : Char := Char.ofNat 0xfffd

/-- The text of bytes, with a replacement character for each mistake. -/
def lenient (bytes : ByteArray) : String :=
  String.ofList ((characters none bytes.toList).map (·.getD replacement))

end Utf8

end VersionGroups
