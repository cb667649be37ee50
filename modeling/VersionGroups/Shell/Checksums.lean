import VersionGroups.Manifest.Digest
import VersionGroups.Shell.Program

/-!
# Checksums of files

Programs that put out a line for each file with a checksum of its bytes. A digest fills the message
up to blocks of 64 bytes and mixes them into a few chaining words; the cyclic checksum divides the
message, with its length behind it, by a polynomial.
-/

namespace VersionGroups

namespace Shell

/-! ## Digests -/

def rotateLeft (x n : UInt32) : UInt32 := (x <<< n) ||| (x >>> (32 - n))

/-- The little-endian words of bytes; bytes that do not fill a word are left out. -/
def littleWords : List UInt8 → List UInt32
  | a :: b :: c :: d :: rest => Digest.word d c b a :: littleWords rest
  | _ => []

def littleBytes (w : UInt32) : List UInt8 := (Digest.bigEndian 4 w.toNat).reverse

/-- A message with the mark, zeros and length that fill its last block; the length begins with its
lowest byte. -/
def littlePadded (message : List UInt8) : List UInt8 :=
  let padded := Digest.padded message
  padded.take (padded.length - 8) ++ (Digest.bigEndian 8 (8 * message.length)).reverse

def hexText (l : List UInt8) : String := String.ofList (l.flatMap fun b => hexPair b.toNat)

/-- Four chaining words. -/
structure Quad where
  a : UInt32
  b : UInt32
  c : UInt32
  d : UInt32

/-- The first 32 bits of the absolute values of the sines of the first 64 numbers. -/
def sineConstants : List UInt32 :=
  [0xd76aa478, 0xe8c7b756, 0x242070db, 0xc1bdceee, 0xf57c0faf, 0x4787c62a, 0xa8304613, 0xfd469501,
   0x698098d8, 0x8b44f7af, 0xffff5bb1, 0x895cd7be, 0x6b901122, 0xfd987193, 0xa679438e, 0x49b40821,
   0xf61e2562, 0xc040b340, 0x265e5a51, 0xe9b6c7aa, 0xd62f105d, 0x02441453, 0xd8a1e681, 0xe7d3fbc8,
   0x21e1cde6, 0xc33707d6, 0xf4d50d87, 0x455a14ed, 0xa9e3e905, 0xfcefa3f8, 0x676f02d9, 0x8d2a4c8a,
   0xfffa3942, 0x8771f681, 0x6d9d6122, 0xfde5380c, 0xa4beea44, 0x4bdecfa9, 0xf6bb4b60, 0xbebfbc70,
   0x289b7ec6, 0xeaa127fa, 0xd4ef3085, 0x04881d05, 0xd9d4d039, 0xe6db99e5, 0x1fa27cf8, 0xc4ac5665,
   0xf4292244, 0x432aff97, 0xab9423a7, 0xfc93a039, 0x655b59c3, 0x8f0ccc92, 0xffeff47d, 0x85845dd1,
   0x6fa87e4f, 0xfe2ce6e0, 0xa3014314, 0x4e0811a1, 0xf7537e82, 0xbd3af235, 0x2ad7d2bb, 0xeb86d391]

def quadRotations : List (List UInt32) :=
  [[7, 12, 17, 22], [5, 9, 14, 20], [4, 11, 16, 23], [6, 10, 15, 21]]

def quadRound (block : List UInt32) (s : Quad) (round : Nat × UInt32) : Quad :=
  let (i, constant) := round
  let kind := i / 16
  let (mixed, index) :=
    match kind with
    | 0 => ((s.b &&& s.c) ||| ((s.b ^^^ 0xffffffff) &&& s.d), i)
    | 1 => ((s.d &&& s.b) ||| ((s.d ^^^ 0xffffffff) &&& s.c), 5 * i + 1)
    | 2 => (s.b ^^^ s.c ^^^ s.d, 3 * i + 5)
    | _ => (s.c ^^^ (s.b ||| (s.d ^^^ 0xffffffff)), 7 * i)
  let sum := s.a + mixed + constant + block.getD (index % 16) 0
  let rotation := (quadRotations.getD kind []).getD (i % 4) 0
  ⟨s.d, s.b + rotateLeft sum rotation, s.b, s.c⟩

/-- Mixes blocks of sixteen words, as many as there are. -/
def quadAbsorb : Nat → Quad → List UInt32 → Quad
  | 0, s, _ => s
  | count + 1, s, ws =>
      let rounds := (List.range 64).zip sineConstants
      let t := rounds.foldl (quadRound (ws.take 16)) s
      quadAbsorb count ⟨s.a + t.a, s.b + t.b, s.c + t.c, s.d + t.d⟩ (ws.drop 16)

def quadDigest (message : List UInt8) : String :=
  let ws := littleWords (littlePadded message)
  let s := quadAbsorb (ws.length / 16) ⟨0x67452301, 0xefcdab89, 0x98badcfe, 0x10325476⟩ ws
  hexText ([s.a, s.b, s.c, s.d].flatMap littleBytes)

/-- Five chaining words. -/
structure Quint where
  a : UInt32
  b : UInt32
  c : UInt32
  d : UInt32
  e : UInt32

/-- The words of a schedule from a window of sixteen words on. -/
def quintSchedule : Nat → List UInt32 → List UInt32
  | 0, _ => []
  | count + 1, window =>
      let w (i : Nat) : UInt32 := window.getD i 0
      w 0 :: quintSchedule count
        (window.drop 1 ++ [rotateLeft (w 13 ^^^ w 8 ^^^ w 2 ^^^ w 0) 1])

def quintRound (s : Quint) (round : Nat × UInt32) : Quint :=
  let (i, w) := round
  let (mixed, constant) :=
    match i / 20 with
    | 0 => ((s.b &&& s.c) ||| ((s.b ^^^ 0xffffffff) &&& s.d), (0x5a827999 : UInt32))
    | 1 => (s.b ^^^ s.c ^^^ s.d, 0x6ed9eba1)
    | 2 => ((s.b &&& s.c) ||| (s.b &&& s.d) ||| (s.c &&& s.d), 0x8f1bbcdc)
    | _ => (s.b ^^^ s.c ^^^ s.d, 0xca62c1d6)
  ⟨rotateLeft s.a 5 + mixed + s.e + constant + w, s.a, rotateLeft s.b 30, s.c, s.d⟩

/-- Mixes blocks of sixteen words, as many as there are. -/
def quintAbsorb : Nat → Quint → List UInt32 → Quint
  | 0, s, _ => s
  | count + 1, s, ws =>
      let rounds := (List.range 80).zip (quintSchedule 80 (ws.take 16))
      let t := rounds.foldl quintRound s
      quintAbsorb count ⟨s.a + t.a, s.b + t.b, s.c + t.c, s.d + t.d, s.e + t.e⟩ (ws.drop 16)

def quintDigest (message : List UInt8) : String :=
  let ws := Digest.words (Digest.padded message)
  let s := quintAbsorb (ws.length / 16)
    ⟨0x67452301, 0xefcdab89, 0x98badcfe, 0x10325476, 0xc3d2e1f0⟩ ws
  String.ofList ([s.a, s.b, s.c, s.d, s.e].flatMap Digest.wordHex)

/-- Puts out the digests of files under a name of the program. -/
def digestLines (name : String) (digest : List UInt8 → String) : Program :=
  fun surroundings args input =>
    withOptions name ⟨"btz", "", [("binary", 'b'), ("text", 't'), ("zero", 'z'), ("tag", 'T')]⟩ 1
      args input fun options =>
        let (files, left) := operandSources surroundings options.operands input
        let errors := complaints files (plainComplaint name)
        let line (source : Source) : String :=
          match source.content with
          | .error _ => ""
          | .ok content =>
              let mark := if options.has 'b' then " *" else "  "
              s!"{digest content}{mark}{source.name}\n"
        { output := octets (String.join (files.map line))
          errors := octets errors
          status := if errors = "" then 0 else 1
          input := left }

def md5sum : Program := digestLines "md5sum" quadDigest

def sha1sum : Program := digestLines "sha1sum" quintDigest

def sha256sum : Program := digestLines "sha256sum" Digest.ofMessage

/-! ## The cyclic checksum -/

def crcStep (crc : UInt32) (b : UInt8) : UInt32 :=
  (List.range 8).foldl
    (fun crc _ => if crc >>> 31 = 1 then (crc <<< 1) ^^^ 0x04c11db7 else crc <<< 1)
    (crc ^^^ (b.toUInt32 <<< 24))

/-- The bytes of a length from the lowest on, without zeros at the end. -/
def lengthBytes (n : Nat) : List UInt8 :=
  ((Digest.bigEndian 8 n).dropWhile (· == 0)).reverse

def crc (message : List UInt8) : UInt32 :=
  ((message ++ lengthBytes message.length).foldl crcStep 0) ^^^ 0xffffffff

/-- Puts out the cyclic checksums and the lengths of files. -/
def cksum : Program := fun surroundings args input =>
  withOptions "cksum" {} 1 args input fun options =>
    let (files, left) := operandSources surroundings options.operands input
    let errors := complaints files (plainComplaint "cksum")
    let line (source : Source) : String :=
      match source.content with
      | .error _ => ""
      | .ok content =>
          let name := if options.operands.isEmpty then "" else " " ++ source.name
          s!"{crc content} {content.length}{name}\n"
    { output := octets (String.join (files.map line))
      errors := octets errors
      status := if errors = "" then 0 else 1
      input := left }

end Shell

end VersionGroups
