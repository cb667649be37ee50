import VersionGroups.Shell.Copying

/-!
# Bytes as text

Bytes are written with 64 characters, three bytes as four of them, or shown as numbers, so many to
a line behind the place of the first.
-/

namespace VersionGroups

namespace Shell

/-! ## Four characters for three bytes -/

def sixBitChars : List Char :=
  "ABCDEFGHIJKLMNOPQRSTUVWXYZabcdefghijklmnopqrstuvwxyz0123456789+/".toList

def sixBitChar (n : Nat) : Char := sixBitChars.getD (n % 64) '='

def sixBitText : List UInt8 → List Char
  | a :: b :: c :: rest =>
      let n := (a.toNat * 256 + b.toNat) * 256 + c.toNat
      sixBitChar (n / 262144) :: sixBitChar (n / 4096) :: sixBitChar (n / 64) :: sixBitChar n ::
        sixBitText rest
  | [a, b] =>
      let n := (a.toNat * 256 + b.toNat) * 4
      [sixBitChar (n / 4096), sixBitChar (n / 64), sixBitChar n, '=']
  | [a] =>
      let n := a.toNat * 16
      [sixBitChar (n / 64), sixBitChar n, '=', '=']
  | [] => []

/-- Characters in lines of some width, each with an end; without a width they are left as they are.
-/
def wrapped (width : Nat) : Nat → List Char → List Char
  | 0, cs => cs
  | fuel + 1, cs =>
      if width = 0 then cs
      else if cs.isEmpty then []
      else cs.take width ++ '\n' :: wrapped width fuel (cs.drop width)

/-- The bytes of characters, and whether all of them fit. A group that lacks characters stands for
as many bytes as it has whole ones, but does not fit. -/
def sixBitBytes : List Char → List UInt8 × Bool
  | [] => ([], true)
  | [_] => ([], false)
  | a :: b :: rest =>
      let value (c : Char) : Option Nat := sixBitChars.findIdx? (· == c)
      match value a, value b with
      | some a, some b =>
          let n := a * 64 + b
          let first := (n / 16).toUInt8
          match rest with
          | [] => ([first], false)
          | c :: rest =>
              match value c, rest with
              | none, '=' :: rest =>
                  if c = '=' then
                    let (others, fits) := sixBitBytes rest
                    (first :: others, fits)
                  else ([first], false)
              | none, _ => ([first], false)
              | some c, rest =>
                  let n := n * 64 + c
                  let second := (n / 4).toUInt8
                  match rest with
                  | [] => ([first, second], false)
                  | d :: rest =>
                      match value d with
                      | some d =>
                          let (others, fits) := sixBitBytes rest
                          (first :: second :: (n * 64 + d).toUInt8 :: others, fits)
                      | none =>
                          if d = '=' then
                            let (others, fits) := sixBitBytes rest
                            (first :: second :: others, fits)
                          else ([first, second], false)
      | _, _ => ([], false)

/-- Writes bytes with 64 characters, or reads them back. -/
def base64 : Program := fun surroundings args input =>
  withOptions "base64" ⟨"di", "w", [("decode", 'd'), ("wrap", 'w'), ("ignore-garbage", 'i')]⟩ 1 args
    input fun options =>
      let text := (options.value? 'w').getD "76"
      match baseValue? 10 text.toList, options.operands with
      | none, _ => failing s!"base64: invalid wrap size: {inQuotes text}\n" 1 input
      | some _, _ :: extra :: _ => misused "base64" s!"extra operand {inQuotes extra}" 1 input
      | some width, operands =>
          let (files, left) := operandSources surroundings operands input
          let errors := complaints files (plainComplaint "base64")
          let content := contents files
          if errors != "" then failing errors 1 left
          else if options.has 'd' then
            let cs := (content.map byteChar).filter (· != '\n')
            let cs :=
              if options.has 'i' then cs.filter fun c => sixBitChars.contains c || c == '=' else cs
            let (result, fits) := sixBitBytes cs
            { output := bytes result
              errors := if fits then .empty else octets "base64: invalid input\n"
              status := if fits then 0 else 1
              input := left }
          else
            let cs := sixBitText content
            { output := bytes ((wrapped width cs.length cs).map charByte), input := left }

/-! ## Numbers of bytes -/

/-- How bytes are shown: as characters, or as numbers of some bytes in some base. -/
inductive DumpStyle where
  | characters
  | unsigned (base size : Nat)
  | signed (size : Nat)
  deriving DecidableEq

/-- The number of characters that a number of some size takes at most. -/
def DumpStyle.width : DumpStyle → Nat
  | .characters => 3
  | .unsigned base size => (Nat.toDigits base (Nat.pow 256 size - 1)).length
  | .signed size => (Nat.toDigits 10 (Nat.pow 256 size / 2)).length + 1

def DumpStyle.size : DumpStyle → Nat
  | .characters => 1
  | .unsigned _ size => size
  | .signed size => size

def dumpChar (b : UInt8) : String :=
  match b.toNat with
  | 0 => "\\0"
  | 7 => "\\a"
  | 8 => "\\b"
  | 9 => "\\t"
  | 10 => "\\n"
  | 11 => "\\v"
  | 12 => "\\f"
  | 13 => "\\r"
  | n =>
      if 32 ≤ n ∧ n < 127 then String.ofList [byteChar b]
      else
        let digits := Nat.toDigits 8 n
        String.ofList (List.replicate (3 - digits.length) '0' ++ digits)

/-- The number whose bytes are given from the lowest on. -/
def DumpStyle.shown (style : DumpStyle) (l : List UInt8) : String :=
  let n := l.foldr (fun b n => b.toNat + 256 * n) 0
  match style with
  | .characters => dumpChar (l.headD 0)
  | .unsigned base _ =>
      let digits := Nat.toDigits base n
      let missing := if base = 10 then 0 else style.width - digits.length
      String.ofList (List.replicate missing '0' ++ digits)
  | .signed size =>
      let whole := Nat.pow 256 size
      if 2 * n < whole then toString n else s!"-{whole - n}"

/-- A line of numbers of bytes in columns of some width. -/
def DumpStyle.line (style : DumpStyle) (column : Nat) : Nat → List UInt8 → String
  | 0, _ => ""
  | _ + 1, [] => ""
  | fuel + 1, l =>
      " " ++ rightAligned column (style.shown (l.take style.size)) ++
        style.line column fuel (l.drop style.size)

def dumpStyles? : Nat → List Char → Option (List DumpStyle)
  | 0, _ => none
  | _ + 1, [] => some []
  | fuel + 1, c :: rest => do
      let digits := rest.takeWhile Char.isDigit
      let rest := rest.drop digits.length
      let (named, rest) :=
        match rest with
        | 'C' :: more => (some 1, more)
        | 'S' :: more => (some 2, more)
        | 'I' :: more => (some 4, more)
        | 'L' :: more => (some 8, more)
        | rest => (none, rest)
      let size := ((baseValue? 10 digits).or named).getD 4
      if !([1, 2, 4, 8].contains size) then none
      let style ←
        match c with
        | 'c' => some .characters
        | 'o' => some (.unsigned 8 size)
        | 'x' => some (.unsigned 16 size)
        | 'u' => some (.unsigned 10 size)
        | 'd' => some (.signed size)
        | _ => none
      return style :: (← dumpStyles? fuel rest)

/-- The place of a line in a base; none without a base. -/
def dumpPlace (base : Option Nat) (place : Nat) : String :=
  match base with
  | none => ""
  | some base =>
      let digits := Nat.toDigits base place
      let width := if base = 16 then 6 else 7
      String.ofList (List.replicate (width - digits.length) '0' ++ digits)

/-- The lines of a content; equal lines in a row are shown once, with a mark for the others. -/
def dumpLines (styles : List DumpStyle) (base : Option Nat) (width : Nat) (all : Bool) :
    Nat → Nat → Option (List UInt8) → Bool → List UInt8 → String
  | 0, _, _, _, _ => ""
  | fuel + 1, place, last, marked, l =>
      if l.isEmpty then
        match base with
        | none => ""
        | some _ => dumpPlace base place ++ "\n"
      else
        let line := l.take width
        let rest := l.drop width
        if !all && last == some line && !rest.isEmpty then
          (if marked then "" else "*\n") ++
            dumpLines styles base width all fuel (place + line.length) last true rest
        else
          let label := dumpPlace base place
          let blank := String.ofList (List.replicate label.length ' ')
          let shown := styles.zipIdx.map fun (style, i) =>
            let alike := styles.filter fun other => other.size == style.size
            let column := (alike.map DumpStyle.width).foldl max 0
            (if i = 0 then label else blank) ++ style.line column line.length line ++ "\n"
          String.join shown ++
            dumpLines styles base width all fuel (place + line.length) (some line) false rest

def od : Program := fun surroundings args input =>
  withOptions "od"
    ⟨"bcdoxv", "AtjNw",
      [("address-radix", 'A'), ("format", 't'), ("read-bytes", 'N'), ("skip-bytes", 'j'),
        ("width", 'w'), ("output-duplicates", 'v')]⟩ 1 args input fun options =>
    let styles := options.given.mapM fun (letter, value) =>
      match letter with
      | 't' => dumpStyles? (value.length + 1) value.toList
      | 'b' => some [.unsigned 8 1]
      | 'c' => some [.characters]
      | 'd' => some [.unsigned 10 2]
      | 'o' => some [.unsigned 8 2]
      | 'x' => some [.unsigned 16 2]
      | _ => some []
    match styles with
    | none =>
        let bad := (options.value? 't').getD ""
        failing s!"od: invalid type string {inQuotes bad}\n" 1 input
    | some styles =>
        let styles := styles.flatten
        let styles := if styles.isEmpty then [.unsigned 8 2] else styles
        let base :=
          match (options.value? 'A').getD "o" with
          | "n" => none
          | "d" => some 10
          | "x" => some 16
          | _ => some 8
        let count (letter : Char) : Option Nat :=
          (options.value? letter).bind fun text => countValue? text.toList
        let width := max 1 ((count 'w').getD 16)
        let (files, left) := operandSources surroundings options.operands input
        let skipped := (count 'j').getD 0
        let content := (contents files).drop skipped
        let content := ((count 'N').map content.take).getD content
        let errors := complaints files (plainComplaint "od")
        { output := octets
            (dumpLines styles base width (options.has 'v') (content.length + 2) skipped none false
              content)
          errors := octets errors
          status := if errors = "" then 0 else 1
          input := left }

end Shell

end VersionGroups
