import VersionGroups.Json.Basic
import VersionGroups.Text.Hex

/-!
# Reading document values

A reader takes characters and gives back a value and the characters after it. Containers may be
nested to a limit. A whole number without a sign is kept when it fits 64 bits, one with a sign when
it fits 64 bits in two's complement and is not zero; every other number is a float, and one beyond
the largest float is refused.

The significand of a float keeps its leading digits as long as they fit 64 bits; the digits after
those are dropped. It is scaled by one power of ten, so the result may differ from the nearest float
in the last place.
-/

namespace VersionGroups

namespace Json

/-- Why a text is no document value. -/
inductive SyntaxError where
  | endOfText
  | unexpected (found : Char)
  | controlCharacter
  | badEscape
  | unpairedSurrogate
  | badNumber
  | numberTooLarge
  | nestedTooDeep
  | trailingText
  deriving DecidableEq, Repr

/-- What went wrong, in words. -/
def SyntaxError.message : SyntaxError → String
  | .endOfText => "the text ends inside a value"
  | .unexpected c => "unexpected character " ++ String.ofList [c]
  | .controlCharacter => "control character inside a string"
  | .badEscape => "invalid escape"
  | .unpairedSurrogate => "unpaired surrogate in an escape"
  | .badNumber => "invalid number"
  | .numberTooLarge => "number out of range"
  | .nestedTooDeep => "recursion limit exceeded"
  | .trailingText => "trailing characters"

/-- A reader of a prefix of the text. -/
abbrev Reader (α : Type) := List Char → Except SyntaxError (α × List Char)

/-- The error at a position where nothing fits. -/
def failAt {α : Type} : List Char → Except SyntaxError α
  | [] => .error .endOfText
  | c :: _ => .error (.unexpected c)

def isSpace (c : Char) : Bool := c == ' ' || c == '\n' || c == '\t' || c == '\r'

def skipSpace (cs : List Char) : List Char := cs.dropWhile isSpace

/-- The value of four hexadecimal digits. -/
def hexQuad? (a b c d : Char) : Option Nat := hexDigits? 0 [a, b, c, d]

/-- The character of an escape of one letter. -/
def shortEscape? (c : Char) : Option Char :=
  match c with
  | '"' => some '"'
  | '\\' => some '\\'
  | '/' => some '/'
  | 'b' => some (Char.ofNat 8)
  | 'f' => some (Char.ofNat 12)
  | 'n' => some '\n'
  | 'r' => some '\r'
  | 't' => some '\t'
  | _ => none

def isHighSurrogate (n : Nat) : Bool := 0xd800 ≤ n && n ≤ 0xdbff

def isLowSurrogate (n : Nat) : Bool := 0xdc00 ≤ n && n ≤ 0xdfff

/-- The rest of a string after its opening quote; `acc` holds what was read, last first. -/
def stringRest (acc : List Char) : Reader String
  | [] => .error .endOfText
  | '"' :: rest => .ok (String.ofList acc.reverse, rest)
  | '\\' :: 'u' :: a :: b :: c :: d :: rest =>
      match hexQuad? a b c d with
      | none => .error .badEscape
      | some n =>
          if isLowSurrogate n then .error .unpairedSurrogate
          else if isHighSurrogate n then
            match rest with
            | '\\' :: 'u' :: e :: f :: g :: h :: rest =>
                match hexQuad? e f g h with
                | none => .error .badEscape
                | some m =>
                    if isLowSurrogate m then
                      stringRest
                        (Char.ofNat (0x10000 + (n - 0xd800) * 0x400 + (m - 0xdc00)) :: acc) rest
                    else .error .unpairedSurrogate
            | _ => .error .unpairedSurrogate
          else stringRest (Char.ofNat n :: acc) rest
  | '\\' :: c :: rest =>
      match shortEscape? c with
      | some e => stringRest (e :: acc) rest
      | none => .error .badEscape
  | c :: rest =>
      if c.toNat < 0x20 then .error .controlCharacter else stringRest (c :: acc) rest

def digit? (c : Char) : Option Nat :=
  if '0' ≤ c ∧ c ≤ '9' then some (c.toNat - '0'.toNat) else none

/-- The largest whole number that is kept as one. -/
def largestWhole : Nat := UInt64.size - 1

/-- The largest exponent that is read digit by digit. -/
def largestExponent : Nat := UInt32.size / 2 - 1

/-- Drops digits, counting them. -/
def skipDigits (count : Nat) : List Char → Nat × List Char
  | [] => (count, [])
  | c :: rest => if (digit? c).isSome then skipDigits (count + 1) rest else (count, c :: rest)

/-- Appends digits to a number as long as it fits, counting them. -/
def takeDigits (bound value count : Nat) : List Char → Nat × Nat × List Char
  | [] => (value, count, [])
  | c :: rest =>
      match digit? c with
      | some d =>
          if value * 10 + d ≤ bound then takeDigits bound (value * 10 + d) (count + 1) rest
          else (value, count, c :: rest)
      | none => (value, count, c :: rest)

def startsWithDigit : List Char → Bool
  | c :: _ => (digit? c).isSome
  | [] => false

/-- The float `± significand · 10 ^ power`. -/
def scaledFloat (negative : Bool) (significand : Nat) (power : Int) :
    Except SyntaxError Number :=
  match (Binary64.ofNat? significand).bind (·.timesTen? power) with
  | some x => .ok (.float (if negative then x.negate else x))
  | none => .error .numberTooLarge

/-- An optional exponent after a significand, whose power of ten so far is `power`. -/
def exponentPart (negative : Bool) (significand : Nat) (power : Int) (cs : List Char) :
    Except SyntaxError (Number × List Char) :=
  match cs with
  | c :: rest =>
      if c = 'e' ∨ c = 'E' then
        let (down, rest) :=
          match rest with
          | '+' :: rest => (false, rest)
          | '-' :: rest => (true, rest)
          | rest => (false, rest)
        if !startsWithDigit rest then .error .badNumber
        else
          let (value, _, rest) := takeDigits largestExponent 0 0 rest
          if startsWithDigit rest then
            if significand ≠ 0 ∧ !down then .error .numberTooLarge
            else .ok (.float (.zero negative), (skipDigits 0 rest).2)
          else do
            let total := if down then power - value else power + value
            let largest : Int := largestExponent
            let clamped := max (-largest - 1) (min largest total)
            let x ← scaledFloat negative significand clamped
            return (x, rest)
      else do return (← scaledFloat negative significand power, cs)
  | [] => do return (← scaledFloat negative significand power, [])

/-- The digits after the point of a number whose whole part gave `significand · 10 ^ power`. -/
def fractionPart (negative : Bool) (significand : Nat) (power : Int) (cs : List Char) :
    Except SyntaxError (Number × List Char) :=
  if !startsWithDigit cs then .error .badNumber
  else
    let (significand, count, rest) := takeDigits largestWhole significand 0 cs
    let rest := (skipDigits 0 rest).2
    exponentPart negative significand (power - count) rest

/-- What follows the whole part of a number. -/
def numberRest (negative : Bool) (significand : Nat) (dropped : Nat) (cs : List Char) :
    Except SyntaxError (Number × List Char) :=
  match cs with
  | '.' :: rest => fractionPart negative significand dropped rest
  | c :: _ =>
      if c = 'e' ∨ c = 'E' then exponentPart negative significand dropped cs
      else whole cs
  | [] => whole []
where
  /-- A number that ends after its whole part. -/
  whole (cs : List Char) : Except SyntaxError (Number × List Char) :=
    if dropped ≠ 0 then do return (← scaledFloat negative significand dropped, cs)
    else if !negative then .ok (.int significand, cs)
    else if 0 < significand ∧ significand ≤ UInt64.size / 2 then .ok (.int (-(significand : Int)), cs)
    else do return (← scaledFloat negative significand 0, cs)

/-- A number after its sign. -/
def unsignedNumber (negative : Bool) (cs : List Char) :
    Except SyntaxError (Number × List Char) :=
  match cs with
  | '0' :: rest => if startsWithDigit rest then .error .badNumber else numberRest negative 0 0 rest
  | c :: _ =>
      if (digit? c).isSome then
        let (significand, _, rest) := takeDigits largestWhole 0 0 cs
        let (dropped, rest) := skipDigits 0 rest
        numberRest negative significand dropped rest
      else .error .badNumber
  | [] => .error .endOfText

/-- A number with an optional minus sign. -/
def number : Reader Number
  | '-' :: rest => unsignedNumber true rest
  | cs => unsignedNumber false cs

/-- The items of an array after its opening bracket or a comma; `acc` holds those read, last
first. -/
def itemsRest (item : Reader Json) : Nat → List Json → Reader (List Json)
  | 0, _, cs => failAt cs
  | fuel + 1, acc, cs => do
      let (value, rest) ← item (skipSpace cs)
      match skipSpace rest with
      | ',' :: rest => itemsRest item fuel (value :: acc) rest
      | ']' :: rest => return ((value :: acc).reverse, rest)
      | rest => failAt rest

/-- The fields of an object after its opening brace or a comma. -/
def fieldsRest (item : Reader Json) : Nat → List (String × Json) → Reader (List (String × Json))
  | 0, _, cs => failAt cs
  | fuel + 1, acc, cs => do
      match skipSpace cs with
      | '"' :: rest =>
          let (key, rest) ← stringRest [] rest
          match skipSpace rest with
          | ':' :: rest =>
              let (value, rest) ← item (skipSpace rest)
              match skipSpace rest with
              | ',' :: rest => fieldsRest item fuel ((key, value) :: acc) rest
              | '}' :: rest => return (((key, value) :: acc).reverse, rest)
              | rest => failAt rest
          | rest => failAt rest
      | rest => failAt rest

/-- A value at the start of the text, whose containers may be nested `depth` deep. -/
def value (depth : Nat) : Reader Json
  | 'n' :: 'u' :: 'l' :: 'l' :: rest => .ok (.null, rest)
  | 't' :: 'r' :: 'u' :: 'e' :: rest => .ok (.bool true, rest)
  | 'f' :: 'a' :: 'l' :: 's' :: 'e' :: rest => .ok (.bool false, rest)
  | '"' :: rest => do
      let (s, rest) ← stringRest [] rest
      return (.str s, rest)
  | '[' :: rest =>
      match depth with
      | 0 => .error .nestedTooDeep
      | depth + 1 =>
          match skipSpace rest with
          | ']' :: rest => .ok (.arr [], rest)
          | rest => do
              let (items, rest) ← itemsRest (value depth) rest.length [] rest
              return (.arr items, rest)
  | '{' :: rest =>
      match depth with
      | 0 => .error .nestedTooDeep
      | depth + 1 =>
          match skipSpace rest with
          | '}' :: rest => .ok (.obj [], rest)
          | rest => do
              let (fields, rest) ← fieldsRest (value depth) rest.length [] rest
              return (object fields, rest)
  | '-' :: rest => do
      let (n, rest) ← number ('-' :: rest)
      return (.num n, rest)
  | c :: rest =>
      if (digit? c).isSome then do
        let (n, rest) ← number (c :: rest)
        return (.num n, rest)
      else .error (.unexpected c)
  | [] => .error .endOfText

/-- The deepest nesting of containers in a document. -/
def deepestNesting : Nat := 127

/-- Reads a whole text with a reader; only space may follow. -/
def readWhole {α : Type} (reader : Reader α) (text : String) : Except SyntaxError α := do
  let (result, rest) ← reader (skipSpace text.toList)
  match skipSpace rest with
  | [] => return result
  | _ => .error .trailingText

/-- The value of a text whose containers are nested at most `depth` deep. -/
def readNested (depth : Nat) (text : String) : Except SyntaxError Json :=
  readWhole (value depth) text

/-- The value of a text. -/
def read (text : String) : Except SyntaxError Json := readNested deepestNesting text

end Json

end VersionGroups
