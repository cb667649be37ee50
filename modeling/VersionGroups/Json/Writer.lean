import VersionGroups.Decimal.Shortest
import VersionGroups.Json.Basic

/-!
# Document values as text

The compact form has no spaces; the indented form puts every item and field on a line of its own,
two spaces deeper than its container. Quotes, backslashes and control characters are escaped, all
other characters stand for themselves.
-/

namespace VersionGroups

namespace Json

def escapeChar (c : Char) : List Char :=
  if c = '"' then ['\\', '"']
  else if c = '\\' then ['\\', '\\']
  else if c = '\n' then ['\\', 'n']
  else if c = '\r' then ['\\', 'r']
  else if c = '\t' then ['\\', 't']
  else if c.toNat = 8 then ['\\', 'b']
  else if c.toNat = 12 then ['\\', 'f']
  else if c.toNat < 0x20 then
    ['\\', 'u', '0', '0', Nat.digitChar (c.toNat / 16), Nat.digitChar (c.toNat % 16)]
  else [c]

/-- A string between quotes. -/
def quote (s : String) : String :=
  String.ofList ('"' :: s.toList.flatMap escapeChar ++ ['"'])

/-- The text of a decimal `units · 10 ^ power`: without an exponent while the number is at least
`1e-5` and below `1e16`, and always with a point or an exponent, which has a sign. -/
def decimalText (units : Nat) (power : Int) : String :=
  let digits := Nat.toDigits 10 units
  let count : Int := digits.length
  let point := count + power
  if 0 ≤ power ∧ point ≤ 16 then
    String.ofList (digits ++ List.replicate power.toNat '0' ++ ['.', '0'])
  else if 0 < point ∧ point ≤ 16 then
    String.ofList (digits.take point.toNat ++ '.' :: digits.drop point.toNat)
  else if -5 < point ∧ point ≤ 0 then
    String.ofList (['0', '.'] ++ List.replicate point.natAbs '0' ++ digits)
  else
    let exponent := (if 0 < point then "+" else "") ++ toString (point - 1)
    match digits with
    | [d] => String.ofList [d, 'e'] ++ exponent
    | d :: rest => String.ofList (d :: '.' :: rest ++ ['e']) ++ exponent
    | [] => exponent

def numberText : Number → String
  | .int n => toString n
  | .float x =>
      let (units, power) := x.shortest
      (if x.negative then "-" else "") ++ decimalText units power

mutual

/-- The text without spaces. -/
def compact : Json → String
  | .null => "null"
  | .bool b => if b then "true" else "false"
  | .num n => numberText n
  | .str s => quote s
  | .arr items => "[" ++ compactItems items ++ "]"
  | .obj fields => "\x7b" ++ compactFields fields ++ "\x7d"

/-- Values separated by commas. -/
def compactItems : List Json → String
  | [] => ""
  | [a] => compact a
  | a :: rest => compact a ++ "," ++ compactItems rest

/-- Fields separated by commas. -/
def compactFields : List (String × Json) → String
  | [] => ""
  | [(k, a)] => quote k ++ ":" ++ compact a
  | (k, a) :: rest => quote k ++ ":" ++ compact a ++ "," ++ compactFields rest

end

/-- A new line at a depth of nesting. -/
def lineAt (depth : Nat) : String := String.ofList ('\n' :: List.replicate (2 * depth) ' ')

mutual

/-- The text with a line for every item and field; empty containers take no line. -/
def indentedAt (depth : Nat) : Json → String
  | .arr [] => "[]"
  | .obj [] => "\x7b\x7d"
  | .arr items => "[" ++ indentedItems (depth + 1) items ++ lineAt depth ++ "]"
  | .obj fields => "\x7b" ++ indentedFields (depth + 1) fields ++ lineAt depth ++ "\x7d"
  | .null => "null"
  | .bool b => if b then "true" else "false"
  | .num n => numberText n
  | .str s => quote s

def indentedItems (depth : Nat) : List Json → String
  | [] => ""
  | [a] => lineAt depth ++ indentedAt depth a
  | a :: rest => lineAt depth ++ indentedAt depth a ++ "," ++ indentedItems depth rest

def indentedFields (depth : Nat) : List (String × Json) → String
  | [] => ""
  | [(k, a)] => lineAt depth ++ quote k ++ ": " ++ indentedAt depth a
  | (k, a) :: rest =>
      lineAt depth ++ quote k ++ ": " ++ indentedAt depth a ++ "," ++ indentedFields depth rest

end

/-- The text with a line for every item and field. -/
def indented (value : Json) : String := indentedAt 0 value

end Json

end VersionGroups
