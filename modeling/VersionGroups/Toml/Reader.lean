import VersionGroups.Text.Hex
import VersionGroups.Toml.Value

/-!
# Reading TOML

A document is a sequence of lines: headers of tables, and keys with values. Values are texts between
quotes of either kind, on one line or several, whole numbers in four bases, lists and tables written
on one line. Values of other kinds have no place in a configuration and are refused like any other
text that does not fit.
-/

namespace VersionGroups

namespace Toml

/-- A reader of a prefix of the text. -/
abbrev Reader (α : Type) := List Char → Except SyntaxError (α × List Char)

def isSpace (c : Char) : Bool := c == ' ' || c == '\t'

def skipSpace (cs : List Char) : List Char := cs.dropWhile isSpace

/-- Whether a character may stand in a comment or in a text, apart from quotes and backslashes. -/
def isPrintable (c : Char) : Bool :=
  c == '\t' || (0x20 ≤ c.toNat && c.toNat != 0x7f)

/-- What follows a line break at the start of the text. -/
def lineBreak? : List Char → Option (List Char)
  | '\n' :: rest => some rest
  | '\r' :: '\n' :: rest => some rest
  | _ => none

/-- What follows a comment at the start of the text, if there is one. -/
def skipComment : List Char → List Char
  | '#' :: rest => rest.dropWhile isPrintable
  | cs => cs

/-- What follows spaces, comments and line breaks; `fuel` bounds their number. -/
def skipLines : Nat → List Char → List Char
  | 0, cs => cs
  | fuel + 1, cs =>
      let cs := skipComment (skipSpace cs)
      match lineBreak? cs with
      | some rest => skipLines fuel rest
      | none => cs

/-- What follows the end of a line, before which there may be spaces and a comment. -/
def endOfLine (cs : List Char) : Except SyntaxError (List Char) :=
  match skipComment (skipSpace cs) with
  | [] => .ok []
  | cs =>
      match lineBreak? cs with
      | some rest => .ok rest
      | none => .error .unexpected

/-- The character of an escape of one letter. -/
def shortEscape? (c : Char) : Option Char :=
  match c with
  | 'b' => some (Char.ofNat 8)
  | 't' => some '\t'
  | 'n' => some '\n'
  | 'f' => some (Char.ofNat 12)
  | 'r' => some '\r'
  | '"' => some '"'
  | '\\' => some '\\'
  | _ => none

/-- The character of a number, if it is one. -/
def charOf? (n : Nat) : Option Char := if n.isValidChar then some (Char.ofNat n) else none

/-- The character after a backslash. -/
def escape : Reader Char
  | 'u' :: a :: b :: c :: d :: rest =>
      match (hexDigits? 0 [a, b, c, d]).bind charOf? with
      | some c => .ok (c, rest)
      | none => .error .badEscape
  | 'U' :: a :: b :: c :: d :: e :: f :: g :: h :: rest =>
      match (hexDigits? 0 [a, b, c, d, e, f, g, h]).bind charOf? with
      | some c => .ok (c, rest)
      | none => .error .badEscape
  | c :: rest =>
      match shortEscape? c with
      | some e => .ok (e, rest)
      | none => .error .badEscape
  | [] => .error .unexpected

/-- The rest of a text between double quotes; `acc` holds what was read, last first. -/
def basicRest : Nat → List Char → Reader String
  | 0, _, _ => .error .unexpected
  | fuel + 1, acc, cs =>
      match cs with
      | '"' :: rest => .ok (String.ofList acc.reverse, rest)
      | '\\' :: rest => do
          let (c, rest) ← escape rest
          basicRest fuel (c :: acc) rest
      | c :: rest => if isPrintable c then basicRest fuel (c :: acc) rest else .error .unexpected
      | [] => .error .unexpected

/-- The rest of a text between single quotes. -/
def literalRest (acc : List Char) : Reader String
  | '\'' :: rest => .ok (String.ofList acc.reverse, rest)
  | c :: rest => if isPrintable c then literalRest (c :: acc) rest else .error .unexpected
  | [] => .error .unexpected

/-- The end of a text of several lines at a run of quotes that closes it, of which up to two belong
to the text. -/
def closing? (quote : Char) (acc cs : List Char) : Option (String × List Char) :=
  let run := (cs.takeWhile (· == quote)).length
  if run < 3 then none
  else
    let kept := min 2 (run - 3)
    some (String.ofList (List.replicate kept quote ++ acc).reverse, cs.drop (kept + 3))

/-- What follows the spaces and line breaks at the start of the text. -/
def skipBlankLines : List Char → List Char
  | '\r' :: '\n' :: rest => skipBlankLines rest
  | c :: rest => if isSpace c || c == '\n' then skipBlankLines rest else c :: rest
  | [] => []

/-- What follows a backslash at the end of a line, together with the blank lines below it. -/
def joinedLine? (cs : List Char) : Option (List Char) :=
  (lineBreak? (skipSpace cs)).map skipBlankLines

/-- The rest of a text of several lines between triple double quotes. -/
def basicLinesRest : Nat → List Char → Reader String
  | 0, _, _ => .error .unexpected
  | fuel + 1, acc, cs =>
      match closing? '"' acc cs with
      | some result => .ok result
      | none =>
          match lineBreak? cs with
          | some rest => basicLinesRest fuel ('\n' :: acc) rest
          | none =>
              match cs with
              | '\\' :: rest =>
                  match joinedLine? rest with
                  | some rest => basicLinesRest fuel acc rest
                  | none => do
                      let (c, rest) ← escape rest
                      basicLinesRest fuel (c :: acc) rest
              | c :: rest =>
                  if isPrintable c then basicLinesRest fuel (c :: acc) rest else .error .unexpected
              | [] => .error .unexpected

/-- The rest of a text of several lines between triple single quotes. -/
def literalLinesRest : Nat → List Char → Reader String
  | 0, _, _ => .error .unexpected
  | fuel + 1, acc, cs =>
      match closing? '\'' acc cs with
      | some result => .ok result
      | none =>
          match lineBreak? cs with
          | some rest => literalLinesRest fuel ('\n' :: acc) rest
          | none =>
              match cs with
              | c :: rest =>
                  if isPrintable c then literalLinesRest fuel (c :: acc) rest
                  else .error .unexpected
              | [] => .error .unexpected

/-- The text without a line break at its start. -/
def afterBreak (cs : List Char) : List Char := (lineBreak? cs).getD cs

def lineText : Reader String
  | '"' :: rest => basicRest (rest.length + 1) [] rest
  | '\'' :: rest => literalRest [] rest
  | _ => .error .unexpected

/-- A text on one line or several. -/
def text : Reader String
  | '"' :: '"' :: '"' :: rest =>
      let rest := afterBreak rest
      basicLinesRest (rest.length + 1) [] rest
  | '\'' :: '\'' :: '\'' :: rest =>
      let rest := afterBreak rest
      literalLinesRest (rest.length + 1) [] rest
  | cs => lineText cs

/-- The value of a digit in a base of at most sixteen. -/
def digitIn? (base : Nat) (c : Char) : Option Nat := (hexDigit? c).filter (· < base)

/-- Digits after a number already read, with single underscores between digits. -/
def digitsRest (base : Nat) (read : Nat) : List Char → Nat × List Char
  | '_' :: c :: rest =>
      match digitIn? base c with
      | some d => digitsRest base (read * base + d) rest
      | none => (read, '_' :: c :: rest)
  | c :: rest =>
      match digitIn? base c with
      | some d => digitsRest base (read * base + d) rest
      | none => (read, c :: rest)
  | [] => (read, [])

def digits (base : Nat) : Reader Nat
  | c :: rest =>
      match digitIn? base c with
      | some d => .ok (digitsRest base d rest)
      | none => .error .unexpected
  | [] => .error .unexpected

/-- A decimal number without a sign; a zero at its start is the whole number. -/
def decimal : Reader Nat
  | '0' :: rest => .ok (0, rest)
  | cs => digits 10 cs

def integer : Reader Int
  | '+' :: rest => do
      let (n, rest) ← decimal rest
      return (n, rest)
  | '-' :: rest => do
      let (n, rest) ← decimal rest
      return (-n, rest)
  | '0' :: 'x' :: rest => do
      let (n, rest) ← digits 16 rest
      return (n, rest)
  | '0' :: 'o' :: rest => do
      let (n, rest) ← digits 8 rest
      return (n, rest)
  | '0' :: 'b' :: rest => do
      let (n, rest) ← digits 2 rest
      return (n, rest)
  | cs => do
      let (n, rest) ← decimal cs
      return (n, rest)

def isBare (c : Char) : Bool :=
  ('a' ≤ c && c ≤ 'z') || ('A' ≤ c && c ≤ 'Z') || ('0' ≤ c && c ≤ '9') || c == '-' || c == '_'

def key (cs : List Char) : Except SyntaxError (String × List Char) :=
  match cs with
  | '"' :: _ => lineText cs
  | '\'' :: _ => lineText cs
  | _ =>
      let name := cs.takeWhile isBare
      if name.isEmpty then .error .unexpected else .ok (String.ofList name, cs.drop name.length)

/-- Keys with points between them, and spaces around each. -/
def dottedKey : Nat → Reader (List String)
  | 0, _ => .error .unexpected
  | fuel + 1, cs => do
      let (first, rest) ← key (skipSpace cs)
      match skipSpace rest with
      | '.' :: rest =>
          let (others, rest) ← dottedKey fuel rest
          return (first :: others, rest)
      | rest => return ([first], rest)

/-- The items of a list after its opening bracket; `acc` holds those read, last first. -/
def itemsRest (item : Reader Value) : Nat → List Value → Reader (List Value)
  | 0, _, _ => .error .unexpected
  | fuel + 1, acc, cs =>
      match skipLines cs.length cs with
      | ']' :: rest => .ok (acc.reverse, rest)
      | cs => do
          let (value, rest) ← item cs
          match skipLines rest.length rest with
          | ',' :: rest => itemsRest item fuel (value :: acc) rest
          | ']' :: rest => return ((value :: acc).reverse, rest)
          | _ => .error .unexpected

/-- A key with its value, the spaces around them included. -/
def field (item : Reader Value) (cs : List Char) :
    Except SyntaxError ((List String × Value) × List Char) := do
  match ← dottedKey cs.length cs with
  | (path, '=' :: rest) =>
      let (value, rest) ← item (skipSpace rest)
      return ((path, value), skipSpace rest)
  | _ => .error .unexpected

/-- The fields of a table on one line after its opening brace or a comma. -/
def fieldsRest (item : Reader Value) : Nat → Fields → Reader Fields
  | 0, _, _ => .error .unexpected
  | fuel + 1, acc, cs => do
      let ((path, value), rest) ← field item cs
      let acc ← addDotted acc value path
      match rest with
      | ',' :: rest => fieldsRest item fuel acc rest
      | '}' :: rest => return (acc, rest)
      | _ => .error .unexpected

/-- A value whose lists and tables may be nested `depth` deep. -/
def value (depth : Nat) : Reader Value
  | '[' :: rest =>
      match depth with
      | 0 => .error .nestedTooDeep
      | depth + 1 => do
          let (items, rest) ← itemsRest (value depth) (rest.length + 1) [] rest
          return (.list items, rest)
  | '{' :: rest =>
      match depth with
      | 0 => .error .nestedTooDeep
      | depth + 1 =>
          match skipSpace rest with
          | '}' :: rest => .ok (.table .inline [], rest)
          | rest => do
              let (fields, rest) ← fieldsRest (value depth) (rest.length + 1) [] rest
              return (.table .inline fields, rest)
  | '"' :: rest => do
      let (s, rest) ← text ('"' :: rest)
      return (.text s, rest)
  | '\'' :: rest => do
      let (s, rest) ← text ('\'' :: rest)
      return (.text s, rest)
  | cs => do
      let (n, rest) ← integer cs
      return (.integer n, rest)

/-- The deepest nesting of lists and tables in a value. -/
def deepestNesting : Nat := 80

/-- The lines of a document below the table of a header. -/
def lines : Nat → List String → Fields → List Char → Except SyntaxError Fields
  | 0, _, _, _ => .error .unexpected
  | fuel + 1, header, fields, cs =>
      match skipLines cs.length cs with
      | [] => .ok fields
      | '[' :: rest => do
          match ← dottedKey rest.length rest with
          | (path, ']' :: rest) => lines fuel path (← openTable fields path) (← endOfLine rest)
          | _ => .error .unexpected
      | cs => do
          let ((path, value), rest) ← field (value deepestNesting) cs
          lines fuel header (← addBelow fields path value header) (← endOfLine rest)

/-- The mark that may stand at the beginning of a document. -/
def byteOrderMark : Char := Char.ofNat 0xfeff

/-- The table of a document. -/
def read (source : String) : Except SyntaxError Fields :=
  let cs := source.toList
  let cs := if cs.head? = some byteOrderMark then cs.tail else cs
  lines (cs.length + 1) [] [] cs

end Toml

end VersionGroups
