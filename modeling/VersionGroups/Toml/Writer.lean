/-!
# Writing TOML

A document is a tree of tables whose leaves are whole numbers and lists of them. It is written as
sections: a table with values has a header with its path and a line for each value, a table without
any content has a header alone, and a table that holds only tables has none. A section comes before
the sections of the tables inside it, and an empty line stands between two sections.

A key is bare where its characters allow it. Otherwise it stands between double quotes if nothing in
it needs an escape, else between single quotes if it has none and no control character, else between
double quotes with escapes.
-/

namespace VersionGroups

namespace Toml

/-- A node of a document to be written. -/
inductive Node where
  | number (value : Nat)
  | numbers (values : List Nat)
  | table (fields : List (String × Node))

/-- Whether a character may stand in a bare key. -/
def isBareChar (c : Char) : Bool :=
  ('a' ≤ c && c ≤ 'z') || ('A' ≤ c && c ≤ 'Z') || ('0' ≤ c && c ≤ '9') || c == '-' || c == '_'

/-- Whether a character is a control character other than the tab. -/
def isControl (c : Char) : Bool := (c.toNat < 0x20 && c != '\t') || c.toNat == 0x7f

/-- Four hexadecimal digits in upper case. -/
def hexQuad (n : Nat) : List Char :=
  let digits := (Nat.toDigits 16 n).map Char.toUpper
  List.replicate (4 - digits.length) '0' ++ digits

/-- One character between double quotes. -/
def escapeChar (c : Char) : List Char :=
  if c = '"' then ['\\', '"']
  else if c = '\\' then ['\\', '\\']
  else if c = '\t' then ['\\', 't']
  else if c = '\n' then ['\\', 'n']
  else if c = '\r' then ['\\', 'r']
  else if c.toNat = 8 then ['\\', 'b']
  else if c.toNat = 12 then ['\\', 'f']
  else if isControl c then ['\\', 'u'] ++ hexQuad c.toNat
  else [c]

def keyChars (cs : List Char) : List Char :=
  if !cs.isEmpty && cs.all isBareChar then cs
  else if cs.any (fun c => isControl c || c == '"' || c == '\\') &&
      !cs.any (fun c => isControl c || c == '\'') then
    '\'' :: cs ++ ['\'']
  else '"' :: cs.flatMap escapeChar ++ ['"']

def keyText (key : String) : String := String.ofList (keyChars key.toList)

/-- The text of a path of keys. -/
def pathText (path : List String) : String := String.intercalate "." (path.map keyText)

/-- A list of numbers on one line. -/
def numbersText (values : List Nat) : String :=
  "[" ++ String.intercalate ", " (values.map toString) ++ "]"

/-- The text of a value; a table has none. -/
def Node.valueText? : Node → Option String
  | .number n => some (toString n)
  | .numbers ns => some (numbersText ns)
  | .table _ => none

/-- A header and the lines below it. -/
structure Section where
  path : List String
  lines : List (String × String)
  deriving DecidableEq, Repr

/-- The lines of the values among fields. -/
def valueLines (fields : List (String × Node)) : List (String × String) :=
  fields.filterMap fun f => f.2.valueText?.map (fun text => (f.1, text))

mutual

/-- The sections of a node under a path. -/
def sections (path : List String) : Node → List Section
  | .number _ => []
  | .numbers _ => []
  | .table fields =>
      let lines := valueLines fields
      if lines.isEmpty && !fields.isEmpty then sectionsOfFields path fields
      else ⟨path, lines⟩ :: sectionsOfFields path fields

/-- The sections of the tables among fields. -/
def sectionsOfFields (path : List String) : List (String × Node) → List Section
  | [] => []
  | (key, node) :: rest => sections (path ++ [key]) node ++ sectionsOfFields path rest

end

/-- The text of a section. The section of the whole document has no header. -/
def Section.text (s : Section) : String :=
  (if s.path.isEmpty then "" else "[" ++ pathText s.path ++ "]\n") ++
    String.join (s.lines.map fun line => keyText line.1 ++ " = " ++ line.2 ++ "\n")

def documentText (fields : List (String × Node)) : String :=
  String.intercalate "\n" ((sections [] (.table fields)).map Section.text)

end Toml

end VersionGroups
