/-!
# Positions in a YAML text

A place is the text that lies ahead with its line and column, which decide how lines are nested.
Line breaks are the carriage return, the line feed, a pair of the two, and three characters beyond
ASCII.
-/

namespace VersionGroups

namespace Yaml

/-- Why a text is no document. -/
inductive SyntaxError where
  | controlCharacter
  | badIndentation
  | misplaced (token : String)
  | unexpected (c : Char)
  | endOfText
  | badEscape
  | badDirective
  | badTag
  | badAnchor
  | missingColon
  | unknownAnchor (name : String)
  | severalDocuments
  deriving DecidableEq, Repr

/-- What went wrong, in words. -/
def SyntaxError.message : SyntaxError → String
  | .controlCharacter => "control characters are not allowed"
  | .badIndentation => "a tab character violates the indentation"
  | .misplaced token => token ++ " is not allowed here"
  | .unexpected c => "unexpected character " ++ String.ofList [c]
  | .endOfText => "unexpected end of the text"
  | .badEscape => "unknown escape character"
  | .badDirective => "unknown directive"
  | .badTag => "invalid tag"
  | .badAnchor => "invalid anchor"
  | .missingColon => "a colon is missing after a key"
  | .unknownAnchor name => "unknown anchor " ++ name
  | .severalDocuments => "more than one document"

/-- Whether a character may occur in a text at all. -/
def isAllowed (c : Char) : Bool :=
  let n := c.toNat
  n == 9 || n == 10 || n == 13 || (0x20 ≤ n && n ≤ 0x7e) || n == 0x85 ||
    (0xa0 ≤ n && n ≤ 0xfffd) || 0x10000 ≤ n

/-- Whether a character is a space or a tab. -/
def isBlank (c : Char) : Bool := c == ' ' || c == '\t'

/-- Whether a character breaks a line. -/
def isBreak (c : Char) : Bool :=
  let n := c.toNat
  n == 10 || n == 13 || n == 0x85 || n == 0x2028 || n == 0x2029

/-- The mark that may begin a line, where it takes up a column. -/
def byteOrderMark : Char := Char.ofNat 0xfeff

/-- A place in a text. The index counts the bytes behind it, the column characters. -/
structure Place where
  ahead : List Char
  index : Nat
  line : Nat
  column : Nat
  deriving Repr

namespace Place

def start (text : List Char) : Place := ⟨text, 0, 0, 0⟩

/-- The character some steps ahead. -/
def char? (place : Place) (steps : Nat) : Option Char := place.ahead[steps]?

/-- Whether a character with some property lies some steps ahead. -/
def sees (place : Place) (steps : Nat) (test : Char → Bool) : Bool :=
  (place.char? steps).any test

/-- Whether the text ends, or a word does, some steps ahead. -/
def endsAt (place : Place) (steps : Nat) : Bool :=
  match place.char? steps with
  | some c => isBlank c || isBreak c
  | none => true

/-- The place after some characters of the line. -/
def skip (place : Place) (count : Nat) : Place :=
  { place with
    ahead := place.ahead.drop count
    index := (place.ahead.take count).foldl (fun index c => index + c.utf8Size) place.index
    column := place.column + count }

/-- The place after one character of the line. -/
def next (place : Place) : Place := place.skip 1

/-- The line break at a place as it counts in a text, and the place after it. -/
def takeBreak (place : Place) : List Char × Place :=
  match place.ahead with
  | '\r' :: '\n' :: rest => (['\n'], ⟨rest, place.index + 2, place.line + 1, 0⟩)
  | c :: rest =>
      if isBreak c then
        (if 0x2028 ≤ c.toNat then [c] else ['\n'], ⟨rest, place.index + c.utf8Size, place.line + 1, 0⟩)
      else ([], place)
  | [] => ([], place)

/-- The characters of the line that have a property, and the place after them. -/
def takeWhile (place : Place) (test : Char → Bool) : List Char × Place :=
  let taken := place.ahead.takeWhile test
  (taken, place.skip taken.length)

/-- The place after the characters of the line that have a property. -/
def skipWhile (place : Place) (test : Char → Bool) : Place := (place.takeWhile test).2

/-- The place after the rest of the line. -/
def skipLine (place : Place) : Place := place.skipWhile (!isBreak ·)

/-- Whether the mark of a document's beginning or end stands at a place. -/
def atDocumentMark (place : Place) : Bool :=
  place.column == 0 &&
    (place.ahead.take 3 == ['-', '-', '-'] || place.ahead.take 3 == ['.', '.', '.']) &&
    place.endsAt 3

end Place

/-- The blanks and line breaks between two words. -/
structure Gap where
  blanks : List Char
  firstBreak : List Char
  breaks : List Char
  broken : Bool

namespace Gap

/-- The gap without anything in it. -/
def none : Gap := ⟨[], [], [], false⟩

/-- What a gap amounts to: one line break becomes a space, of several the first one goes. -/
def text (gap : Gap) : List Char :=
  if gap.broken then
    if gap.firstBreak = ['\n'] then if gap.breaks.isEmpty then [' '] else gap.breaks
    else gap.firstBreak ++ gap.breaks
  else gap.blanks

/-- The gap at a place, where a gap may have begun, and the place after it. A line in it must not be
indented with a tab up to a column. -/
def take (column : Int) : Nat → Gap → Place → Except SyntaxError (Gap × Place)
  | 0, gap, place => .ok (gap, place)
  | fuel + 1, gap, place =>
      match place.ahead with
      | [] => .ok (gap, place)
      | c :: _ =>
          if isBlank c then
            if gap.broken then
              if c = '\t' ∧ (place.column : Int) < column then .error .badIndentation
              else take column fuel gap place.next
            else take column fuel { gap with blanks := gap.blanks ++ [c] } place.next
          else if isBreak c then
            let (lineBreak, place) := place.takeBreak
            if gap.broken then
              take column fuel { gap with breaks := gap.breaks ++ lineBreak } place
            else take column fuel ⟨[], lineBreak, [], true⟩ place
          else .ok (gap, place)

end Gap

end Yaml

end VersionGroups
