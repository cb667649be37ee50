import VersionGroups.Text.Hex
import VersionGroups.Yaml.Text

/-!
# Reading YAML scalars

A scalar is written plainly, between quotes, or as a block of indented lines. Line breaks inside a
plain or quoted scalar are folded: one becomes a space, and of several the first is dropped.
-/

namespace VersionGroups

namespace Yaml

/-- How a scalar is written. -/
inductive Style where
  | plain
  | quoted
  | literal
  | folded
  deriving DecidableEq, Repr

/-- Whether a character separates items of a collection on one line. -/
def isFlowIndicator (c : Char) : Bool :=
  c == ',' || c == '[' || c == ']' || c == '{' || c == '}'

/-- Whether a plain scalar ends at a place. -/
def endsPlain (flow : Bool) (place : Place) : Bool :=
  match place.ahead with
  | [] => true
  | c :: _ =>
      isBlank c || isBreak c || (c == ':' && place.endsAt 1) || (flow && isFlowIndicator c)

/-- Whether a colon stands where it neither ends a key nor belongs to a word. -/
def strayColon (flow : Bool) (place : Place) : Bool :=
  flow && place.sees 0 (· == ':') && place.sees 1 fun c => isFlowIndicator c || c == '?'

/-- The word at a place in a plain scalar; `acc` holds what was read, last first. -/
def plainWord (flow : Bool) : Nat → List Char → Place → Except SyntaxError (List Char × Place)
  | 0, acc, place => .ok (acc, place)
  | fuel + 1, acc, place =>
      if strayColon flow place then .error (.unexpected ':')
      else if endsPlain flow place then .ok (acc, place)
      else
        match place.ahead with
        | c :: _ => plainWord flow fuel (c :: acc) place.next
        | [] => .ok (acc, place)

/-- A plain scalar after some words and a gap; the last component tells whether a line break follows
it. Outside of collections on one line it ends at a line that is not indented to `column`. -/
def plainRest (flow : Bool) (column : Int) : Nat → List Char → Gap → Place →
    Except SyntaxError (List Char × Place × Bool)
  | 0, acc, gap, place => .ok (acc.reverse, place, gap.broken)
  | fuel + 1, acc, gap, place =>
      if place.atDocumentMark || place.sees 0 (· == '#') then
        .ok (acc.reverse, place, gap.broken)
      else do
        let (word, after) ← plainWord flow place.ahead.length [] place
        if word.isEmpty then return (acc.reverse, place, gap.broken)
        let acc := word ++ gap.text.reverse ++ acc
        let (gap, after) ← Gap.take column after.ahead.length Gap.none after
        if gap.blanks.isEmpty && !gap.broken then return (acc.reverse, after, false)
        if !flow && (after.column : Int) < column then return (acc.reverse, after, gap.broken)
        plainRest flow column fuel acc gap after

/-- The character of an escape of one letter. -/
def shortEscape? (c : Char) : Option Char :=
  match c with
  | '0' => some (Char.ofNat 0)
  | 'a' => some (Char.ofNat 7)
  | 'b' => some (Char.ofNat 8)
  | 't' => some '\t'
  | '\t' => some '\t'
  | 'n' => some '\n'
  | 'v' => some (Char.ofNat 11)
  | 'f' => some (Char.ofNat 12)
  | 'r' => some '\r'
  | 'e' => some (Char.ofNat 27)
  | ' ' => some ' '
  | '"' => some '"'
  | '/' => some '/'
  | '\\' => some '\\'
  | 'N' => some (Char.ofNat 0x85)
  | '_' => some (Char.ofNat 0xa0)
  | 'L' => some (Char.ofNat 0x2028)
  | 'P' => some (Char.ofNat 0x2029)
  | _ => none

/-- How many hexadecimal digits follow the letter of an escape. -/
def escapeDigits? (c : Char) : Option Nat :=
  match c with
  | 'x' => some 2
  | 'u' => some 4
  | 'U' => some 8
  | _ => none

/-- The character of the escape whose backslash stands at a place, and the place after it. -/
def escape (place : Place) : Except SyntaxError (Char × Place) :=
  match place.char? 1 with
  | none => .error .endOfText
  | some c =>
      match shortEscape? c, escapeDigits? c with
      | some e, _ => .ok (e, place.skip 2)
      | none, some count =>
          let digits := (place.ahead.drop 2).take count
          match hexDigits? 0 digits with
          | some n =>
              if digits.length = count ∧ n.isValidChar then
                .ok (Char.ofNat n, place.skip (2 + count))
              else .error .badEscape
          | none => .error .badEscape
      | none, none => .error .badEscape

/-- The characters of a quoted scalar up to a blank, a line break or the closing quote; `acc` holds
what was read, last first. The last component tells whether an escaped line break ended them. -/
def quotedWord (quote : Char) : Nat → List Char → Place →
    Except SyntaxError (List Char × Place × Bool)
  | 0, acc, place => .ok (acc, place, false)
  | fuel + 1, acc, place =>
      if place.endsAt 0 then .ok (acc, place, false)
      else
        match place.ahead with
        | [] => .ok (acc, place, false)
        | c :: _ =>
            if c = '\'' ∧ quote = '\'' ∧ place.sees 1 (· == '\'') then
              quotedWord quote fuel ('\'' :: acc) (place.skip 2)
            else if c = quote then .ok (acc, place, false)
            else if c = '\\' ∧ quote = '"' then
              if place.sees 1 isBreak then .ok (acc, place.next.takeBreak.2, true)
              else do
                let (e, place) ← escape place
                quotedWord quote fuel (e :: acc) place
            else quotedWord quote fuel (c :: acc) place.next

/-- A quoted scalar after its opening quote. -/
def quotedRest (quote : Char) : Nat → List Char → Place → Except SyntaxError (List Char × Place)
  | 0, _, _ => .error .endOfText
  | fuel + 1, acc, place => do
      if place.atDocumentMark then throw (.misplaced "a document mark")
      if place.ahead.isEmpty then throw .endOfText
      let (acc, place, joined) ← quotedWord quote place.ahead.length acc place
      if place.sees 0 (· == quote) then return (acc.reverse, place.next)
      let (gap, place) ← Gap.take 0 place.ahead.length ⟨[], [], [], joined⟩ place
      quotedRest quote fuel (gap.text.reverse ++ acc) place

/-- Which of the line breaks at the end of a block are kept. -/
inductive Chomping where
  | strip
  | clip
  | keep
  deriving DecidableEq, Repr

/-- The mark of a chomping at a place. -/
def chomping? (place : Place) : Option Chomping :=
  match place.char? 0 with
  | some '-' => some .strip
  | some '+' => some .keep
  | _ => none

/-- The indentation digit at a place; zero is none. -/
def indentDigit? (place : Place) : Except SyntaxError (Option Nat) :=
  match place.char? 0 with
  | some c =>
      if '0' ≤ c ∧ c ≤ '9' then
        if c = '0' then .error (.unexpected c) else .ok (some (c.toNat - '0'.toNat))
      else .ok none
  | none => .ok none

/-- The chomping and the indentation in the header of a block, in either order. -/
def blockHeader (place : Place) : Except SyntaxError (Chomping × Option Nat × Place) := do
  match chomping? place with
  | some chomping =>
      let place := place.next
      match ← indentDigit? place with
      | some digit => return (chomping, some digit, place.next)
      | none => return (chomping, none, place)
  | none =>
      match ← indentDigit? place with
      | some digit =>
          let place := place.next
          match chomping? place with
          | some chomping => return (chomping, some digit, place.next)
          | none => return (.clip, some digit, place)
      | none => return (.clip, none, place)

/-- The line breaks before the next line of a block, the greatest column reached on the way, and the
place after them. Without a known indentation all spaces are passed over. -/
def blockBreaks (indent : Option Nat) : Nat → Nat → List Char → Place →
    Except SyntaxError (List Char × Nat × Place)
  | 0, reached, acc, place => .ok (acc, reached, place)
  | fuel + 1, reached, acc, place =>
      let spaces := (place.ahead.takeWhile (· == ' ')).length
      let taken :=
        match indent with
        | some column => min spaces (column - place.column)
        | none => spaces
      let place := place.skip taken
      let reached := max reached place.column
      let inside :=
        match indent with
        | some column => decide (place.column < column)
        | none => true
      if inside && place.sees 0 (· == '\t') then .error .badIndentation
      else if place.sees 0 isBreak then
        let (lineBreak, place) := place.takeBreak
        blockBreaks indent fuel reached (acc ++ lineBreak) place
      else .ok (acc, reached, place)

/-- A block as far as it was read: its text, last character first, the break after its last line,
the breaks after that, and whether that line began with a blank. -/
structure Block where
  text : List Char
  lastBreak : List Char
  breaks : List Char
  indentedLine : Bool

/-- The block with the breaks that separate it from a line. -/
def Block.join (block : Block) (folded : Bool) (blankStart : Bool) : List Char :=
  let lineBreak :=
    if folded && block.lastBreak == ['\n'] && !block.indentedLine && !blankStart then
      if block.breaks.isEmpty then [' '] else []
    else block.lastBreak
  (lineBreak ++ block.breaks).reverse ++ block.text

/-- The lines of a block that are indented to a column. -/
def blockLines (folded : Bool) (indent : Nat) : Nat → Block → Place →
    Except SyntaxError (Block × Place)
  | 0, block, place => .ok (block, place)
  | fuel + 1, block, place =>
      if place.column = indent ∧ !place.ahead.isEmpty then do
        let blankStart := place.sees 0 isBlank
        let joined := block.join folded blankStart
        let (line, place) := place.takeWhile (!isBreak ·)
        let (lastBreak, place) := place.takeBreak
        let (breaks, _, place) ← blockBreaks (some indent) place.ahead.length 0 [] place
        blockLines folded indent fuel ⟨line.reverse ++ joined, lastBreak, breaks, blankStart⟩ place
      else .ok (block, place)

/-- A block scalar after its mark, inside a block that is indented to the column `outer`. -/
def blockScalar (folded : Bool) (outer : Int) (place : Place) :
    Except SyntaxError (List Char × Place) := do
  let (chomping, digit, place) ← blockHeader place
  let place := place.skipWhile isBlank
  let place := if place.sees 0 (· == '#') then place.skipLine else place
  if !(place.ahead.isEmpty || place.sees 0 isBreak) then throw (.misplaced "a block scalar")
  let place := place.takeBreak.2
  let given := digit.map fun d => if 0 ≤ outer then outer.toNat + d else d
  let (breaks, reached, place) ← blockBreaks given place.ahead.length 0 [] place
  let indent := given.getD (max reached (max (outer + 1).toNat 1))
  let (block, place) ←
    blockLines folded indent place.ahead.length ⟨[], [], breaks, false⟩ place
  let ending :=
    match chomping with
    | .strip => []
    | .clip => block.lastBreak
    | .keep => block.lastBreak ++ block.breaks
  return (block.text.reverse ++ ending, place)

end Yaml

end VersionGroups
