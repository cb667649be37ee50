import VersionGroups.Text.Utf8
import VersionGroups.Yaml.Scalar

/-!
# The tokens of a YAML text

A text is a sequence of tokens. Indentation is made visible as tokens that open and close blocks.
That something is a key is known only when the colon after it is found, so the place of everything
that may turn out to be one is remembered, and the tokens that mark a key are put there later. A key
lies on one line and is not longer than 1024 bytes.
-/

namespace VersionGroups

namespace Yaml

/-- A token. -/
inductive Token where
  | versionDirective (major minor : Nat)
  | tagDirective (handle : String) (replacement : String)
  | documentStart
  | documentEnd
  | blockSequenceStart
  | blockMappingStart
  | blockEnd
  | flowSequenceStart
  | flowSequenceEnd
  | flowMappingStart
  | flowMappingEnd
  | blockEntry
  | flowEntry
  | key
  | value
  | reference (name : String)
  | anchor (name : String)
  | tag (handle suffix : String)
  | scalar (text : String) (style : Style)
  deriving DecidableEq, Repr

/-- What may turn out to be a key: how many tokens precede it and where it begins. One that must be
a key stands where a block is indented to. -/
structure Candidate where
  required : Bool
  before : Nat
  index : Nat
  line : Nat
  column : Nat

/-- What was read of a text. The tokens are held last first; the columns are those of the enclosing
blocks, the innermost first; there is one possible candidate for each collection on one line that is
open, the innermost first, and one for the text around them. -/
structure Lexer where
  place : Place
  tokens : List Token
  count : Nat
  columns : List Nat
  keyAllowed : Bool
  candidate : Option Candidate
  outer : List (Option Candidate)

namespace Lexer

/-- The lexer at the beginning of a text. -/
def start (text : List Char) : Lexer := ⟨.start text, [], 0, [], true, none, []⟩

/-- Whether a collection on one line is open. -/
def inFlow (lexer : Lexer) : Bool := !lexer.outer.isEmpty

/-- The column of the innermost block, one to the left of the text if there is none. -/
def column (lexer : Lexer) : Int :=
  match lexer.columns with
  | [] => -1
  | c :: _ => c

def emit (lexer : Lexer) (token : Token) : Lexer :=
  { lexer with tokens := token :: lexer.tokens, count := lexer.count + 1 }

/-- One more token, put in after the first `before` tokens. -/
def insert (lexer : Lexer) (before : Nat) (token : Token) : Lexer :=
  let later := lexer.count - before
  { lexer with
    tokens := lexer.tokens.take later ++ token :: lexer.tokens.drop later
    count := lexer.count + 1 }

/-- Opens a block at a column to the right of the innermost one, before which `before` tokens
stand. -/
def indentTo (lexer : Lexer) (column : Nat) (before : Nat) (token : Token) : Lexer :=
  if !lexer.inFlow && lexer.column < (column : Int) then
    { lexer.insert before token with columns := column :: lexer.columns }
  else lexer

/-- Closes the blocks to the right of a column. -/
def dedentTo (lexer : Lexer) (column : Int) : Lexer :=
  if lexer.inFlow then lexer
  else
    let closed := lexer.columns.takeWhile (fun (c : Nat) => decide (column < (c : Int)))
    { lexer with
      columns := lexer.columns.drop closed.length
      tokens := List.replicate closed.length .blockEnd ++ lexer.tokens
      count := lexer.count + closed.length }

/-- Gives a candidate up; one that is required to be a key lacks its colon. -/
def forget (lexer : Lexer) : Except SyntaxError Lexer :=
  match lexer.candidate with
  | some c => if c.required then .error .missingColon else .ok { lexer with candidate := none }
  | none => .ok lexer

/-- Remembers that a key may begin at the place. -/
def remember (lexer : Lexer) : Except SyntaxError Lexer :=
  if lexer.keyAllowed then do
    let required := !lexer.inFlow && lexer.column == (lexer.place.column : Int)
    let lexer ← lexer.forget
    return { lexer with
      candidate := some ⟨required, lexer.count, lexer.place.index, lexer.place.line,
        lexer.place.column⟩ }
  else .ok lexer

/-- The greatest length of a key. -/
def longestKey : Nat := 1024

/-- Whether a candidate can no longer be a key at a place. -/
def isStale (place : Place) (candidate : Candidate) : Bool :=
  candidate.line < place.line || candidate.index + longestKey < place.index

/-- What remains of a candidate at a place. -/
def fresh (place : Place) (candidate : Option Candidate) :
    Except SyntaxError (Option Candidate) :=
  match candidate with
  | some c =>
      if isStale place c then if c.required then .error .missingColon else .ok none
      else .ok (some c)
  | none => .ok none

/-- Gives up the candidates that can no longer be keys. -/
def dropStale (lexer : Lexer) : Except SyntaxError Lexer := do
  let candidate ← fresh lexer.place lexer.candidate
  let outer ← lexer.outer.mapM (fresh lexer.place)
  return { lexer with candidate, outer }

/-- The lexer at another place. -/
def goTo (lexer : Lexer) (place : Place) : Lexer := { lexer with place }

/-- Passes over blanks, comments and line breaks, and over the mark that may begin a line. A tab may
not indent what may begin a key. -/
def skipSpace : Nat → Lexer → Lexer
  | 0, lexer => lexer
  | fuel + 1, lexer =>
      let tabs := lexer.inFlow || !lexer.keyAllowed
      let marked := lexer.place.column == 0 && lexer.place.sees 0 (· == byteOrderMark)
      let place := if marked then lexer.place.next else lexer.place
      let place := place.skipWhile fun c => c == ' ' || (tabs && c == '\t')
      let place := if place.sees 0 (· == '#') then place.skipLine else place
      if place.sees 0 isBreak then
        skipSpace fuel
          { lexer with
            place := place.takeBreak.2
            keyAllowed := lexer.keyAllowed || !lexer.inFlow }
      else lexer.goTo place

def isWordChar (c : Char) : Bool :=
  ('a' ≤ c && c ≤ 'z') || ('A' ≤ c && c ≤ 'Z') || ('0' ≤ c && c ≤ '9') || c == '-' || c == '_'

/-- Whether a character may follow the name of an anchor. -/
def endsAnchor (place : Place) : Bool :=
  place.endsAt 0 || place.sees 0 fun c => "?:,]\x7d%@`".toList.contains c

/-- The name of an anchor or an alias after its mark. -/
def anchorName (place : Place) : Except SyntaxError (String × Place) :=
  let (name, place) := place.takeWhile isWordChar
  if name.isEmpty || !endsAnchor place then .error .badAnchor
  else .ok (String.ofList name, place)

/-- Whether a character may occur in a tag. -/
def isTagChar (verbatim : Bool) (c : Char) : Bool :=
  isWordChar c || ";/?:@&=+$.%!~*'()".toList.contains c ||
    (verbatim && (c == ',' || c == '[' || c == ']'))

/-- How many bytes follow the first byte of a character, going by its leading bits. -/
def followers? (byte : Nat) : Option Nat :=
  if byte < 0x80 then some 0
  else if byte < 0xc0 then none
  else if byte < 0xe0 then some 1
  else if byte < 0xf0 then some 2
  else if byte < 0xf8 then some 3
  else none

/-- The bytes of a tag, in which a percent sign and two hexadecimal digits stand for a byte. While
`due` bytes of a character are missing they have to come next. -/
def tagBytes? (due : Nat) : List Char → Option (List UInt8)
  | '%' :: high :: low :: rest => do
      let byte ← hexDigits? 0 [high, low]
      let due ←
        if due = 0 then followers? byte
        else if 0x80 ≤ byte ∧ byte < 0xc0 then some (due - 1)
        else none
      return UInt8.ofNat byte :: (← tagBytes? due rest)
  | c :: rest =>
      if due = 0 ∧ c ≠ '%' then (tagBytes? 0 rest).map (c.toUInt8 :: ·) else none
  | [] => if due = 0 then some [] else none

/-- A piece of a tag, which is cut off at a zero byte; `none` stands for a piece without any
characters. -/
def tagPiece (verbatim : Bool) (place : Place) : Except SyntaxError (Option String × Place) :=
  let (piece, place) := place.takeWhile (isTagChar verbatim)
  if piece.isEmpty then .ok (none, place)
  else
    match tagBytes? 0 piece with
    | some bytes => .ok (some (Utf8.lenient ⟨(bytes.takeWhile (· ≠ 0)).toArray⟩), place)
    | none => .error .badTag

/-- The handle and the suffix of a tag that stands at a place. -/
def tagParts (place : Place) : Except SyntaxError ((String × String) × Place) := do
  if place.sees 1 (· == '<') then
    let (some uri, place) ← tagPiece true (place.skip 2) | throw .badTag
    if place.sees 0 (· == '>') then return (("", uri), place.next)
    throw .badTag
  let (word, after) := place.next.takeWhile isWordChar
  if after.sees 0 (· == '!') then
    let (some suffix, place) ← tagPiece false after.next | throw .badTag
    return ((String.ofList ('!' :: word ++ ['!']), suffix), place)
  let (suffix, place) ← tagPiece false place.next
  let suffix := suffix.getD ""
  return (if suffix = "" then ("", "!") else ("!", suffix), place)

/-- A tag, which a blank, a line break or a comma must follow. -/
def readTag (lexer : Lexer) : Except SyntaxError Lexer := do
  let lexer ← lexer.remember
  let ((handle, suffix), place) ← tagParts lexer.place
  if place.endsAt 0 || (lexer.inFlow && place.sees 0 (· == ',')) then
    return { (lexer.goTo place).emit (.tag handle suffix) with keyAllowed := false }
  throw .badTag

def directiveNumber (place : Place) : Except SyntaxError (Nat × Place) :=
  let (digits, after) := place.takeWhile Char.isDigit
  if digits.isEmpty || 9 < digits.length then .error .badDirective
  else .ok (digits.foldl (fun n c => n * 10 + (c.toNat - '0'.toNat)) 0, after)

/-- What a directive says, after its name. -/
def directiveToken (name : String) (place : Place) : Except SyntaxError (Token × Place) := do
  let place := place.skipWhile isBlank
  match name with
  | "YAML" =>
      let (major, place) ← directiveNumber place
      if !place.sees 0 (· == '.') then throw .badDirective
      let (minor, place) ← directiveNumber place.next
      return (.versionDirective major minor, place)
  | "TAG" =>
      if !place.sees 0 (· == '!') then throw .badDirective
      let (word, after) := place.next.takeWhile isWordChar
      let closed := after.sees 0 (· == '!')
      if !closed && !word.isEmpty then throw .badDirective
      let place := if closed then after.next else after
      if !place.sees 0 isBlank then throw .badDirective
      let (some uri, place) ← tagPiece true (place.skipWhile isBlank) | throw .badDirective
      if !place.endsAt 0 then throw .badDirective
      let handle := '!' :: word ++ (if closed then ['!'] else [])
      return (.tagDirective (String.ofList handle) uri, place)
  | _ => throw .badDirective

/-- A directive, which takes up a line. -/
def readDirective (lexer : Lexer) : Except SyntaxError Lexer := do
  let lexer ← (lexer.dedentTo (-1)).forget
  let (name, place) := lexer.place.next.takeWhile isWordChar
  if name.isEmpty || !place.endsAt 0 then throw .badDirective
  let (token, place) ← directiveToken (String.ofList name) place
  let place := place.skipWhile isBlank
  let place := if place.sees 0 (· == '#') then place.skipLine else place
  if place.ahead.isEmpty || place.sees 0 isBreak then
    return { (lexer.goTo place.takeBreak.2).emit token with keyAllowed := false }
  throw .badDirective

/-- The mark of a document's beginning or end. -/
def readDocumentMark (lexer : Lexer) : Except SyntaxError Lexer := do
  let lexer ← (lexer.dedentTo (-1)).forget
  let token := if lexer.place.sees 0 (· == '-') then Token.documentStart else .documentEnd
  return { (lexer.goTo (lexer.place.skip 3)).emit token with keyAllowed := false }

/-- The opening mark of a collection on one line. -/
def openFlow (lexer : Lexer) (token : Token) : Except SyntaxError Lexer := do
  let lexer ← lexer.remember
  return { (lexer.goTo lexer.place.next).emit token with
    keyAllowed := true
    candidate := none
    outer := lexer.candidate :: lexer.outer }

/-- The closing mark of a collection on one line. -/
def closeFlow (lexer : Lexer) (token : Token) : Except SyntaxError Lexer := do
  let lexer ← lexer.forget
  let (candidate, outer) :=
    match lexer.outer with
    | c :: rest => (c, rest)
    | [] => (none, [])
  return { (lexer.goTo lexer.place.next).emit token with keyAllowed := false, candidate, outer }

/-- The comma between the items of a collection on one line. -/
def flowEntry (lexer : Lexer) : Except SyntaxError Lexer := do
  let lexer ← lexer.forget
  return { (lexer.goTo lexer.place.next).emit .flowEntry with keyAllowed := true }

/-- The dash before an item of a block. -/
def blockEntry (lexer : Lexer) : Except SyntaxError Lexer := do
  if !lexer.inFlow && !lexer.keyAllowed then throw (.misplaced "a block sequence entry")
  let lexer := lexer.indentTo lexer.place.column lexer.count .blockSequenceStart
  let lexer ← lexer.forget
  return { (lexer.goTo lexer.place.next).emit .blockEntry with keyAllowed := true }

/-- The question mark before a key. -/
def keyMark (lexer : Lexer) : Except SyntaxError Lexer := do
  if !lexer.inFlow && !lexer.keyAllowed then throw (.misplaced "a mapping key")
  let lexer := lexer.indentTo lexer.place.column lexer.count .blockMappingStart
  let lexer ← lexer.forget
  return { (lexer.goTo lexer.place.next).emit .key with keyAllowed := !lexer.inFlow }

/-- The colon after a key. -/
def valueMark (lexer : Lexer) : Except SyntaxError Lexer :=
  match lexer.candidate with
  | some c =>
      let lexer := lexer.insert c.before .key
      let lexer := lexer.indentTo c.column c.before .blockMappingStart
      .ok { (lexer.goTo lexer.place.next).emit .value with keyAllowed := false, candidate := none }
  | none => do
      if !lexer.inFlow && !lexer.keyAllowed then throw (.misplaced "a mapping value")
      let lexer := lexer.indentTo lexer.place.column lexer.count .blockMappingStart
      return { (lexer.goTo lexer.place.next).emit .value with keyAllowed := !lexer.inFlow }

def readAnchor (lexer : Lexer) (token : String → Token) : Except SyntaxError Lexer := do
  let lexer ← lexer.remember
  let (name, place) ← anchorName lexer.place.next
  return { (lexer.goTo place).emit (token name) with keyAllowed := false }

def readBlockScalar (lexer : Lexer) (folded : Bool) : Except SyntaxError Lexer := do
  let lexer ← lexer.forget
  let (text, place) ← blockScalar folded lexer.column lexer.place.next
  let token := Token.scalar (String.ofList text) (if folded then .folded else .literal)
  return { (lexer.goTo place).emit token with keyAllowed := true }

def readQuoted (lexer : Lexer) (quote : Char) : Except SyntaxError Lexer := do
  let lexer ← lexer.remember
  let place := lexer.place.next
  let (text, place) ← quotedRest quote (place.ahead.length + 2) [] place
  return { (lexer.goTo place).emit (.scalar (String.ofList text) .quoted) with keyAllowed := false }

/-- A plain scalar. After a line break behind it a key may follow. -/
def readPlain (lexer : Lexer) : Except SyntaxError Lexer := do
  let lexer ← lexer.remember
  let (text, place, broken) ←
    plainRest lexer.inFlow (lexer.column + 1) (lexer.place.ahead.length + 1) [] Gap.none lexer.place
  return { (lexer.goTo place).emit (.scalar (String.ofList text) .plain) with keyAllowed := broken }

/-- Whether a plain scalar may begin at a place. -/
def startsPlain (flow : Bool) (place : Place) : Bool :=
  match place.ahead with
  | [] => false
  | c :: _ =>
      (!isBlank c && !isBreak c && !"-?:,[]\x7b\x7d#&*!|>'\"%@`".toList.contains c) ||
        (c == '-' && !place.sees 1 isBlank) ||
        (!flow && (c == '?' || c == ':') && !place.endsAt 1)

/-- The token that begins with a character. -/
def readToken (lexer : Lexer) (c : Char) : Except SyntaxError Lexer :=
  let place := lexer.place
  let flow := lexer.inFlow
  if c = '%' ∧ place.column = 0 then lexer.readDirective
  else if place.atDocumentMark then lexer.readDocumentMark
  else if c = '[' then lexer.openFlow .flowSequenceStart
  else if c = '{' then lexer.openFlow .flowMappingStart
  else if c = ']' then lexer.closeFlow .flowSequenceEnd
  else if c = '}' then lexer.closeFlow .flowMappingEnd
  else if c = ',' then lexer.flowEntry
  else if c = '-' ∧ place.endsAt 1 then lexer.blockEntry
  else if c = '?' ∧ (flow ∨ place.endsAt 1) then lexer.keyMark
  else if c = ':' ∧ (flow ∨ place.endsAt 1) then lexer.valueMark
  else if c = '*' then lexer.readAnchor .reference
  else if c = '&' then lexer.readAnchor .anchor
  else if c = '!' then lexer.readTag
  else if c = '|' ∧ !flow then lexer.readBlockScalar false
  else if c = '>' ∧ !flow then lexer.readBlockScalar true
  else if c = '\'' ∨ c = '"' then lexer.readQuoted c
  else if startsPlain flow place then lexer.readPlain
  else .error (.unexpected c)

/-- Reads tokens to the end of the text. -/
def readAll : Nat → Lexer → Except SyntaxError (List Token)
  | 0, _ => .error .endOfText
  | fuel + 1, lexer => do
      let lexer ← (lexer.skipSpace (lexer.place.ahead.length + 1)).dropStale
      let lexer := lexer.dedentTo lexer.place.column
      match lexer.place.ahead with
      | [] => return (← (lexer.dedentTo (-1)).forget).tokens.reverse
      | c :: _ => readAll fuel (← lexer.readToken c)

end Lexer

def tokens (text : String) : Except SyntaxError (List Token) :=
  let cs := text.toList
  if !cs.all isAllowed then .error .controlCharacter
  else (Lexer.start cs).readAll (cs.length + 2)

end Yaml

end VersionGroups
