import VersionGroups.Shell.Syntax

/-!
# Reading shell scripts

A script is read character by character. Words end at blanks and at the characters that separate
commands, unless those are quoted; reserved words are recognised where a command may begin.
-/

namespace VersionGroups

namespace Shell

/-- A text that is no script: what does not fit, and how many line breaks come after it. -/
structure SyntaxError where
  message : String
  breaks : Nat
  deriving DecidableEq, Repr

abbrev Reader (α : Type) := List Char → Except SyntaxError (α × List Char)

def isBlank (c : Char) : Bool := c == ' ' || c == '\t'

def endsWord (c : Char) : Bool := isBlank c || "\n;&|<>()".toList.contains c

def isNameStart (c : Char) : Bool := c.isAlpha || c == '_'

def isNameChar (c : Char) : Bool := c.isAlphanum || c == '_'

def isSpecial (c : Char) : Bool := "@*#?$!-".toList.contains c || c.isDigit

/-- The rest of the script after blanks, joined lines and a comment. -/
def skipBlanks : List Char → List Char
  | '\\' :: '\n' :: rest => skipBlanks rest
  | '#' :: rest => rest.dropWhile (· != '\n')
  | c :: rest => if isBlank c then skipBlanks rest else c :: rest
  | [] => []

/-- The rest of the script after blanks, comments and line breaks. -/
def skipLines : Nat → List Char → List Char
  | 0, cs => cs
  | fuel + 1, cs =>
      match skipBlanks cs with
      | '\n' :: rest => skipLines fuel rest
      | cs => cs

def breakCount (cs : List Char) : Nat := cs.countP (· == '\n')

/-- The error with a message before the rest of a script. -/
def syntaxError {α : Type} (message : String) (rest : List Char) : Except SyntaxError α :=
  .error ⟨"Syntax error: " ++ message, breakCount rest⟩

def unterminated {α : Type} : Except SyntaxError α := syntaxError "Unterminated quoted string" []

/-- What stands at the beginning of the rest of a script, as it is shown. -/
def shownStart (cs : List Char) : String :=
  let word := cs.takeWhile (!endsWord ·)
  let inQuotes (text : List Char) : String := "\"" ++ String.ofList text ++ "\""
  match cs with
  | [] => "end of file"
  | '\n' :: _ => "newline"
  | ';' :: ';' :: _ => "\";;\""
  | '&' :: '&' :: _ => "\"&&\""
  | '|' :: '|' :: _ => "\"||\""
  | c :: _ => if !word.isEmpty then inQuotes word else inQuotes [c]

/-- The error where something does not fit. -/
def unexpected {α : Type} (cs : List Char) : Except SyntaxError α :=
  syntaxError (shownStart cs ++ " unexpected") (if cs.head? = some '\n' then cs.tail else cs)

/-- The error where one thing only would fit. -/
def unexpectedFor {α : Type} (expected : String) (cs : List Char) : Except SyntaxError α :=
  syntaxError (shownStart cs ++ s!" unexpected (expecting \"{expected}\")")
    (if cs.head? = some '\n' then cs.tail else cs)

/-- The text up to the closing character of something nested, and the rest after it; `missing` tells
that there is no closing character. -/
def nested (opening closing : Char) (missing : String) :
    Nat → Nat → List Char → Reader (List Char)
  | 0, _, _, _ => syntaxError missing []
  | fuel + 1, depth, acc, cs =>
      match cs with
      | [] => syntaxError missing []
      | '\\' :: c :: rest => nested opening closing missing fuel depth (c :: '\\' :: acc) rest
      | '\'' :: rest =>
          let inner := rest.takeWhile (· != '\'')
          nested opening closing missing fuel depth ('\'' :: inner.reverse ++ '\'' :: acc)
            (rest.drop (inner.length + 1))
      | c :: rest =>
          if c = closing then
            match depth with
            | 0 => .ok (acc.reverse, rest)
            | depth + 1 => nested opening closing missing fuel depth (c :: acc) rest
          else
            nested opening closing missing fuel (if c = opening then depth + 1 else depth)
              (c :: acc) rest

/-- The modifier that is written after the name of a parameter between braces. -/
def modifier? (cs : List Char) : Option (Option Modifier) :=
  match cs with
  | [] => some none
  | ':' :: '-' :: word => some (some (.whenUnset true word))
  | '-' :: word => some (some (.whenUnset false word))
  | ':' :: '=' :: word => some (some (.setUnset true word))
  | '=' :: word => some (some (.setUnset false word))
  | ':' :: '?' :: message => some (some (.required true message))
  | '?' :: message => some (some (.required false message))
  | ':' :: '+' :: word => some (some (.whenSet true word))
  | '+' :: word => some (some (.whenSet false word))
  | '#' :: '#' :: pattern => some (some (.withoutStart true pattern))
  | '#' :: pattern => some (some (.withoutStart false pattern))
  | '%' :: '%' :: pattern => some (some (.withoutEnd true pattern))
  | '%' :: pattern => some (some (.withoutEnd false pattern))
  | _ => none

/-- The name of a parameter at the beginning of what stands between braces. -/
def parameterName (cs : List Char) : List Char × List Char :=
  match cs with
  | c :: rest =>
      if isNameStart c then (cs.takeWhile isNameChar, cs.dropWhile isNameChar)
      else if c.isDigit then (cs.takeWhile Char.isDigit, cs.dropWhile Char.isDigit)
      else if isSpecial c then ([c], rest)
      else ([], cs)
  | [] => ([], [])

def bracedPiece (quoted : Bool) (inner : List Char) : Except SyntaxError Piece :=
  let bad : Except SyntaxError Piece := .error ⟨"Bad substitution", 0⟩
  match inner with
  | '#' :: c :: rest =>
      let (name, rest) := parameterName (c :: rest)
      if rest.isEmpty && !name.isEmpty then
        .ok (.parameter quoted (String.ofList name) (some .length))
      else bad
  | _ =>
      let (name, rest) := parameterName inner
      match modifier? rest with
      | some modifier =>
          if name.isEmpty then bad else .ok (.parameter quoted (String.ofList name) modifier)
      | none => bad

def dollar (quoted : Bool) (cs : List Char) : Except SyntaxError (Piece × List Char) := do
  match cs with
  | '(' :: '(' :: rest =>
      let missing := "Missing '))'"
      let (inner, rest) ← nested '(' ')' missing (rest.length + 1) 0 [] rest
      match rest with
      | ')' :: rest => return (.arithmetic inner, rest)
      | _ => syntaxError missing []
  | '(' :: rest =>
      let missing := "end of file unexpected (expecting \")\")"
      let (inner, rest) ← nested '(' ')' missing (rest.length + 1) 0 [] rest
      return (.output quoted inner, rest)
  | '{' :: rest =>
      let (inner, rest) ← nested '{' '}' "Missing '\x7d'" (rest.length + 1) 0 [] rest
      return (← bracedPiece quoted inner, rest)
  | c :: rest =>
      if isNameStart c then
        return (.parameter quoted (String.ofList (cs.takeWhile isNameChar)) none,
          cs.dropWhile isNameChar)
      else if isSpecial c then return (.parameter quoted (String.ofList [c]) none, rest)
      else return (.text quoted ['$'], cs)
  | [] => return (.text quoted ['$'], [])

def backquoted : List Char → Reader (List Char)
  | _, [] => syntaxError "EOF in backquote substitution" []
  | acc, '`' :: rest => .ok (acc.reverse, rest)
  | acc, '\\' :: c :: rest =>
      if c = '`' ∨ c = '\\' ∨ c = '$' then backquoted (c :: acc) rest
      else backquoted (c :: '\\' :: acc) rest
  | acc, c :: rest => backquoted (c :: acc) rest

/-- The pieces of a text between double quotes, after the opening one; `acc` holds those read, last
first. -/
def doubleQuoted : Nat → Word → Reader Word
  | 0, _, _ => unterminated
  | fuel + 1, acc, cs =>
      match cs with
      | [] => unterminated
      | '"' :: rest => .ok (acc.reverse, rest)
      | '\\' :: '\n' :: rest => doubleQuoted fuel acc rest
      | '\\' :: c :: rest =>
          if c = '"' ∨ c = '\\' ∨ c = '$' ∨ c = '`' then
            doubleQuoted fuel (.text true [c] :: acc) rest
          else doubleQuoted fuel (.text true ['\\', c] :: acc) rest
      | '$' :: rest => do
          let (piece, rest) ← dollar true rest
          doubleQuoted fuel (piece :: acc) rest
      | '`' :: rest => do
          let (script, rest) ← backquoted [] rest
          doubleQuoted fuel (.output true script :: acc) rest
      | c :: rest => doubleQuoted fuel (.text true [c] :: acc) rest

/-- The rest of a word; `acc` holds the pieces read, last first. A nested word, which is all of its
text, has no end before that of the text. -/
def wordRest (whole : Bool) : Nat → Word → Reader Word
  | 0, acc, cs => .ok (acc.reverse, cs)
  | fuel + 1, acc, cs =>
      match cs with
      | [] => .ok (acc.reverse, [])
      | '\\' :: '\n' :: rest => wordRest whole fuel acc rest
      | '\\' :: c :: rest => wordRest whole fuel (.text true [c] :: acc) rest
      | '\'' :: rest =>
          let inner := rest.takeWhile (· != '\'')
          match rest.drop inner.length with
          | _ :: rest => wordRest whole fuel (.text true inner :: acc) rest
          | [] => unterminated
      | '"' :: rest => do
          let (pieces, rest) ← doubleQuoted (rest.length + 1) [] rest
          wordRest whole fuel (pieces.reverse ++ .text true [] :: acc) rest
      | '$' :: rest => do
          let (piece, rest) ← dollar false rest
          wordRest whole fuel (piece :: acc) rest
      | '`' :: rest => do
          let (script, rest) ← backquoted [] rest
          wordRest whole fuel (.output false script :: acc) rest
      | c :: rest =>
          if endsWord c && !whole then .ok (acc.reverse, cs)
          else wordRest whole fuel (.text false [c] :: acc) rest

def word : Reader Word := fun cs => wordRest false (cs.length + 1) [] cs

def wholeWord (cs : List Char) : Except SyntaxError Word :=
  (wordRest true (cs.length + 1) [] cs).map (·.1)

def closingWords : List String := ["then", "else", "elif", "fi", "do", "done", "esac", "\x7d"]

def leadingWord (cs : List Char) : String := String.ofList (cs.takeWhile (!endsWord ·))

def atListEnd (cs : List Char) : Bool :=
  match cs with
  | [] => true
  | ')' :: _ => true
  | ';' :: ';' :: _ => true
  | _ => closingWords.contains (leadingWord cs)

/-- The rest of the script after a reserved word. -/
def expectWord (expected : String) (cs : List Char) : Except SyntaxError (List Char) :=
  let cs := skipLines (cs.length + 1) cs
  if leadingWord cs = expected then .ok (cs.drop expected.length) else unexpectedFor expected cs

/-- The pieces of an inserted text, in which quotes stand for themselves; `acc` holds those read,
last first. -/
def insertedText : Nat → Word → List Char → Except SyntaxError Word
  | 0, acc, _ => .ok acc.reverse
  | fuel + 1, acc, cs =>
      match cs with
      | [] => .ok acc.reverse
      | '\\' :: '\n' :: rest => insertedText fuel acc rest
      | '\\' :: c :: rest =>
          if c = '\\' ∨ c = '$' ∨ c = '`' then insertedText fuel (.text true [c] :: acc) rest
          else insertedText fuel (.text true ['\\', c] :: acc) rest
      | '$' :: rest => do
          let (piece, rest) ← dollar true rest
          insertedText fuel (piece :: acc) rest
      | '`' :: rest => do
          let (script, rest) ← backquoted [] rest
          insertedText fuel (.output true script :: acc) rest
      | c :: rest => insertedText fuel (.text true [c] :: acc) rest

/-- The lines up to one that ends an inserted text, and the rest of the script after it. With
`indented`, tabs at the beginning of lines are left out. -/
def insertedLines (indented : Bool) (ending : List Char) :
    Nat → List Char → List Char × List Char
  | 0, cs => ([], cs)
  | _ + 1, [] => ([], [])
  | fuel + 1, cs =>
      let line := cs.takeWhile (· != '\n')
      let rest := cs.drop line.length
      let shown := if indented then line.dropWhile (· == '\t') else line
      if shown = ending then ([], rest.tail)
      else
        let (others, after) := insertedLines indented ending fuel rest.tail
        (shown ++ rest.take 1 ++ others, after)

/-- A text that is inserted as the input of a command. The text begins on the next line. -/
def insertion (stream : Nat) (cs : List Char) :
    Except SyntaxError (Redirection × List Char) := do
  let indented := cs.head? == some '-'
  let (mark, rest) ← word (skipBlanks (if indented then cs.tail else cs))
  let isQuoted := mark.any fun piece =>
    match piece with
    | .text quoted _ => quoted
    | _ => false
  let ending := mark.flatMap fun piece =>
    match piece with
    | .text _ cs => cs
    | _ => []
  let line := rest.takeWhile (· != '\n')
  let below := rest.drop line.length
  let (content, after) := insertedLines indented ending (below.length + 1) below.tail
  let pieces ←
    if isQuoted then pure [Piece.text true content]
    else insertedText (content.length + 1) [] content
  return (.text stream pieces, line ++ below.take 1 ++ after)

/-- A redirection after the digit of its stream, if one is given. -/
def redirectionRest (stream : Option Nat) (cs : List Char) :
    Except SyntaxError (Option (Redirection × List Char)) := do
  let operand (make : Word → Redirection) (cs : List Char) :
      Except SyntaxError (Option (Redirection × List Char)) := do
    let (operand, rest) ← word (skipBlanks cs)
    if operand.isEmpty then unexpected rest
    return some (make operand, rest)
  match cs with
  | '>' :: '&' :: rest => operand (.copy (stream.getD 1)) rest
  | '<' :: '&' :: rest => operand (.copy (stream.getD 0)) rest
  | '<' :: '<' :: rest => return some (← insertion (stream.getD 0) rest)
  | '<' :: '>' :: rest => operand (.update (stream.getD 0)) rest
  | '>' :: '>' :: rest => operand (.append (stream.getD 1)) rest
  | '>' :: '|' :: rest => operand (.output (stream.getD 1)) rest
  | '>' :: rest => operand (.output (stream.getD 1)) rest
  | '<' :: rest => operand (.input (stream.getD 0)) rest
  | _ => return none

def redirection? (cs : List Char) : Except SyntaxError (Option (Redirection × List Char)) :=
  match cs with
  | c :: rest =>
      if c.isDigit && (rest.head? == some '>' || rest.head? == some '<') then
        redirectionRest (some (c.toNat - '0'.toNat)) rest
      else redirectionRest none cs
  | [] => .ok none

def redirections : Nat → Reader (List Redirection)
  | 0, cs => .ok ([], cs)
  | fuel + 1, cs => do
      match ← redirection? (skipBlanks cs) with
      | some (r, rest) =>
          let (others, rest) ← redirections fuel rest
          return (r :: others, rest)
      | none => return ([], cs)

/-- The assignment that a text is, if it is one. -/
def assignment? (cs : List Char) : Option (String × List Char) :=
  let name := cs.takeWhile isNameChar
  match cs.drop name.length with
  | '=' :: rest =>
      if name.head?.any isNameStart then some (String.ofList name, rest) else none
  | _ => none

/-- A simple command of a line: `assigns` and `words` hold what was read, last first. -/
def simpleRest (line : Nat) : Nat → List (String × Word) → List Word → List Redirection → Reader Command
  | 0, _, _, _, cs => unexpected cs
  | fuel + 1, assigns, words, redirs, cs => do
      let cs := skipBlanks cs
      match ← redirection? cs with
      | some (r, rest) => simpleRest line fuel assigns words (r :: redirs) rest
      | none =>
          match cs with
          | [] => return (.simple line assigns.reverse words.reverse redirs.reverse, [])
          | c :: _ =>
              if endsWord c then
                return (.simple line assigns.reverse words.reverse redirs.reverse, cs)
              else
                match if words.isEmpty then assignment? cs else none with
                | some (name, rest) =>
                    let (value, rest) ← word rest
                    simpleRest line fuel ((name, value) :: assigns) words redirs rest
                | none =>
                    let (w, rest) ← word cs
                    simpleRest line fuel assigns (w :: words) redirs rest

def wordList : Nat → Reader (List Word)
  | 0, cs => .ok ([], cs)
  | fuel + 1, cs => do
      match skipBlanks cs with
      | [] => return ([], [])
      | c :: rest =>
          if endsWord c then return ([], c :: rest)
          else
            let (w, rest) ← word (c :: rest)
            let (others, rest) ← wordList fuel rest
            return (w :: others, rest)

/-- The patterns of a branch, up to the closing parenthesis. -/
def patterns : Nat → Reader (List Word)
  | 0, cs => unexpected cs
  | fuel + 1, cs => do
      let (w, rest) ← word (skipBlanks cs)
      match skipBlanks rest with
      | ')' :: rest => return ([w], rest)
      | '|' :: rest =>
          let (others, rest) ← patterns fuel rest
          return (w :: others, rest)
      | rest => unexpectedFor ")" rest

/-- The rest of the script after the separator of a loop's head. -/
def afterSeparator (cs : List Char) : List Char :=
  match skipBlanks cs with
  | ';' :: rest => rest
  | cs => cs

/-- Whether the definition of a function begins here: a name with empty parentheses after it. -/
def opensBody (cs : List Char) : Bool :=
  let name := cs.takeWhile isNameChar
  name.head?.any isNameStart &&
    match skipBlanks (cs.drop name.length) with
    | '(' :: rest => (skipBlanks rest).head? == some ')'
    | _ => false

def bodyOf (cs : List Char) : List Char :=
  let rest := (cs.dropWhile (· != ')')).tail
  skipLines (rest.length + 1) rest

mutual

/-- Commands up to the end of a list. A command is on the line whose number is the difference of
`breaks` and the line breaks after its beginning. -/
def list (breaks : Nat) : Nat → Reader Command
  | 0, cs => unexpected cs
  | fuel + 1, cs => do
      let cs := skipLines (cs.length + 1) cs
      if atListEnd cs then return (.nothing, cs)
      let (first, rest) ← chain breaks fuel cs
      match skipBlanks rest with
      | ';' :: ';' :: rest => return (first, ';' :: ';' :: rest)
      | ';' :: rest =>
          let (others, rest) ← list breaks fuel rest
          return (.sequence first others, rest)
      | '&' :: rest =>
          let (others, rest) ← list breaks fuel rest
          return (.sequence (.background first) others, rest)
      | '\n' :: rest =>
          let (others, rest) ← list breaks fuel rest
          return (.sequence first others, rest)
      | rest => return (first, rest)

/-- Commands up to the end of a list, of which there must be one. -/
def filledList (breaks : Nat) : Nat → Reader Command
  | 0, cs => unexpected cs
  | fuel + 1, cs => do
      let (commands, rest) ← list breaks fuel cs
      match commands with
      | .nothing => if rest.isEmpty then return (commands, rest) else unexpected rest
      | _ => return (commands, rest)

/-- Commands joined by conjunctions and disjunctions, which bind alike and to the left. -/
def chain (breaks : Nat) : Nat → Reader Command
  | 0, cs => unexpected cs
  | fuel + 1, cs => do
      let (first, rest) ← pipeline breaks fuel cs
      chainRest breaks fuel first rest

/-- The rest of joined commands after the first ones. -/
def chainRest (breaks : Nat) : Nat → Command → Reader Command
  | 0, first, cs => .ok (first, cs)
  | fuel + 1, first, cs => do
      match skipBlanks cs with
      | '&' :: '&' :: rest =>
          let (second, rest) ← pipeline breaks fuel (skipLines (rest.length + 1) rest)
          chainRest breaks fuel (.conjunction first second) rest
      | '|' :: '|' :: rest =>
          let (second, rest) ← pipeline breaks fuel (skipLines (rest.length + 1) rest)
          chainRest breaks fuel (.disjunction first second) rest
      | rest => return (first, rest)

def pipeline (breaks : Nat) : Nat → Reader Command
  | 0, cs => unexpected cs
  | fuel + 1, cs => do
      let cs := skipBlanks cs
      if leadingWord cs = "!" then
        let (inner, rest) ← pipeline breaks fuel (cs.drop 1)
        return (.negation inner, rest)
      let (first, rest) ← command breaks fuel cs
      match skipBlanks rest with
      | '|' :: '|' :: rest => return (first, '|' :: '|' :: rest)
      | '|' :: rest =>
          let (second, rest) ← pipeline breaks fuel (skipLines (rest.length + 1) rest)
          return (.pipe first second, rest)
      | rest => return (first, rest)

def loopBody (breaks : Nat) : Nat → Reader Command
  | 0, cs => unexpected cs
  | fuel + 1, cs => do
      let (body, rest) ← filledList breaks fuel (← expectWord "do" cs)
      return (body, ← expectWord "done" rest)

/-- The rest of a conditional after its test's opening word. -/
def conditionalRest (breaks : Nat) : Nat → Reader Command
  | 0, cs => unexpected cs
  | fuel + 1, cs => do
      let (test, rest) ← filledList breaks fuel cs
      let (body, rest) ← filledList breaks fuel (← expectWord "then" rest)
      let rest := skipLines (rest.length + 1) rest
      match leadingWord rest with
      | "elif" =>
          let (alternative, rest) ← conditionalRest breaks fuel (rest.drop 4)
          return (.conditional test body alternative, rest)
      | "else" =>
          let (alternative, rest) ← filledList breaks fuel (rest.drop 4)
          return (.conditional test body alternative, ← expectWord "fi" rest)
      | _ => return (.conditional test body .nothing, ← expectWord "fi" rest)

def branches (breaks : Nat) : Nat → Reader (List (List Word × Command))
  | 0, cs => unexpected cs
  | fuel + 1, cs => do
      let cs := skipLines (cs.length + 1) cs
      if leadingWord cs = "esac" then return ([], cs.drop 4)
      let cs := if cs.head? = some '(' then cs.tail else cs
      let (tests, rest) ← patterns (cs.length + 1) cs
      let (body, rest) ← list breaks fuel rest
      match skipLines (rest.length + 1) rest with
      | ';' :: ';' :: rest =>
          let (others, rest) ← branches breaks fuel rest
          return ((tests, body) :: others, rest)
      | rest => return ([(tests, body)], ← expectWord "esac" rest)

def command (breaks : Nat) : Nat → Reader Command
  | 0, cs => unexpected cs
  | fuel + 1, cs => do
      let cs := skipBlanks cs
      match cs with
      | '(' :: rest =>
          let (body, rest) ← filledList breaks fuel rest
          match skipLines (rest.length + 1) rest with
          | ')' :: rest =>
              let (redirs, rest) ← redirections (rest.length + 1) rest
              return (.subshell body redirs, rest)
          | rest => unexpectedFor ")" rest
      | _ =>
          match leadingWord cs with
          | "\x7b" =>
              let (body, rest) ← filledList breaks fuel (cs.drop 1)
              let rest ← expectWord "\x7d" rest
              let (redirs, rest) ← redirections (rest.length + 1) rest
              return (.group body redirs, rest)
          | "if" => withRedirections (← conditionalRest breaks fuel (cs.drop 2))
          | "while" =>
              let (test, rest) ← filledList breaks fuel (cs.drop 5)
              let (body, rest) ← loopBody breaks fuel rest
              withRedirections (.loop false test body, rest)
          | "until" =>
              let (test, rest) ← filledList breaks fuel (cs.drop 5)
              let (body, rest) ← loopBody breaks fuel rest
              withRedirections (.loop true test body, rest)
          | "for" =>
              let cs := skipBlanks (cs.drop 3)
              let name := cs.takeWhile isNameChar
              let rest := cs.drop name.length
              let body := skipLines (rest.length + 1) rest
              if !name.head?.any isNameStart then syntaxError "Bad for loop variable" rest
              else if leadingWord body = "in" then
                let (words, rest) ← wordList (body.length + 1) (body.drop 2)
                let (body, rest) ← loopBody breaks fuel (afterSeparator rest)
                withRedirections (.each (String.ofList name) (some words) body, rest)
              else
                let (body, rest) ← loopBody breaks fuel (afterSeparator rest)
                withRedirections (.each (String.ofList name) none body, rest)
          | "case" =>
              let (subject, rest) ← word (skipBlanks (cs.drop 4))
              let rest ← expectWord "in" rest
              let (found, rest) ← branches breaks fuel rest
              withRedirections (.choice subject found, rest)
          | leading =>
              if closingWords.contains leading then unexpected cs
              else if opensBody cs then
                let (body, rest) ← command breaks fuel (bodyOf cs)
                return (.define leading body, rest)
              else
                let line := breaks - breakCount cs
                let (c, rest) ← simpleRest line (cs.length + 2) [] [] [] cs
                match c with
                | .simple _ [] [] [] => unexpected rest
                | c => return (c, rest)

def withRedirections (parsed : Command × List Char) :
    Except SyntaxError (Command × List Char) := do
  let (redirs, rest) ← redirections (parsed.2.length + 1) parsed.2
  return (if redirs.isEmpty then parsed.1 else .group parsed.1 redirs, rest)

end

/-- Commands up to the end of a line, or to that of the last one that the line begins. -/
def lineCommands (breaks : Nat) : Nat → Reader Command
  | 0, cs => unexpected cs
  | fuel + 1, cs => do
      let cs := skipBlanks cs
      match cs with
      | [] => return (.nothing, [])
      | '\n' :: rest => return (.nothing, rest)
      | cs =>
          if atListEnd cs then unexpected cs
          let (first, rest) ← chain breaks (4 * cs.length + 8) cs
          match skipBlanks rest with
          | ';' :: ';' :: rest => unexpected (';' :: ';' :: rest)
          | ';' :: rest =>
              let (others, rest) ← lineCommands breaks fuel rest
              return (.sequence first others, rest)
          | '&' :: rest =>
              let (others, rest) ← lineCommands breaks fuel rest
              return (.sequence (.background first) others, rest)
          | '\n' :: rest => return (first, rest)
          | [] => return (first, [])
          | rest => unexpected rest

/-- The commands of the first line of a script that has any, and the rest of the script; `breaks` is
the number of the line behind all. -/
def nextCommands (breaks : Nat) (cs : List Char) :
    Except SyntaxError (Option (Command × List Char)) :=
  match skipLines (cs.length + 1) cs with
  | [] => .ok none
  | cs => (lineCommands breaks (cs.length + 2) cs).map some

end Shell

end VersionGroups
