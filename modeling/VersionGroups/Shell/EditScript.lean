import VersionGroups.Shell.Regex

/-!
# Scripts of edits

A script is a list of rules. A rule has the lines that it applies to and an edit; a block of rules
is a rule of its own that leads past the block where it does not apply. An error tells how much of
the script was left to read when it was found.
-/

namespace VersionGroups

namespace Shell

/-- Which case the letters of a replacement take. -/
inductive CaseChange where
  | lower
  | upper
  | lowerNext
  | upperNext
  | unchanged
  deriving DecidableEq, Repr

/-- A part of a replacement: a text, what a group has matched, or a change of case; group zero is
the whole match. -/
inductive ReplacementPart where
  | text (c : Char)
  | matched (group : Nat)
  | change (change : CaseChange)
  deriving DecidableEq, Repr

/-- A replacement of matches of an expression, the last one used if it has none of its own: from a
match of some number on, one of them or all, and what is done with the line then. -/
structure Substitution where
  regex : Option Regex
  parts : List ReplacementPart
  number : Nat
  all : Bool
  shown : Bool
  file : Option String

/-- What is done to a line. -/
inductive Edit where
  | openBlock
  | closeBlock
  | append (text : List Char)
  | insert (text : List Char)
  | change (text : List Char)
  | label (name : String)
  | branch (name : String)
  | branchIf (name : String)
  | branchUnless (name : String)
  | delete
  | deleteFirst
  | takeHeld
  | takeHeldMore
  | hold
  | holdMore
  | exchange
  | list
  | next
  | nextMore
  | print
  | printFirst
  | quit (status : Nat)
  | quitSilently (status : Nat)
  | insertFile (path : String)
  | writeFile (path : String)
  | substitute (substitution : Substitution)
  | replaceChars (pairs : List (Char × Char))
  | number
  | clear
  | nothing

/-- A line that a rule names: by number, every so many lines, the last one, or by an expression. -/
inductive LineName where
  | number (n : Nat)
  | every (first step : Nat)
  | last
  | holding (regex : Option Regex)

/-- Where a range of lines ends: at a line, so many lines on, or at a multiple. -/
inductive RangeEnd where
  | line (name : LineName)
  | more (count : Nat)
  | multiple (n : Nat)

/-- The lines that a rule applies to. -/
inductive LineChoice where
  | every
  | one (line : LineName)
  | range (first : LineName) (last : RangeEnd)

/-- An edit with the lines that it applies to, or with those that it spares. -/
structure EditRule where
  choice : LineChoice
  spares : Bool
  edit : Edit

/-- What does not fit in a script, and how much of it was left, if it has a place. -/
structure EditError where
  message : String
  left : Option Nat

abbrev EditReader (α : Type) := List Char → Except EditError (α × List Char)

def editError {α : Type} (message : String) (rest : List Char) : Except EditError α :=
  .error ⟨message, rest.length⟩

/-- The characters of a set in brackets up to its end, after the opening bracket; none if there is
no end. -/
def bracketLength : Nat → Bool → List Char → Option Nat
  | 0, _, _ => none
  | fuel + 1, first, cs =>
      match cs with
      | [] => none
      | '\n' :: _ => none
      | ']' :: rest =>
          if first then (bracketLength fuel false rest).map (· + 1) else some 1
      | '^' :: rest => (bracketLength fuel first rest).map (· + 1)
      | '[' :: mark :: rest =>
          if mark = ':' ∨ mark = '.' ∨ mark = '=' then
            let inner := rest.takeWhile (· != ']')
            (bracketLength fuel false (rest.drop (inner.length + 1))).map (· + inner.length + 3)
          else (bracketLength fuel false (mark :: rest)).map (· + 1)
      | _ :: rest => (bracketLength fuel false rest).map (· + 1)

/-- The text up to a delimiter and the rest after it; none if a line ends before. A backslash takes
the meaning of a delimiter away. -/
def delimited (isRegex : Bool) (delimiter : Char) :
    Nat → List Char → Option (List Char × List Char)
  | 0, _ => none
  | fuel + 1, cs =>
      let go (taken rest : List Char) : Option (List Char × List Char) :=
        (delimited isRegex delimiter fuel rest).map fun r => (taken ++ r.1, r.2)
      match cs with
      | [] => none
      | '\n' :: rest => if isRegex then none else go ['\n'] rest
      | '\\' :: 'n' :: rest => if isRegex then go ['\n'] rest else go ['\\', 'n'] rest
      | '\\' :: c :: rest =>
          if c = '\n' ∨ (c = delimiter ∧ (isRegex ∨ c ≠ '&')) then go [c] rest
          else go ['\\', c] rest
      | c :: rest =>
          if c = delimiter then some ([], rest)
          else if c = '[' ∧ isRegex then
            match bracketLength rest.length true rest with
            | some n => go (c :: rest.take n) (rest.drop n)
            | none => go [c] rest
          else go [c] rest

/-- The code of a number behind a backslash and a letter for its base, and the rest. -/
def escapedCode? (c : Char) (rest : List Char) : Option (Char × List Char) :=
  let read (base count : Nat) : Option (Char × List Char) :=
    let digits := (rest.take count).takeWhile fun d => (hexDigit? d).any (· < base)
    (baseValue? base digits).map fun n => (Char.ofNat (n % 256), rest.drop digits.length)
  match c with
  | 'x' => read 16 2
  | 'o' => read 8 3
  | 'd' => read 10 3
  | _ => none

/-- A text with its escapes of control characters replaced; other backslashes stay. -/
def plainEscapes : Nat → List Char → List Char
  | 0, cs => cs
  | _ + 1, [] => []
  | fuel + 1, '\\' :: c :: rest =>
      match (if "aftv".toList.contains c then escapeCode? c else none), escapedCode? c rest with
      | some b, _ => byteChar b :: plainEscapes fuel rest
      | none, some (d, rest) => d :: plainEscapes fuel rest
      | none, none => '\\' :: c :: plainEscapes fuel rest
  | fuel + 1, c :: rest => c :: plainEscapes fuel rest

def replacementOf : Nat → List Char → List ReplacementPart
  | 0, _ => []
  | fuel + 1, cs =>
      match cs with
      | '\\' :: c :: rest =>
          let part : ReplacementPart :=
            if c.isDigit then .matched (c.toNat - '0'.toNat)
            else
              match c with
              | 'n' => .text '\n'
              | 'L' => .change .lower
              | 'U' => .change .upper
              | 'l' => .change .lowerNext
              | 'u' => .change .upperNext
              | 'E' => .change .unchanged
              | c => .text c
          part :: replacementOf fuel rest
      | '&' :: rest => .matched 0 :: replacementOf fuel rest
      | c :: rest => .text c :: replacementOf fuel rest
      | [] => []

/-- The expression of a text in a script; an empty one stands for the last one used. -/
def scriptRegex (extended anyCase : Bool) (text rest : List Char) :
    Except EditError (Option Regex) :=
  if text.isEmpty then .ok none
  else
    match Regex.ofText extended (wide (plainEscapes text.length text)) with
    | .ok regex => .ok (some (if anyCase then regex.anyCase else regex))
    | .error message => editError message rest

def leadingCount? (cs : List Char) : Option (Nat × List Char) :=
  let digits := cs.takeWhile Char.isDigit
  (baseValue? 10 digits).map (·, cs.drop digits.length)

/-- A line that is named at the beginning, if there is one. -/
def lineName (extended : Bool) (cs : List Char) :
    Except EditError (Option (LineName × List Char)) := do
  let expression (delimiter : Char) (rest : List Char) :
      Except EditError (Option (LineName × List Char)) := do
    match delimited true delimiter (rest.length + 1) rest with
    | none => editError "unterminated address regex" (rest.dropWhile (· != '\n'))
    | some (text, rest) =>
        let flags := rest.takeWhile fun c => c == 'I' || c == 'M'
        let after := rest.drop flags.length
        return some (.holding (← scriptRegex extended (flags.contains 'I') text after), after)
  match cs with
  | '$' :: rest => return some (.last, rest)
  | '/' :: rest => expression '/' rest
  | '\\' :: delimiter :: rest => expression delimiter rest
  | cs =>
      match leadingCount? cs with
      | none => return none
      | some (n, '~' :: rest) =>
          match leadingCount? rest with
          | some (step, rest) => return some (.every n step, rest)
          | none => return some (.number n, rest)
      | some (n, rest) => return some (.number n, rest)

def skipGaps (cs : List Char) : List Char := cs.dropWhile fun c => c == ' ' || c == '\t'

def lineChoice (extended : Bool) (cs : List Char) :
    Except EditError (LineChoice × List Char) := do
  match ← lineName extended cs with
  | none => return (.every, cs)
  | some (first, rest) =>
      match skipGaps rest with
      | ',' :: rest =>
          let rest := skipGaps rest
          let plain (kind : Nat → RangeEnd) (digits : List Char) :
              Except EditError (LineChoice × List Char) :=
            match leadingCount? digits with
            | some (n, rest) => .ok (.range first (kind n), rest)
            | none => editError "expected newer version of sed" digits
          match rest with
          | '+' :: digits => plain .more digits
          | '~' :: digits => plain .multiple digits
          | _ =>
              match ← lineName extended rest with
              | some (final, rest) => return (.range first (.line final), rest)
              | none => editError "unexpected `,'" rest.tail
      | _ =>
          match first with
          | .number 0 => editError "invalid usage of line address 0" rest.tail
          | _ => return (.one first, rest)

/-- The text behind an edit that takes lines of text: on the next lines, which end with a backslash
except the last, or on the same line. -/
def editText (cs : List Char) : Except EditError (List Char × List Char) :=
  let rest := skipGaps cs
  match rest with
  | [] => editError "expected \\ after `a', `c' or `i'" []
  | '\\' :: more =>
      match skipGaps more with
      | '\n' :: body => .ok (textLines (body.length + 1) body)
      | body => .ok (textLines (body.length + 1) body)
  | body => .ok (textLines (body.length + 1) body)
where
  /-- The text up to a line break without a backslash, with one at its end, and the rest. -/
  textLines : Nat → List Char → List Char × List Char
    | 0, cs => (['\n'], cs)
    | fuel + 1, cs =>
        match cs with
        | [] => (['\n'], [])
        | ['\\'] => (['\n'], [])
        | '\n' :: rest => (['\n'], rest)
        | '\\' :: c :: rest =>
            let (text, rest) := textLines fuel rest
            (c :: text, rest)
        | c :: rest =>
            let (text, rest) := textLines fuel rest
            (c :: text, rest)

def substitutionFlags (substitution : Substitution) (anyCase : Bool) :
    Nat → List Char → Except EditError (Substitution × Bool × List Char)
  | 0, cs => .ok (substitution, anyCase, cs)
  | fuel + 1, cs =>
      match cs with
      | 'g' :: rest =>
          if substitution.all then editError "multiple `g' options to `s' command" rest
          else substitutionFlags { substitution with all := true } anyCase fuel rest
      | 'p' :: rest =>
          if substitution.shown then editError "multiple `p' options to `s' command" rest
          else substitutionFlags { substitution with shown := true } anyCase fuel rest
      | 'i' :: rest => substitutionFlags substitution true fuel rest
      | 'I' :: rest => substitutionFlags substitution true fuel rest
      | 'm' :: rest => substitutionFlags substitution anyCase fuel rest
      | 'M' :: rest => substitutionFlags substitution anyCase fuel rest
      | 'w' :: rest =>
          let path := (skipGaps rest).takeWhile (· != '\n')
          .ok ({ substitution with file := some (String.ofList path) }, anyCase,
            rest.dropWhile (· != '\n'))
      | c :: rest =>
          match leadingCount? (c :: rest) with
          | some (0, after) =>
              editError "number option to `s' command may not be zero" after
          | some (n, after) => substitutionFlags { substitution with number := n } anyCase fuel after
          | none =>
              if " \t;\n\x7d#\r".toList.contains c then .ok (substitution, anyCase, c :: rest)
              else editError "unknown option to `s'" rest
      | [] => .ok (substitution, anyCase, [])

def greatestGroup (parts : List ReplacementPart) : Nat :=
  parts.foldl
    (fun n part =>
      match part with
      | .matched group => max n group
      | _ => n)
    0

def substitution (extended : Bool) (cs : List Char) : Except EditError (Edit × List Char) := do
  let unterminated {α : Type} (rest : List Char) : Except EditError α :=
    editError "unterminated `s' command" rest
  match cs with
  | [] => unterminated []
  | delimiter :: rest =>
      match delimited true delimiter (rest.length + 1) rest with
      | none => unterminated (rest.dropWhile (· != '\n'))
      | some (text, rest) =>
          match delimited false delimiter (rest.length + 1) rest with
          | none => unterminated []
          | some (replacement, rest) =>
              let replacement := wide (plainEscapes replacement.length replacement)
              let parts := replacementOf (replacement.length + 1) replacement
              let (found, anyCase, rest) ←
                substitutionFlags ⟨none, parts, 1, false, false, none⟩ false (rest.length + 1) rest
              let regex ← scriptRegex extended anyCase text rest
              let most := greatestGroup parts
              if regex.any fun r => r.openGroups < most then
                editError ("invalid reference \\" ++ s!"{most} on `s' command's RHS") rest
              else return (.substitute { found with regex }, rest)

def replacedChars : List Char → List Char
  | '\\' :: '\\' :: rest => '\\' :: replacedChars rest
  | '\\' :: 'n' :: rest => '\n' :: replacedChars rest
  | c :: rest => c :: replacedChars rest
  | [] => []

def charReplacement (cs : List Char) : Except EditError (Edit × List Char) :=
  match cs with
  | [] => editError "unterminated `y' command" []
  | delimiter :: rest =>
      match delimited false delimiter (rest.length + 1) rest with
      | none => editError "unterminated `y' command" []
      | some (old, rest) =>
          match delimited false delimiter (rest.length + 1) rest with
          | none => editError "unterminated `y' command" []
          | some (new, rest) =>
              let side (cs : List Char) : List Char :=
                wide (replacedChars (plainEscapes cs.length cs))
              if (side old).length = (side new).length then
                .ok (.replaceChars ((side old).zip (side new)), rest)
              else editError "strings for `y' command are different lengths" rest

/-- A name behind an edit, up to a blank or the end of the edit. -/
def labelName (cs : List Char) : String × List Char :=
  let cs := skipGaps cs
  let name := cs.takeWhile fun c => !(c == ';' || c == '\n' || c == ' ' || c == '\t')
  (String.ofList name, cs.drop name.length)

/-- The path behind an edit, which is the rest of the line. -/
def editPath (make : String → Edit) (cs : List Char) : Except EditError (Edit × List Char) :=
  let cs := skipGaps cs
  let path := cs.takeWhile (· != '\n')
  if path.isEmpty then editError "missing filename in r/R/w/W commands" (cs.drop path.length)
  else .ok (make (String.ofList path), cs.drop path.length)

def editOf (extended : Bool) (choice : LineChoice) (cs : List Char) :
    Except EditError (Edit × List Char) := do
  let ranged :=
    match choice with
    | .range _ _ => true
    | _ => false
  match cs with
  | [] => editError "missing command" []
  | c :: rest =>
      let simple (edit : Edit) : Except EditError (Edit × List Char) := .ok (edit, rest)
      let quitting (make : Nat → Edit) : Except EditError (Edit × List Char) :=
        if ranged then editError "command only uses one address" rest
        else
          match leadingCount? (skipGaps rest) with
          | some (n, rest) => .ok (make (n % 256), rest)
          | none => .ok (make 0, rest)
      let named (make : String → Edit) : Except EditError (Edit × List Char) :=
        let (name, rest) := labelName rest
        .ok (make name, rest)
      let textual (make : List Char → Edit) : Except EditError (Edit × List Char) :=
        (editText rest).map fun r => (make r.1, r.2)
      match c with
      | '\x7b' => simple .openBlock
      | '\x7d' => simple .closeBlock
      | 'a' => textual .append
      | 'i' => textual .insert
      | 'c' => textual .change
      | ':' =>
          let (name, rest) := labelName rest
          if name = "" then editError "\":\" lacks a label" rest else return (.label name, rest)
      | 'b' => named .branch
      | 't' => named .branchIf
      | 'T' => named .branchUnless
      | 'd' => simple .delete
      | 'D' => simple .deleteFirst
      | 'g' => simple .takeHeld
      | 'G' => simple .takeHeldMore
      | 'h' => simple .hold
      | 'H' => simple .holdMore
      | 'x' => simple .exchange
      | 'l' => simple .list
      | 'n' => simple .next
      | 'N' => simple .nextMore
      | 'p' => simple .print
      | 'P' => simple .printFirst
      | 'q' => quitting .quit
      | 'Q' => quitting .quitSilently
      | 'r' => editPath .insertFile rest
      | 'w' => editPath .writeFile rest
      | 's' => substitution extended rest
      | 'y' => charReplacement rest
      | '=' => simple .number
      | 'z' => simple .clear
      | c => editError s!"unknown command: `{c}'" rest

def Edit.takesLine : Edit → Bool
  | .append _ => true
  | .insert _ => true
  | .change _ => true
  | .openBlock => true
  | _ => false

/-- The rest of a script after an edit, which must end there. -/
def afterEdit (edit : Edit) (cs : List Char) : Except EditError (List Char) :=
  if edit.takesLine then .ok cs
  else
    match cs.dropWhile fun c => c == ' ' || c == '\t' || c == '\r' with
    | [] => .ok []
    | ';' :: rest => .ok rest
    | '\n' :: rest => .ok rest
    | '#' :: rest => .ok ('#' :: rest)
    | '\x7d' :: rest => .ok ('\x7d' :: rest)
    | _ :: rest => editError "extra characters after command" rest

/-- The rules of a script; `depth` blocks are open. -/
def editRules (extended : Bool) : Nat → Nat → List Char → Except EditError (List EditRule)
  | 0, _, _ => .ok []
  | fuel + 1, depth, cs => do
      let isGap (c : Char) : Bool := c.isWhitespace || c == ';'
      match cs.dropWhile isGap with
      | [] => if depth = 0 then return [] else throw ⟨"unmatched `\x7b'", none⟩
      | '#' :: rest => editRules extended fuel depth (rest.dropWhile (· != '\n'))
      | start =>
          let (choice, rest) ← lineChoice extended start
          let rest := skipGaps rest
          let spares := rest.head? == some '!'
          let rest := if spares then skipGaps rest.tail else rest
          if spares && rest.head? == some '!' then editError "multiple `!'s" rest.tail
          let (edit, rest) ← editOf extended choice rest
          let depth ←
            match edit with
            | .openBlock => pure (depth + 1)
            | .closeBlock =>
                if depth = 0 then editError "unexpected `\x7d'" rest else pure (depth - 1)
            | _ => pure depth
          let rest ← afterEdit edit rest
          return ⟨choice, spares, edit⟩ :: (← editRules extended fuel depth rest)

end Shell

end VersionGroups
