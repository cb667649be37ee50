import VersionGroups.Shell.Printing

/-!
# Regular expressions

An expression is written in one of two notations, which differ in whether the marks of groups,
choices and repetitions have a backslash before them. Of the matches that begin first the longest
one is taken; a repetition takes as much as it can.
-/

namespace VersionGroups

namespace Shell

/-- An edge of a word: its beginning, its end, either of them, or neither; or a place with no word
before it, or none after it. -/
inductive WordEdge where
  | opening
  | closing
  | some
  | none
  | free
  | over
  deriving DecidableEq, Repr

/-- An expression. Groups are numbered from one in the order in which they open. -/
inductive Regex where
  | empty
  | one (negated : Bool) (characters : List Char)
  | start
  | stop
  | edge (edge : WordEdge)
  | sequence (first second : Regex)
  | either (first second : Regex)
  | many (inner : Regex) (least : Nat) (most : Option Nat)
  | group (number : Nat) (inner : Regex)
  | same (number : Nat)
  deriving DecidableEq, Repr

def isWordChar (c : Char) : Bool := c.isAlphanum || c == '_'

/-- Whether an edge lies between two characters, of which there may be none. -/
def WordEdge.lies (edge : WordEdge) (before after : Option Char) : Bool :=
  let opens := !before.any isWordChar && after.any isWordChar
  let closes := before.any isWordChar && !after.any isWordChar
  match edge with
  | .opening => opens
  | .closing => closes
  | .some => opens || closes
  | .none => !(opens || closes)
  | .free => !before.any isWordChar
  | .over => !after.any isWordChar

namespace Regex

/-- The character before a place in a line, what is left of it, and what the groups have matched. -/
structure Place where
  before : Option Char
  rest : List Char
  groups : List (Nat × List Char)
  deriving DecidableEq, Repr

def Place.group (place : Place) (number : Nat) : List Char :=
  ((place.groups.find? (fun g => g.1 == number)).map (·.2)).getD []

def Place.after (place : Place) (count : Nat) : Place :=
  if count = 0 then place
  else
    { place with before := (place.rest.take count).getLast?, rest := place.rest.drop count }

/-- The first place after a match from which the goal is reached. -/
def reach : Nat → Regex → (Place → Option Place) → Place → Option Place
  | 0, _, _, _ => none
  | fuel + 1, regex, goal, place =>
      match regex with
      | .empty => goal place
      | .one negated characters =>
          match place.rest with
          | c :: rest =>
              if characters.contains c != negated && c.toNat < strayMark then
                goal { place with before := some c, rest }
              else none
          | [] => none
      | .start => if place.before.isNone then goal place else none
      | .stop => if place.rest.isEmpty then goal place else none
      | .edge boundary =>
          if boundary.lies place.before place.rest.head? then goal place else none
      | .sequence first second => reach fuel first (reach fuel second goal) place
      | .either first second =>
          match reach fuel first goal place with
          | some found => some found
          | none => reach fuel second goal place
      | .many inner least most =>
          let again (next : Place) : Option Place :=
            if next.rest.length < place.rest.length then
              reach fuel (.many inner (least - 1) (most.map (· - 1))) goal next
            else none
          match if most = some 0 then none else reach fuel inner again place with
          | some found => some found
          | none =>
              if least = 0 then goal place
              else if (reach fuel inner some place).any (·.rest == place.rest) then goal place
              else none
      | .group number inner =>
          let close (next : Place) : Option Place :=
            let matched := place.rest.take (place.rest.length - next.rest.length)
            goal { next with groups := (number, matched) :: next.groups }
          reach fuel inner close place
      | .same number =>
          let matched := place.group number
          if matched.isPrefixOf place.rest then goal (place.after matched.length) else none

/-- The number of parts of an expression. -/
def size : Regex → Nat
  | .sequence first second => first.size + second.size + 1
  | .either first second => first.size + second.size + 1
  | .many inner least most => (inner.size + 1) * (least + most.getD 0 + 1)
  | .group _ inner => inner.size + 1
  | _ => 1

/-- Whether the first match that is found need not be the longest one. -/
def isAmbiguous : Regex → Bool
  | .either _ _ => true
  | .sequence first second => first.isAmbiguous || second.isAmbiguous
  | .many (.one _ _) _ _ => false
  | .many _ _ _ => true
  | .group _ inner => inner.isAmbiguous
  | _ => false

def matchHere? (regex : Regex) (place : Place) : Option Place :=
  let fuel := (place.rest.length + 2) * (regex.size + 2)
  match reach fuel regex some place with
  | none => none
  | some found =>
      if regex.isAmbiguous then
        let longer := (List.range found.rest.length).findSome? fun left =>
          reach fuel regex (fun p => if p.rest.length = left then some p else none) place
        some (longer.getD found)
      else some found

/-- The first match in the rest of a line: what precedes it, what it is, and the place after it. -/
def find? (regex : Regex) (before : Option Char) :
    List Char → Option (List Char × List Char × Place)
  | [] => (regex.matchHere? ⟨before, [], []⟩).map fun place => ([], [], place)
  | c :: cs =>
      match regex.matchHere? ⟨before, c :: cs, []⟩ with
      | some place => some ([], (c :: cs).take (cs.length + 1 - place.rest.length), place)
      | none => (find? regex (some c) cs).map fun found => (c :: found.1, found.2)

def isIn (regex : Regex) (line : List Char) : Bool := (regex.find? none line).isSome

/-- The number of the last group that has opened. -/
def openGroups : Regex → Nat
  | .sequence first second => max first.openGroups second.openGroups
  | .either first second => max first.openGroups second.openGroups
  | .many inner _ _ => inner.openGroups
  | .group number inner => max number inner.openGroups
  | _ => 0

/-- The expression of a text without special characters. -/
def literally (cs : List Char) : Regex :=
  cs.foldr (fun c regex => .sequence (.one false [c]) regex) .empty

/-- The expression without regard to the case of letters. -/
def anyCase : Regex → Regex
  | .one negated cs => .one negated (cs ++ cs.map Char.toLower ++ cs.map Char.toUpper)
  | .sequence first second => .sequence first.anyCase second.anyCase
  | .either first second => .either first.anyCase second.anyCase
  | .many inner least most => .many inner.anyCase least most
  | .group number inner => .group number inner.anyCase
  | regex => regex

end Regex

/-! ## Sets of characters -/

def asciiWith (test : Char → Bool) : List Char :=
  ((List.range 128).map Char.ofNat).filter test

def classChars? (name : String) : Option (List Char) :=
  match name with
  | "lower" => some (asciiWith Char.isLower)
  | "upper" => some (asciiWith Char.isUpper)
  | "alpha" => some (asciiWith Char.isAlpha)
  | "digit" => some (asciiWith Char.isDigit)
  | "alnum" => some (asciiWith Char.isAlphanum)
  | "space" => some (asciiWith fun c => c == ' ' || (9 ≤ c.toNat && c.toNat ≤ 13))
  | "blank" => some [' ', '\t']
  | "punct" => some (asciiWith fun c => 32 < c.toNat && c.toNat < 127 && !c.isAlphanum)
  | "print" => some (asciiWith fun c => 32 ≤ c.toNat && c.toNat < 127)
  | "graph" => some (asciiWith fun c => 32 < c.toNat && c.toNat < 127)
  | "cntrl" => some (asciiWith fun c => c.toNat < 32 || c.toNat == 127)
  | "xdigit" => some (asciiWith fun c => (hexDigit? c).isSome)
  | _ => none

def charRange (first last : Char) : List Char :=
  (List.range (last.toNat + 1 - first.toNat)).map fun i => Char.ofNat (first.toNat + i)

/-- Why a text is no expression, in words. -/
abbrev RegexError := String

/-- The characters between brackets, which must not be the closing one if nothing precedes. -/
def bracketSet : Nat → List Char → Except RegexError (List Char × List Char)
  | 0, _ => .error "Unmatched [, [^, [:, [., or [="
  | fuel + 1, cs => do
      match cs with
      | [] => throw "Unmatched [, [^, [:, [., or [="
      | '[' :: ':' :: rest =>
          let name := rest.takeWhile (· != ':')
          match classChars? (String.ofList name) with
          | some members =>
              let (others, rest) ← bracketEnd fuel (rest.drop (name.length + 2))
              return (members ++ others, rest)
          | none => throw "Invalid character class name"
      | '[' :: mark :: c :: again :: rest =>
          if (mark == '.' || mark == '=') && again == mark then
            let (others, rest) ← bracketEnd fuel rest.tail
            return (c :: others, rest)
          else
            let (others, rest) ← bracketEnd fuel (mark :: c :: again :: rest)
            return ('[' :: others, rest)
      | a :: '-' :: b :: rest =>
          if b = ']' then return ([a, '-'], rest)
          else if b.toNat < a.toNat then throw "Invalid range end"
          else
            let (others, rest) ← bracketEnd fuel rest
            return (charRange a b ++ others, rest)
      | a :: rest =>
          let (others, rest) ← bracketEnd fuel rest
          return (a :: others, rest)
where
  /-- The rest of the characters, which may have ended. -/
  bracketEnd (fuel : Nat) (cs : List Char) : Except RegexError (List Char × List Char) :=
    match cs with
    | ']' :: rest => .ok ([], rest)
    | cs => bracketSet fuel cs

/-! ## The notations -/

/-- A mark of the notation of expressions. -/
inductive RegexToken where
  | atom (regex : Regex)
  | opening
  | closing
  | bar
  | repeated (least : Nat) (most : Option Nat)
  deriving DecidableEq, Repr

/-- The counts between braces: both, only the first or the last, or one that is exact. -/
def repetition? (cs : List Char) : Option RegexToken :=
  let first := cs.takeWhile Char.isDigit
  let least := (baseValue? 10 first).getD 0
  match cs.drop first.length with
  | [] => if first.isEmpty then none else some (.repeated least (some least))
  | [','] => some (.repeated least none)
  | ',' :: digits => (baseValue? 10 digits).map fun most => .repeated least (some most)
  | _ => none

/-- The token that a character is with a mark before it in one notation and without in the other. -/
def markToken? (c : Char) : Option RegexToken :=
  match c with
  | '(' => some .opening
  | ')' => some .closing
  | '|' => some .bar
  | '+' => some (.repeated 1 none)
  | '?' => some (.repeated 0 (some 1))
  | _ => none

def escapedAtom? (c : Char) : Option Regex :=
  let space := (classChars? "space").getD []
  let word := asciiWith isWordChar
  match c with
  | 'w' => some (.one false word)
  | 'W' => some (.one true word)
  | 's' => some (.one false space)
  | 'S' => some (.one true space)
  | 'b' => some (.edge .some)
  | 'B' => some (.edge .none)
  | '<' => some (.edge .opening)
  | '>' => some (.edge .closing)
  | '`' => some .start
  | '\'' => some .stop
  | _ => none

/-- The tokens of an expression; `fresh` says that nothing to repeat precedes. -/
def regexTokens (extended : Bool) : Nat → Bool → List Char → Except RegexError (List RegexToken)
  | 0, _, _ => .ok []
  | fuel + 1, fresh, cs => do
      let next (token : RegexToken) (rest : List Char) : Except RegexError (List RegexToken) := do
        let fresh := token = .opening ∨ token = .bar ∨ token = .atom .start
        return token :: (← regexTokens extended fuel fresh rest)
      let literal (c : Char) (rest : List Char) : Except RegexError (List RegexToken) :=
        next (.atom (.one false [c])) rest
      let braced (rest : List Char) : Except RegexError (List RegexToken) := do
        let inner := rest.takeWhile fun c => c.isDigit || c == ','
        let ending := if extended then ['\x7d'] else ['\\', '\x7d']
        let after := rest.drop inner.length
        match repetition? inner with
        | some token =>
            if ending.isPrefixOf after then next token (after.drop ending.length)
            else if extended then literal '\x7b' rest
            else throw "Unmatched \\\x7b"
        | none => if extended then literal '\x7b' rest else throw "Invalid content of \\\x7b\\\x7d"
      let endsHere (rest : List Char) : Bool :=
        extended || rest.isEmpty || ['\\', ')'].isPrefixOf rest || ['\\', '|'].isPrefixOf rest
      match cs with
      | [] => return []
      | ['\\'] => throw "Trailing backslash"
      | '\\' :: '\x7b' :: rest => if extended then literal '\x7b' rest else braced rest
      | '\\' :: c :: rest =>
          if c.isDigit ∧ c ≠ '0' then next (.atom (.same (c.toNat - '0'.toNat))) rest
          else
            match escapedAtom? c, if extended then none else markToken? c with
            | some regex, _ => next (.atom regex) rest
            | none, some token => next token rest
            | none, none => literal c rest
      | '.' :: rest => next (.atom (.one true [])) rest
      | '[' :: '^' :: rest =>
          let (members, rest) ← bracketSet (cs.length + 1) rest
          next (.atom (.one true members)) rest
      | '[' :: rest =>
          let (members, rest) ← bracketSet (cs.length + 1) rest
          next (.atom (.one false members)) rest
      | '*' :: rest => if fresh then literal '*' rest else next (.repeated 0 none) rest
      | '^' :: rest => if fresh || extended then next (.atom .start) rest else literal '^' rest
      | '$' :: rest => if endsHere rest then next (.atom .stop) rest else literal '$' rest
      | '\x7b' :: rest => if extended && !fresh then braced rest else literal '\x7b' rest
      | c :: rest =>
          match if extended then markToken? c else none with
          | some (.repeated least most) =>
              if fresh then literal c rest else next (.repeated least most) rest
          | some token => next token rest
          | none => literal c rest

mutual

/-- An expression of choices, up to a closing token; `opened` groups have opened before. -/
def choices : Nat → Nat → List RegexToken → Except RegexError (Regex × List RegexToken)
  | 0, _, _ => .error "Memory exhausted"
  | fuel + 1, opened, tokens => do
      let (first, rest) ← sequenceOf fuel opened .empty tokens
      match rest with
      | .bar :: rest =>
          let (second, rest) ← choices fuel (max opened first.openGroups) rest
          return (.either first second, rest)
      | rest => return (first, rest)

/-- Expressions one after the other, after those read before. -/
def sequenceOf :
    Nat → Nat → Regex → List RegexToken → Except RegexError (Regex × List RegexToken)
  | 0, _, _, _ => .error "Memory exhausted"
  | fuel + 1, opened, before, tokens => do
      match tokens with
      | .atom regex :: rest => repeats fuel opened before regex rest
      | .repeated .. :: rest => sequenceOf fuel opened before rest
      | .opening :: rest =>
          let number := max opened before.openGroups + 1
          let (inner, rest) ← choices fuel number rest
          match rest with
          | .closing :: rest => repeats fuel opened before (.group number inner) rest
          | _ => throw "Unmatched ( or \\("
      | rest => return (before, rest)

def repeats :
    Nat → Nat → Regex → Regex → List RegexToken → Except RegexError (Regex × List RegexToken)
  | 0, _, _, _, _ => .error "Memory exhausted"
  | fuel + 1, opened, before, regex, tokens =>
      match tokens with
      | .repeated least most :: rest =>
          repeats fuel opened before (.many regex least most) rest
      | rest => sequenceOf fuel opened (.sequence before regex) rest

end

/-- The greatest number of a group that an expression goes back to. -/
def Regex.greatestBack : Regex → Nat
  | .sequence first second => max first.greatestBack second.greatestBack
  | .either first second => max first.greatestBack second.greatestBack
  | .many inner _ _ => inner.greatestBack
  | .group _ inner => inner.greatestBack
  | .same number => number
  | _ => 0

def Regex.ofText (extended : Bool) (cs : List Char) : Except RegexError Regex := do
  let tokens ← regexTokens extended (cs.length + 1) true cs
  match ← choices (4 * tokens.length + 4) 0 tokens with
  | (regex, []) =>
      if regex.openGroups < regex.greatestBack then throw "Invalid back reference"
      else return regex
  | _ => throw "Unmatched ) or \\)"

end Shell

end VersionGroups
