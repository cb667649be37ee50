import VersionGroups.Shell.Regex

/-!
# Patterns of texts

A pattern is matched against a whole text. A star stands for any text, a question mark for any
character, and characters between brackets for any one of them; a quoted character stands for
itself.
-/

namespace VersionGroups

namespace Shell

/-- A character with the mark of being quoted. -/
structure Glyph where
  char : Char
  quoted : Bool
  deriving DecidableEq, Repr

/-- A piece of a pattern. -/
inductive PatternPiece where
  | exactly (c : Char)
  | anyChar
  | anyText
  | oneOf (negated : Bool) (ranges : List (Char × Char))
  deriving DecidableEq, Repr

/-- The characters between brackets up to the closing one, and the rest of the pattern. A class of
characters is named between colons in brackets of its own. -/
def bracketGlyphs : Nat → Bool → List Glyph → Option (List (Char × Char) × List Glyph)
  | 0, _, _ => none
  | fuel + 1, first, glyphs =>
      let plain (cs : List Char) : Bool :=
        (glyphs.take cs.length).map (·.char) == cs && !(glyphs.take cs.length).any (·.quoted)
      if plain [']'] && !first then some ([], glyphs.tail)
      else if plain ['[', ':'] then
        let name := (glyphs.drop 2).takeWhile fun g => g.char.isAlpha
        let after := glyphs.drop (name.length + 2)
        match classChars? (String.ofList (name.map (·.char))), after.map (·.char) with
        | some members, ':' :: ']' :: _ =>
            (bracketGlyphs fuel false (after.drop 2)).map fun r =>
              (members.map (fun c => (c, c)) ++ r.1, r.2)
        | _, _ => (bracketGlyphs fuel false glyphs.tail).map fun r => (('[', '[') :: r.1, r.2)
      else
        match glyphs with
        | [] => none
        | a :: dash :: b :: rest =>
            if dash.char = '-' ∧ !dash.quoted ∧ (b.char ≠ ']' ∨ b.quoted) then
              (bracketGlyphs fuel false rest).map fun r => ((a.char, b.char) :: r.1, r.2)
            else
              (bracketGlyphs fuel false (dash :: b :: rest)).map fun r =>
                ((a.char, a.char) :: r.1, r.2)
        | a :: rest =>
            (bracketGlyphs fuel false rest).map fun r => ((a.char, a.char) :: r.1, r.2)

/-- The characters between brackets after the opening one, and the rest of the pattern. -/
def bracketed? (glyphs : List Glyph) : Option (Bool × List (Char × Char) × List Glyph) :=
  let negated := glyphs.head?.any fun g => g.char == '!' && !g.quoted
  let glyphs := if negated then glyphs.tail else glyphs
  (bracketGlyphs (glyphs.length + 1) true glyphs).map fun r => (negated, r.1, r.2)

/-- The pattern of a text; `fuel` bounds its length. -/
def patternOf : Nat → List Glyph → List PatternPiece
  | 0, _ => []
  | _ + 1, [] => []
  | fuel + 1, g :: rest =>
      if g.quoted then .exactly g.char :: patternOf fuel rest
      else
        match g.char with
        | '*' => .anyText :: patternOf fuel rest
        | '?' => .anyChar :: patternOf fuel rest
        | '\\' =>
            match rest with
            | next :: rest => .exactly next.char :: patternOf fuel rest
            | [] => [.exactly '\\']
        | '[' =>
            match bracketed? rest with
            | some (negated, ranges, rest) => .oneOf negated ranges :: patternOf fuel rest
            | none => .exactly '[' :: patternOf fuel rest
        | c => .exactly c :: patternOf fuel rest

def pattern (glyphs : List Glyph) : List PatternPiece := patternOf (glyphs.length + 1) glyphs

def PatternPiece.accepts (piece : PatternPiece) (c : Char) : Bool :=
  match piece with
  | .exactly d => c == d
  | .anyChar => true
  | .anyText => true
  | .oneOf negated ranges => (ranges.any fun r => r.1 ≤ c && c ≤ r.2) != negated

def matches? : List PatternPiece → List Char → Bool
  | [], cs => cs.isEmpty
  | .anyText :: pieces, [] => matches? pieces []
  | .anyText :: pieces, c :: cs => matches? pieces (c :: cs) || matches? (.anyText :: pieces) cs
  | _ :: _, [] => false
  | piece :: pieces, c :: cs => piece.accepts c && matches? pieces cs
  termination_by pieces cs => pieces.length + cs.length

end Shell

end VersionGroups
