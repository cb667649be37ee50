import VersionGroups.Shell.Listing
import VersionGroups.Shell.Machine
import VersionGroups.Shell.Pattern

/-!
# Fields of expanded words

A word expands to characters, some of which are quoted or may split it. The fields of a word are
what stands between separators; a field with a pattern in it stands for the names of files that fit.
-/

namespace VersionGroups

namespace Shell

/-- Whether a character is one of the separators of which several count as one. -/
def isGap (separators : List Char) (c : Char) : Bool :=
  separators.contains c && (c == ' ' || c == '\t' || c == '\n')

/-- A part of an expanded word: a character, which may split the word if it is a separator, the end
of a field, the mark of quotes, or the mark of parameters of which there are none. -/
inductive Part where
  | glyph (glyph : Glyph) (splits : Bool)
  | fieldEnd
  | quotes
  | noFields
  deriving DecidableEq, Repr

def textParts (quoted splits : Bool) (cs : List Char) : List Part :=
  cs.map fun c => .glyph ⟨c, quoted⟩ (splits && !quoted)

def fieldParts (quoted : Bool) : List String → List Part
  | [] => [.noFields]
  | [field] => textParts quoted true field.toList
  | field :: rest => textParts quoted true field.toList ++ .fieldEnd :: fieldParts quoted rest

/-- The fields of parts; `current` holds the characters of the field that has begun, if one has. -/
def fieldsRest (separators : List Char) (current : Option (List Glyph)) :
    List Part → List (List Glyph)
  | [] => current.toList.map List.reverse
  | .glyph g splits :: rest =>
      if splits && isGap separators g.char then
        current.toList.map List.reverse ++ fieldsRest separators none rest
      else if splits && separators.contains g.char then
        (current.getD []).reverse :: fieldsRest separators none rest
      else fieldsRest separators (some (g :: current.getD [])) rest
  | .fieldEnd :: rest => (current.getD []).reverse :: fieldsRest separators (some []) rest
  | .quotes :: rest => fieldsRest separators (some (current.getD [])) rest
  | .noFields :: rest => fieldsRest separators current rest

/-- The fields of parts. Quotes around parameters of which there are none make no field. -/
def fields (separators : List Char) (parts : List Part) : List (List Glyph) :=
  let isGlyph (part : Part) : Bool :=
    match part with
    | .glyph .. => true
    | _ => false
  if parts.contains .noFields && !parts.any isGlyph then [] else fieldsRest separators none parts

def glyphText (glyphs : List Glyph) : String := String.ofList (glyphs.map (·.char))

def partGlyphs (parts : List Part) : List Glyph :=
  parts.filterMap fun part =>
    match part with
    | .glyph g _ => some g
    | .fieldEnd => some ⟨' ', true⟩
    | _ => none

/-! ## Texts and patterns -/

/-- The text without the line breaks at its end. -/
def withoutLastBreaks (text : String) : String :=
  String.ofList (text.toList.reverse.dropWhile (· == '\n')).reverse

/-- The value without a beginning or an end that fits a pattern. -/
def withoutPart (value : String) (start longest : Bool) (pieces : List PatternPiece) : String :=
  let cs := value.toList
  let lengths := List.range (cs.length + 1)
  let lengths := if longest then lengths.reverse else lengths
  let fits (n : Nat) : Bool :=
    matches? pieces (if start then cs.take n else cs.drop (cs.length - n))
  match lengths.find? fits with
  | some n => String.ofList (if start then cs.drop n else cs.take (cs.length - n))
  | none => value

/-! ## Names that fit -/

/-- Whether a field holds a character that makes it a pattern. -/
def isPattern (glyphs : List Glyph) : Bool :=
  glyphs.any fun g => !g.quoted && (g.char == '*' || g.char == '?' || g.char == '[')

/-- The components of a field, each with the slashes before it. -/
def fieldComponents : Nat → List Glyph → List (List Glyph × List Glyph)
  | 0, _ => []
  | fuel + 1, glyphs =>
      let isSlash (g : Glyph) : Bool := g.char == '/'
      let slashes := glyphs.takeWhile isSlash
      let name := (glyphs.drop slashes.length).takeWhile (!isSlash ·)
      if slashes.isEmpty && name.isEmpty then []
      else
        (slashes, name) :: fieldComponents fuel (glyphs.drop (slashes.length + name.length))

/-- The paths that components lead to from a path that was reached. -/
def fittingPaths (surroundings : Surroundings) :
    String → List (List Glyph × List Glyph) → List String
  | reached, [] => [reached]
  | reached, (slashes, name) :: rest =>
      let start := reached ++ glyphText slashes
      if name.isEmpty then
        if surroundings.isDirectory reached then [start] else []
      else if isPattern name then
        let pieces := pattern name
        let hidden := name.head?.any fun g => g.char == '.'
        let names := surroundings.names (if start = "" then "." else start)
        let names := if hidden then "." :: ".." :: names else names
        let fits := names.filter fun n =>
          (hidden || !n.startsWith ".") && matches? pieces n.toList
        (fits.mergeSort fun a b => decide (a ≤ b)).flatMap fun n =>
          fittingPaths surroundings (start ++ n) rest
      else
        let next := start ++ glyphText name
        if rest.isEmpty then if (surroundings.find next).toOption.isSome then [next] else []
        else fittingPaths surroundings next rest

/-- The texts that a field stands for: itself, or the paths that fit if it is a pattern and any
does. -/
def fieldTexts (surroundings : Surroundings) (literal : Bool) (glyphs : List Glyph) :
    List String :=
  if literal || !isPattern glyphs then [glyphText glyphs]
  else
    match fittingPaths surroundings "" (fieldComponents (glyphs.length + 1) glyphs) with
    | [] => [glyphText glyphs]
    | paths => paths

end Shell

end VersionGroups
