import VersionGroups.Shell.Copying

/-!
# Counting lines, words and bytes

The counts of files stand in columns that are as wide as the sum of the sizes needs; a pipe, whose
size is not known beforehand, asks for seven places, and a single count for none.
-/

namespace VersionGroups

namespace Shell

/-- Counts of a content: line breaks, words, characters, bytes and the width of the widest line. -/
structure Counts where
  lines : Nat := 0
  words : Nat := 0
  characters : Nat := 0
  bytes : Nat := 0
  widest : Nat := 0

def countWords : Bool → List UInt8 → Nat
  | _, [] => 0
  | inside, b :: rest =>
      if b = 32 ∨ (9 ≤ b ∧ b ≤ 13) then countWords false rest
      else (if inside then 0 else 1) + countWords true rest

/-- The width of a line; a tab goes on to the next multiple of eight. -/
def lineWidth (line : List Char) : Nat :=
  (wide line).foldl
    (fun width c =>
      if c = '\t' then (width / 8 + 1) * 8
      else if c.toNat < 32 ∨ strayMark ≤ c.toNat then width
      else width + 1)
    0

def Counts.ofContent (content : List UInt8) : Counts where
  lines := content.countP (· == 10)
  words := countWords false content
  characters := ((wide (content.map byteChar)).filter fun c => c.toNat < strayMark).length
  bytes := content.length
  widest := ((linesOf content).1.map lineWidth).foldl max 0

def Counts.add (first second : Counts) : Counts :=
  ⟨first.lines + second.lines, first.words + second.words,
    first.characters + second.characters, first.bytes + second.bytes,
    max first.widest second.widest⟩

/-- The counts that letters ask for, in a fixed order. -/
def Counts.shown (counts : Counts) (letters : List Char) : List Nat :=
  [('l', counts.lines), ('w', counts.words), ('m', counts.characters), ('c', counts.bytes),
    ('L', counts.widest)].filterMap fun (letter, n) =>
      if letters.contains letter then some n else none

def columnWidth (surroundings : Surroundings) (files : List Source) (single : Bool) : Nat :=
  let isPipe (source : Source) : Bool := isInput source.name && !surroundings.seekable
  let sizes := files.map fun source =>
    match source.content with
    | .ok content => if isPipe source then 0 else content.length
    | .error _ => 0
  let unknown := files.any fun source =>
    match source.content with
    | .ok _ => isPipe source
    | .error e => e == .isDirectory
  if single && files.length == 1 then 1
  else
    let digits := (toString (sizes.foldl (· + ·) 0)).length
    match files.head?.map Source.content with
    | some (.error .missing) => 1
    | _ => if unknown then max 7 digits else digits

/-- Puts out counts of files, and their sum if there are several. -/
def wc : Program := fun surroundings args input =>
  withOptions "wc"
    ⟨"clmwL", "",
      [("bytes", 'c'), ("lines", 'l'), ("chars", 'm'), ("words", 'w'),
        ("max-line-length", 'L')]⟩ 1 args input fun options =>
    let letters := ['l', 'w', 'm', 'c', 'L'].filter options.has
    let letters := if letters.isEmpty then ['l', 'w', 'c'] else letters
    let (files, left) := operandSources surroundings options.operands input
    let width := columnWidth surroundings files (letters.length == 1)
    let line (counts : Counts) (name : String) : String :=
      let columns := (counts.shown letters).map fun n => rightAligned width (toString n)
      String.intercalate " " columns ++ name ++ "\n"
    let name (source : Source) : String :=
      if options.operands.isEmpty then "" else " " ++ source.name
    let counted := files.filterMap fun source =>
      match source.content with
      | .ok content => some (Counts.ofContent content, name source)
      | .error .isDirectory => some ({}, name source)
      | .error _ => none
    let total := counted.foldl (fun sum c => sum.add c.1) {}
    let errors := complaints files (plainComplaint "wc")
    let lines := counted.map fun c => line c.1 c.2
    { output := octets (String.join lines ++ if files.length > 1 then line total " total" else "")
      errors := octets errors
      status := if errors = "" then 0 else 1
      input := left }

end Shell

end VersionGroups
