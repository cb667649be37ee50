import VersionGroups.Shell.Copying
import VersionGroups.Shell.Regex

/-!
# Searching lines

Selects the lines of files that hold a match of one of some expressions, and shows them, their
matches, their number, or the names of the files.
-/

namespace VersionGroups

namespace Shell

namespace Regex

/-- The matches in a line, none of them empty, from left to right, each with its place. -/
def matchesIn (regex : Regex) : Nat → Nat → Option Char → List Char → List (Nat × List Char)
  | 0, _, _, _ => []
  | fuel + 1, offset, last, rest =>
      match regex.find? last rest with
      | none => []
      | some (skipped, [], place) =>
          matchesIn regex fuel (offset + skipped.length + 1) place.rest.head? place.rest.tail
      | some (skipped, matched, place) =>
          let offset := offset + skipped.length
          (offset, matched) :: matchesIn regex fuel (offset + matched.length) place.before place.rest

end Regex

/-- What a search shows of a line, and where. -/
structure SearchDisplay where
  named : Bool
  numbered : Bool
  placed : Bool
  before : Nat
  after : Nat

/-- A line of a file with its number, the number of bytes before it, and whether it is selected. -/
structure SearchLine where
  text : List Char
  number : Nat
  offset : Nat
  selected : Bool

def searchLines (selects : List Char → Bool) : Nat → Nat → List (List Char) → List SearchLine
  | _, _, [] => []
  | number, offset, line :: rest =>
      ⟨line, number, offset, selects line⟩ ::
        searchLines selects (number + 1) (offset + line.length + 1) rest

def SearchDisplay.label (display : SearchDisplay) (name mark : String) (number offset : Nat) :
    List Char :=
  ((if display.named then name ++ mark else "") ++
    (if display.numbered then toString number ++ mark else "") ++
    (if display.placed then toString offset ++ mark else "")).toList

/-- The selected lines, with lines before and after them and a mark between parts that do not touch;
`pending` lines still follow the last selected one. -/
def SearchDisplay.context (display : SearchDisplay) (name : String) :
    List SearchLine → Nat → Bool → List SearchLine → List (List Char)
  | _, _, _, [] => []
  | held, pending, shown, line :: rest =>
      let put (mark : String) (l : SearchLine) : List Char :=
        display.label name mark l.number l.offset ++ l.text
      if line.selected then
        let gap := shown && display.before + display.after > 0 && held.length > display.before
        (if gap then ["--".toList] else []) ++
          ((held.take display.before).reverse.map (put "-")) ++ put ":" line ::
            display.context name [] display.after true rest
      else if pending > 0 then
        put "-" line :: display.context name [] (pending - 1) shown rest
      else display.context name (line :: held) 0 shown rest

def filesBelow (surroundings : Surroundings) (paths : List String) : List String :=
  paths.flatMap fun path =>
    if surroundings.isDirectory path then
      match surroundings.tree.locate (surroundings.path path) with
      | .error _ => [path]
      | .ok location =>
          surroundings.tree.entries.entries.filterMap fun e =>
            match e.2 with
            | .directory => none
            | .file _ =>
                if FileTree.isWithin location e.1 && e.1 != location then
                  some ((e.1.drop location.length).foldl (fun p n => Path.join p (encoded n)) path)
                else none
    else [path]

def searchOptions : OptionTable :=
  ⟨"EFGPivcnoqsxwlLhHbaUzrRy", "efABCm",
    [("extended-regexp", 'E'), ("fixed-strings", 'F'), ("basic-regexp", 'G'), ("regexp", 'e'),
      ("file", 'f'), ("ignore-case", 'i'), ("invert-match", 'v'), ("count", 'c'),
      ("line-number", 'n'), ("only-matching", 'o'), ("quiet", 'q'), ("silent", 'q'),
      ("no-messages", 's'), ("line-regexp", 'x'), ("word-regexp", 'w'),
      ("files-with-matches", 'l'), ("files-without-match", 'L'), ("no-filename", 'h'),
      ("with-filename", 'H'), ("byte-offset", 'b'), ("text", 'a'), ("recursive", 'r'),
      ("after-context", 'A'), ("before-context", 'B'), ("context", 'C'), ("max-count", 'm'),
      ("color", 'U'), ("colour", 'U')]⟩

/-- The expression that the patterns of a search make together. -/
def searchRegex (options : Options) (extended : Bool) (patterns : List (List Char)) :
    Except RegexError Regex := do
  let single (cs : List Char) : Except RegexError Regex := do
    let cs := wide cs
    let regex ← if options.has 'F' then pure (Regex.literally cs) else Regex.ofText extended cs
    let regex := if options.has 'i' || options.has 'y' then regex.anyCase else regex
    if options.has 'x' then return .sequence .start (.sequence regex .stop)
    else if options.has 'w' then
      return .sequence (.edge .free) (.sequence regex (.edge .over))
    else return regex
  match ← patterns.mapM single with
  | [] => return .one false []
  | first :: rest => return rest.foldl .either first

/-- What a search shows of one file: the lines, and whether any line is selected. -/
def searchFile (options : Options) (regex : Regex) (display : SearchDisplay) (name : String)
    (content : List UInt8) : List (List Char) × Bool :=
  let binary := !options.has 'a' && (content.contains 0 ||
    (wide (content.map byteChar)).any fun c => strayMark ≤ c.toNat)
  let lines := if content.isEmpty then [] else (linesOf content).1
  let judged := searchLines (fun l => regex.isIn (wide l) != options.has 'v') 1 0 lines
  let selected := judged.filter (·.selected)
  let most := ((options.value? 'm').bind fun text => baseValue? 10 text.toList).getD selected.length
  let chosen := selected.take most
  let found := !chosen.isEmpty
  let parts (l : SearchLine) : List (List Char) :=
    (regex.matchesIn (l.text.length + 1) 0 none (wide l.text)).map fun (place, cs) =>
      let skipped := (narrow ((wide l.text).take place)).length
      display.label name ":" l.number (l.offset + skipped) ++ narrow cs
  let shown :=
    if options.has 'q' then []
    else if options.has 'l' then if found then [name.toList] else []
    else if options.has 'L' then if found then [] else [name.toList]
    else if options.has 'c' then
      [(if display.named then name.toList ++ [':'] else []) ++
        (toString chosen.length).toList]
    else if binary then
      if found then [s!"grep: {name}: binary file matches".toList] else []
    else if options.has 'o' then if options.has 'v' then [] else chosen.flatMap parts
    else
      let last := (chosen.getLast?.map (·.number)).getD 0
      let within := judged.takeWhile fun l => l.number ≤ last + display.after
      display.context name [] 0 false
        (within.map fun l => { l with selected := l.selected && decide (l.number ≤ last) })
  (shown, found)

/-- Selects lines by expressions; `usual` says whether the extended notation is the usual one. -/
def search (name : String) (usual : Bool) (literal : Bool) : Program :=
  fun surroundings args input =>
    match readOptions searchOptions (args.length + 1) args with
    | .error message =>
        failing (s!"{name}: {message}\nUsage: grep [OPTION]... PATTERNS [FILE]...\n" ++
          "Try 'grep --help' for more information.\n") 2 input
    | .ok options =>
        let options := if literal then options.add 'F' "" else options
        let fromFiles := (options.values 'f').map fun path =>
          if isInput path then Except.ok input else surroundings.read path
        let given := (options.values 'e').map String.toList
        let (operand, files) :=
          if options.has 'e' || options.has 'f' then ([], options.operands)
          else (options.operands.take 1, options.operands.drop 1)
        if operand.isEmpty && !options.has 'e' && !options.has 'f' then
          failing ("Usage: grep [OPTION]... PATTERNS [FILE]...\n" ++
            "Try 'grep --help' for more information.\n") 2 input
        else if fromFiles.any (·.toOption.isNone) then
          let path := (options.value? 'f').getD ""
          failing s!"grep: {path}: No such file or directory\n" 2 input
        else
          let filed := fromFiles.flatMap fun content =>
            let content := content.toOption.getD []
            if content.isEmpty then [] else (linesOf content).1
          let patterns := ((given ++ operand.map String.toList).flatMap (·.splitOn '\n')) ++ filed
          let letters := options.given.map (·.1)
          let kind := (letters.filter fun c => c == 'E' || c == 'G' || c == 'P').getLast?
          let extended := (kind.map (· != 'G')).getD usual
          match searchRegex options extended patterns with
          | .error message => failing s!"grep: {message}\n" 2 input
          | .ok regex =>
              let recursive := options.has 'r' || options.has 'R'
              let named := (files.length > 1 || recursive || options.has 'H') && !options.has 'h'
              let files :=
                if recursive then
                  if files.isEmpty then
                    (filesBelow surroundings ["."]).map fun p => String.ofList (p.toList.drop 2)
                  else filesBelow surroundings files
                else files
              let number (letter : Char) : Nat :=
                (((options.value? letter).or (options.value? 'C')).bind fun text =>
                  baseValue? 10 text.toList).getD 0
              let display : SearchDisplay :=
                ⟨named, options.has 'n', options.has 'b', number 'B', number 'A'⟩
              let (files, left) := operandSources surroundings files input
              let results := files.map fun source =>
                let title := if isInput source.name then "(standard input)" else source.name
                match source.content with
                | .ok content => searchFile options regex display title content
                | .error _ => ([], false)
              let errors := complaints files fun name e => s!"grep: {name}: {e.message}\n"
              let found := results.any fun r => r.2 != options.has 'L'
              { output := lineBytes (results.flatMap (·.1))
                errors := octets (if options.has 's' then "" else errors)
                status :=
                  if errors != "" && !(found && options.has 'q') then 2
                  else if found then 0 else 1
                input := left }

def grep : Program := search "grep" false false

end Shell

end VersionGroups
