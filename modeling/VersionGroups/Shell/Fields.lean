import VersionGroups.Shell.Copying

/-!
# Parts of lines

Programs that keep parts of lines, put lines side by side, number them, turn them around or break
them.
-/

namespace VersionGroups

namespace Shell

/-! ## Keeping parts -/

/-- The positions from one to another; without a last one there is no end. -/
structure PositionRange where
  first : Nat
  last : Option Nat

/-- Why a list of positions cannot be used. -/
inductive PositionError where
  | zero
  | decreasing
  | invalid (text : String)
  | noEnds
  deriving DecidableEq, Repr

/-- The message about a list of positions of fields or of bytes. -/
def PositionError.message (fields : Bool) : PositionError → String
  | .zero =>
      if fields then "fields are numbered from 1"
      else "byte/character positions are numbered from 1"
  | .decreasing => "invalid decreasing range"
  | .invalid text =>
      if fields then s!"invalid field value {inQuotes text}"
      else s!"invalid byte/character position {inQuotes text}"
  | .noEnds => "invalid range with no endpoint: -"

def positionRange (item : List Char) : Except PositionError PositionRange := do
  let first := item.takeWhile Char.isDigit
  let low := baseValue? 10 first
  let range ←
    match item.drop first.length with
    | [] =>
        match low with
        | some n => pure ⟨n, some n⟩
        | none => throw .zero
    | '-' :: last =>
        match low, baseValue? 10 last with
        | none, none =>
            if last.isEmpty then throw .noEnds else throw (.invalid (String.ofList last))
        | some n, none =>
            if last.isEmpty then pure ⟨n, none⟩ else throw (.invalid (String.ofList last))
        | none, some n => pure ⟨1, some n⟩
        | some low, some high =>
            if high < low then throw .decreasing else pure ⟨low, some high⟩
    | rest => throw (.invalid (String.ofList rest))
  if range.first = 0 ∨ range.last = some 0 then throw .zero else return range

def positionRanges (text : String) : Except PositionError (List PositionRange) :=
  ((text.toList.splitOnP fun c => c == ',' || c == ' ').mapM positionRange)

def isNamed (ranges : List PositionRange) (position : Nat) : Bool :=
  ranges.any fun r => r.first ≤ position && r.last.all (position ≤ ·)

def keptItems {α : Type} (keep : Nat → Bool) (items : List α) : List α :=
  ((items.zipIdx 1).filter fun item => keep item.2).map (·.1)

def cut : Program := fun surroundings args input =>
  withOptions "cut"
    ⟨"nszC", "bcdfO",
      [("bytes", 'b'), ("characters", 'c'), ("fields", 'f'), ("delimiter", 'd'),
        ("only-delimited", 's'), ("complement", 'C'), ("output-delimiter", 'O')]⟩ 1 args input
    fun options =>
      let lists := options.given.filter fun o => o.1 == 'b' || o.1 == 'c' || o.1 == 'f'
      match lists with
      | [] => misused "cut" "you must specify a list of bytes, characters, or fields" 1 input
      | _ :: _ :: _ => misused "cut" "only one list may be specified" 1 input
      | [(letter, list)] =>
          let byField := letter == 'f'
          let delimiter := (options.value? 'd').getD "\t"
          if delimiter.length > 1 then
            misused "cut" "the delimiter must be a single character" 1 input
          else if options.has 'd' && !byField then
            misused "cut"
              "an input delimiter may be specified only when operating on fields" 1 input
          else if options.has 's' && !byField then
            misused "cut" ("suppressing non-delimited lines makes sense\n" ++
              "\tonly when operating on fields") 1 input
          else
            match positionRanges list with
            | .error e => misused "cut" (e.message byField) 1 input
            | .ok ranges =>
                let keep (position : Nat) : Bool := isNamed ranges position != options.has 'C'
                let mark := delimiter.toList.headD '\x00'
                let joiner := ((options.value? 'O').getD delimiter).toList
                let edited (line : List Char) : Option (List Char) :=
                  if byField then
                    let fields := line.splitOn mark
                    if fields.length ≤ 1 then if options.has 's' then none else some line
                    else some (joiner.intercalate (keptItems keep fields))
                  else some (keptItems keep line)
                let (files, left) := operandSources surroundings options.operands input
                transformed "cut" files left fun content =>
                  if content.isEmpty then .empty
                  else lineBytes ((linesOf content).1.filterMap edited)

/-! ## Lines side by side -/

/-- Takes the next line of each list in turn; a list of `none` takes from the shared lines. -/
def takeTurn (shared : List (List Char)) :
    List (Option (List (List Char))) →
      List (Option (List Char)) × List (Option (List (List Char))) × List (List Char)
  | [] => ([], [], shared)
  | none :: rest =>
      let (taken, lists, left) := takeTurn shared.tail rest
      (shared.head? :: taken, none :: lists, left)
  | some lines :: rest =>
      let (taken, lists, left) := takeTurn shared rest
      (lines.head? :: taken, some lines.tail :: lists, left)

/-- Items with separators between them, which are used in turn. -/
def joinedBy (separators : List (List Char)) : Nat → List (List Char) → List Char
  | _, [] => []
  | _, [item] => item
  | i, item :: rest =>
      let separator := if separators.isEmpty then [] else
        separators.getD (i % separators.length) []
      item ++ separator ++ joinedBy separators (i + 1) rest

/-- The lines of lists side by side, until all lists have ended. -/
def sideBySide (separators : List (List Char)) :
    Nat → List (List Char) → List (Option (List (List Char))) → List (List Char)
  | 0, _, _ => []
  | fuel + 1, shared, lists =>
      let (taken, lists, shared) := takeTurn shared lists
      if taken.all Option.isNone then []
      else
        joinedBy separators 0 (taken.map (·.getD [])) :: sideBySide separators fuel shared lists

/-- The separators that a list of characters with escapes names. -/
def separatorList : List Char → List (List Char)
  | '\\' :: 'n' :: rest => ['\n'] :: separatorList rest
  | '\\' :: 't' :: rest => ['\t'] :: separatorList rest
  | '\\' :: '0' :: rest => [] :: separatorList rest
  | '\\' :: c :: rest => [c] :: separatorList rest
  | c :: rest => [c] :: separatorList rest
  | [] => []

/-- Puts the lines of files side by side, or those of each file in one line. -/
def paste : Program := fun surroundings args input =>
  withOptions "paste" ⟨"sz", "d", [("delimiters", 'd'), ("serial", 's')]⟩ 1 args input
    fun options =>
      let separators := separatorList ((options.value? 'd').getD "\t").toList
      let operands := if options.operands.isEmpty then ["-"] else options.operands
      let lines (content : List UInt8) : List (List Char) :=
        if content.isEmpty then [] else (linesOf content).1
      let (files, left) := operandSources surroundings operands input
      match files.find? (fun source => source.content.toOption.isNone) with
      | some ⟨name, .error e⟩ => failing (plainComplaint "paste" name e) 1 input
      | _ =>
          let shown :=
            if options.has 's' then
              files.map fun source =>
                joinedBy separators 0 (lines (source.content.toOption.getD []))
            else
              let lists := files.map fun source =>
                if isInput source.name then none
                else some (lines (source.content.toOption.getD []))
              let shared := if operands.any isInput then lines input else []
              let total := shared.length + lists.foldl (fun n l => n + (l.getD []).length) 1
              sideBySide separators total shared lists
          { output := lineBytes shown, input := left }

/-! ## Numbers, order and width -/

/-- Numbers lines; only those that hold anything, unless all are to be numbered. -/
def numberedLines (style : Char) (put : Int → List Char) (blank : List Char) (step : Int) :
    Int → List (List Char) → List (List Char)
  | _, [] => []
  | number, line :: rest =>
      if style = 'a' ∨ (style = 't' ∧ !line.isEmpty) then
        (put number ++ line) :: numberedLines style put blank step (number + step) rest
      else (blank ++ line) :: numberedLines style put blank step number rest

def nl : Program := fun surroundings args input =>
  withOptions "nl"
    ⟨"p", "bdfhilnsvw",
      [("body-numbering", 'b'), ("starting-line-number", 'v'), ("line-increment", 'i'),
        ("number-format", 'n'), ("number-separator", 's'), ("number-width", 'w')]⟩ 1 args input
    fun options =>
      let number (letter : Char) (usual : Int) : Int :=
        ((options.value? letter).bind wholeNumber?).getD usual
      let width := (number 'w' 6).toNat
      let separator := ((options.value? 's').getD "\t").toList
      let put (n : Int) : List Char :=
        let digits := (toString n).toList
        let missing := width - digits.length
        let padded :=
          match (options.value? 'n').getD "rn" with
          | "ln" => digits ++ List.replicate missing ' '
          | "rz" => List.replicate missing '0' ++ digits
          | _ => List.replicate missing ' ' ++ digits
        padded ++ separator
      let blank := List.replicate (width + separator.length) ' '
      let style := ((options.value? 'b').getD "t").toList.headD 't'
      let (files, left) := operandSources surroundings options.operands input
      transformed "nl" files left fun content =>
        if content.isEmpty then .empty
        else
          lineBytes (numberedLines style put blank (number 'i' 1) (number 'v' 1) (linesOf content).1)

def rev : Program := fun surroundings args input =>
  withOptions "rev" {} 1 args input fun options =>
    let (files, left) := operandSources surroundings options.operands input
    transformed "rev" files left fun content =>
      let (lines, ended) := linesOf content
      let turned := lineBytes (lines.map fun l => narrow (wide l).reverse)
      if ended then turned else turned.extract 0 (turned.size - 1)

/-- The column after a character; a tab goes on to the next multiple of eight. -/
def columnAfter (bytewise : Bool) (column : Nat) (c : Char) : Nat :=
  if bytewise then column + 1
  else if c = '\t' then (column / 8 + 1) * 8
  else if c = '\r' then 0
  else if c.toNat = 8 then column - 1
  else column + 1

/-- The pieces of a line that are no wider than a limit; with `atBlanks` they end behind blanks
where that is possible. `held` holds the characters of the piece, last first. -/
def brokenLine (bytewise atBlanks : Bool) (limit : Nat) :
    Nat → List Char → List Char → List (List Char)
  | 0, held, cs => [held.reverse ++ cs]
  | _ + 1, held, [] => [held.reverse]
  | fuel + 1, held, c :: rest =>
      let column := held.foldr (fun c column => columnAfter bytewise column c) 0
      if limit < columnAfter bytewise column c && !held.isEmpty then
        let tail := held.takeWhile fun c => !(c == ' ' || c == '\t')
        if atBlanks && tail.length < held.length then
          (held.drop tail.length).reverse ::
            brokenLine bytewise atBlanks limit fuel tail (c :: rest)
        else held.reverse :: brokenLine bytewise atBlanks limit fuel [c] rest
      else brokenLine bytewise atBlanks limit fuel (c :: held) rest

def fold : Program := fun surroundings args input =>
  let args := args.map fun arg =>
    match arg.toList with
    | '-' :: c :: cs => if (c :: cs).all Char.isDigit then s!"-w{String.ofList (c :: cs)}" else arg
    | _ => arg
  withOptions "fold" ⟨"bs", "w", [("width", 'w'), ("bytes", 'b'), ("spaces", 's')]⟩ 1 args input
    fun options =>
      let text := (options.value? 'w').getD "80"
      match (baseValue? 10 text.toList).filter (· != 0) with
      | none => failing s!"fold: invalid number of columns: {inQuotes text}\n" 1 input
      | some limit =>
          let (files, left) := operandSources surroundings options.operands input
          transformed "fold" files left fun content =>
            let (lines, ended) := linesOf content
            let broken := lines.flatMap fun line =>
              brokenLine (options.has 'b') (options.has 's') limit (2 * line.length + 2) [] line
            let shown := lineBytes broken
            if ended then shown else shown.extract 0 (shown.size - 1)

def expandedLine (stop : Nat) (line : List Char) : List Char :=
  (line.foldl
    (fun (done : List Char) c =>
      if c = '\t' then List.replicate (stop - done.length % stop) ' ' ++ done else c :: done)
    []).reverse

def expandTabs : Program := fun surroundings args input =>
  withOptions "expand" ⟨"i", "t", [("tabs", 't'), ("initial", 'i')]⟩ 1 args input fun options =>
    let stop := ((options.value? 't').bind fun text => baseValue? 10 text.toList).getD 8
    let (files, left) := operandSources surroundings options.operands input
    transformed "expand" files left fun content =>
      let (lines, ended) := linesOf content
      let shown := lineBytes (lines.map (expandedLine (max 1 stop)))
      if ended then shown else shown.extract 0 (shown.size - 1)

end Shell

end VersionGroups
