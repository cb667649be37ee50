import VersionGroups.Shell.Copying

/-!
# Ordered lines

Lines are put in order by keys, which are parts of them that are compared as texts or as numbers;
lines with equal keys are ordered as a whole. Lines that are equal in a row can be joined, and
ordered lists of lines can be compared.
-/

namespace VersionGroups

namespace Shell

/-! ## Keys -/

/-- How keys are compared: as numbers, without blanks at the beginning, without regard to case or to
characters that are no letters, digits or blanks, and in reverse. -/
structure KeyStyle where
  numeric : Bool := false
  general : Bool := false
  human : Bool := false
  blanks : Bool := false
  folded : Bool := false
  dictionary : Bool := false
  reversed : Bool := false
  deriving DecidableEq

def KeyStyle.add (style : KeyStyle) (letter : Char) : KeyStyle :=
  match letter with
  | 'n' => { style with numeric := true }
  | 'g' => { style with general := true }
  | 'h' => { style with human := true }
  | 'b' => { style with blanks := true }
  | 'f' => { style with folded := true }
  | 'd' => { style with dictionary := true }
  | 'r' => { style with reversed := true }
  | _ => style

/-- Where a key begins or ends: a field and a character in it, zero for the end of the field. -/
structure KeyEdge where
  field : Nat
  character : Nat

/-- A key: where it begins, where it ends if that is not the end of the line, and its style if it
has one of its own. -/
structure SortKey where
  first : KeyEdge
  last : Option KeyEdge
  style : KeyStyle

/-- An edge of a key with the letters of a style after it. -/
def keyEdge? (cs : List Char) : Option (KeyEdge × List Char) := do
  let field := cs.takeWhile Char.isDigit
  let rest := cs.drop field.length
  let number ← baseValue? 10 field
  match rest with
  | '.' :: rest =>
      let digits := rest.takeWhile Char.isDigit
      return (⟨number, ← baseValue? 10 digits⟩, rest.drop digits.length)
  | rest => return (⟨number, 0⟩, rest)

def sortKey? (text : String) : Option SortKey := do
  let (first, rest) ← keyEdge? text.toList
  let letters := rest.takeWhile Char.isAlpha
  let (last, more) ←
    match rest.drop letters.length with
    | [] => pure (none, [])
    | ',' :: rest =>
        let (last, more) ← keyEdge? rest
        pure (some last, more)
    | _ => none
  if first.field = 0 then none
  else return ⟨first, last, (letters ++ more).foldl KeyStyle.add {}⟩

/-- The places in a line at which its fields begin and end. -/
def fieldBounds (separator : Option Char) (line : List Char) : List (Nat × Nat) :=
  match separator with
  | some c =>
      ((line.splitOn c).foldl
        (fun (bounds, start) field => (bounds ++ [(start, start + field.length)],
          start + field.length + 1)) ([], 0)).1
  | none => blankBounds (line.length + 1) 0 line
where
  /-- The fields that blanks begin. -/
  blankBounds : Nat → Nat → List Char → List (Nat × Nat)
    | 0, _, _ => []
    | _ + 1, _, [] => []
    | fuel + 1, start, cs =>
        let gap := cs.takeWhile fun c => c == ' ' || c == '\t'
        let word := (cs.drop gap.length).takeWhile fun c => !(c == ' ' || c == '\t')
        let size := gap.length + word.length
        (start, start + size) :: blankBounds fuel (start + size) (cs.drop size)

def blanksAt (line : List Char) (place : Nat) : Nat :=
  ((line.drop place).takeWhile fun c => c == ' ' || c == '\t').length

def SortKey.part (key : SortKey) (separator : Option Char) (line : List Char) : List Char :=
  let bounds := fieldBounds separator line
  let skip (place : Nat) : Nat :=
    if key.style.blanks then place + blanksAt line place else place
  let start :=
    match bounds[key.first.field - 1]? with
    | some (low, _) => skip low + (key.first.character - 1)
    | none => line.length
  let stop :=
    match key.last with
    | none => line.length
    | some ⟨field, character⟩ =>
        match bounds[field - 1]? with
        | none => line.length
        | some (low, high) => if character = 0 then high else skip low + character
  (line.take stop).drop start

/-! ## Comparisons -/

/-- A number as a count of the last of some places. -/
structure ScaledNumber where
  units : Int
  places : Nat

/-- The number at the beginning of a text; zero if there is none. -/
def leadingNumber (exponents : Bool) (cs : List Char) : ScaledNumber × List Char :=
  let cs := cs.dropWhile fun c => c == ' ' || c == '\t'
  let (sign, body) :=
    match cs with
    | '-' :: rest => ((-1 : Int), rest)
    | '+' :: rest => if exponents then (1, rest) else (1, cs)
    | _ => (1, cs)
  let plain := body.takeWhile fun c => c.isDigit || c == '.'
  match decimalPrefix? (if exponents then body else plain) with
  | none => (⟨0, 0⟩, body)
  | some (units, power, rest) =>
      let rest := if exponents then rest else body.drop (plain.length - rest.length)
      if power ≤ 0 then (⟨sign * units, (-power).toNat⟩, rest)
      else (⟨sign * (units * Nat.pow 10 (min power.toNat 400) : Nat), 0⟩, rest)

def ScaledNumber.compare (a b : ScaledNumber) : Ordering :=
  Ord.compare (a.units * (Nat.pow 10 b.places : Nat)) (b.units * (Nat.pow 10 a.places : Nat))

/-- The order of two numbers that may have a letter for a power of a thousand behind them. -/
def compareHuman (a b : List Char) : Ordering :=
  let rank (r : ScaledNumber × List Char) : Int :=
    let letter := ("KMGTPEZY".toList.findIdx? fun c => r.2.head?.any (·.toUpper == c))
    let power := (letter.map fun (i : Nat) => (i : Int) + 1).getD 0
    if r.1.units = 0 then 0 else if r.1.units < 0 then -power - 1 else power + 1
  let (x, y) := (leadingNumber false a, leadingNumber false b)
  (Ord.compare (rank x) (rank y)).then (x.1.compare y.1)

/-- The order of two texts by their bytes. -/
def compareTexts : List Char → List Char → Ordering
  | [], [] => .eq
  | [], _ :: _ => .lt
  | _ :: _, [] => .gt
  | a :: as, b :: bs => (Ord.compare a.toNat b.toNat).then (compareTexts as bs)

def KeyStyle.compare (style : KeyStyle) (a b : List Char) : Ordering :=
  let order :=
    if style.numeric then (leadingNumber false a).1.compare (leadingNumber false b).1
    else if style.general then (leadingNumber true a).1.compare (leadingNumber true b).1
    else if style.human then compareHuman a b
    else
      let form (cs : List Char) : List Char :=
        let cs := if style.blanks then cs.dropWhile fun c => c == ' ' || c == '\t' else cs
        let cs :=
          if style.dictionary then cs.filter fun c => c.isAlphanum || c == ' ' || c == '\t'
          else cs
        if style.folded then cs.map Char.toUpper else cs
      compareTexts (form a) (form b)
  if style.reversed then order.swap else order

def compareKeys (separator : Option Char) (keys : List SortKey) (a b : List Char) : Ordering :=
  keys.foldl
    (fun order key =>
      order.then (key.style.compare (key.part separator a) (key.part separator b)))
    .eq

def sortOptions : OptionTable :=
  ⟨"bcCdfghimMnrRsuVz", "koStT",
    [("reverse", 'r'), ("numeric-sort", 'n'), ("unique", 'u'), ("key", 'k'),
      ("field-separator", 't'), ("ignore-case", 'f'), ("stable", 's'), ("output", 'o'),
      ("check", 'c'), ("ignore-leading-blanks", 'b'), ("dictionary-order", 'd'),
      ("general-numeric-sort", 'g'), ("human-numeric-sort", 'h'), ("merge", 'm')]⟩

/-- The lines without those that are equal to the one before. -/
def withoutRepeats (equal : List Char → List Char → Bool) :
    Option (List Char) → List (List Char) → List (List Char)
  | _, [] => []
  | last, line :: rest =>
      if last.any (equal · line) then withoutRepeats equal last rest
      else line :: withoutRepeats equal (some line) rest

/-- The first line that is not in order after the one before, with its number. -/
def firstDisorder? (inOrder : List Char → List Char → Bool) :
    Nat → List (List Char) → Option (Nat × List Char)
  | _, [] => none
  | _, [_] => none
  | number, a :: b :: rest =>
      if inOrder a b then firstDisorder? inOrder (number + 1) (b :: rest)
      else some (number + 1, b)

def sort : Program := fun surroundings args input =>
  withOptions "sort" sortOptions 2 args input fun options =>
    let shared := ("bdfghnr".toList.filter options.has).foldl KeyStyle.add {}
    let texts := options.values 'k'
    match texts.mapM sortKey? with
    | none =>
        let bad := (texts.find? fun t => (sortKey? t).isNone).getD ""
        failing s!"sort: invalid number at field start: invalid count at start of {inQuotes bad}\n" 2
          input
    | some given =>
        let separator := (options.value? 't').bind fun t => if t = "\\0" then some '\x00' else
          t.toList.head?
        let keys := given.map fun key => if key.style = {} then { key with style := shared } else key
        let keys := if keys.isEmpty then [⟨⟨1, 0⟩, none, shared⟩] else keys
        let byKeys := compareKeys separator keys
        let whole (a b : List Char) : Ordering :=
          let order := compareTexts a b
          if shared.reversed then order.swap else order
        let final := !options.has 's' && !options.has 'u'
        let order (a b : List Char) : Ordering :=
          (byKeys a b).then (if final then whole a b else .eq)
        let (files, left) := operandSources surroundings options.operands input
        let lines := files.flatMap fun source =>
          match source.content with
          | .ok content => if content.isEmpty then [] else (linesOf content).1
          | .error _ => []
        let failed := files.find? fun source => source.content.toOption.isNone
        match failed with
        | some ⟨name, .error e⟩ =>
            let verb := if e = .isDirectory then "read failed" else "cannot read"
            failing s!"sort: {verb}: {shownName name}: {e.message}\n" 2 input
        | _ =>
            if options.has 'c' || options.has 'C' then
              let inOrder (a b : List Char) : Bool :=
                if options.has 'u' then byKeys a b == .lt else (order a b).isLE
              match firstDisorder? inOrder 1 lines with
              | none => { input := left }
              | some (number, line) =>
                  let name := options.operands.head?.getD "-"
                  let message := s!"sort: {name}:{number}: disorder: {String.ofList line}\n"
                  failing (if options.has 'C' then "" else message) 1 left
            else
              let sorted := lines.mergeSort fun a b => (order a b).isLE
              let sorted :=
                if options.has 'u' then
                  withoutRepeats (fun a b => byKeys a b == .eq) none sorted
                else sorted
              let output := lineBytes sorted
              match options.value? 'o' with
              | none => { output, input := left }
              | some path =>
                  match surroundings.store false path output.toList with
                  | (.ok _, after) => { input := left, tree := some after.tree }
                  | (.error e, _) =>
                      failing s!"sort: open failed: {shownName path}: {e.message}\n" 2 left

/-! ## Equal lines in a row -/

/-- Lines that are equal in a row, as the first of them with the others. -/
def equalRuns (key : List Char → List Char) : List (List Char) → List (List (List Char))
  | [] => []
  | line :: rest =>
      match equalRuns key rest with
      | (next :: more) :: runs =>
          if key line == key next then (line :: next :: more) :: runs
          else [line] :: (next :: more) :: runs
      | runs => [line] :: runs

/-- The rest of a line after some fields, each with the blanks before it. -/
def afterFields : Nat → List Char → List Char
  | 0, cs => cs
  | n + 1, cs =>
      let isGap (c : Char) : Bool := c == ' ' || c == '\t'
      afterFields n ((cs.dropWhile isGap).dropWhile (!isGap ·))

def uniq : Program := fun surroundings args input =>
  withOptions "uniq"
    ⟨"cdDiuz", "fsw",
      [("count", 'c'), ("repeated", 'd'), ("unique", 'u'), ("ignore-case", 'i'),
        ("skip-fields", 'f'), ("skip-chars", 's'), ("check-chars", 'w')]⟩ 1 args input
    fun options =>
      let number? (letter : Char) : Option Nat :=
        (options.value? letter).bind fun text => baseValue? 10 text.toList
      let key (line : List Char) : List Char :=
        let cs := (afterFields ((number? 'f').getD 0) line).drop ((number? 's').getD 0)
        let cs := ((number? 'w').map cs.take).getD cs
        if options.has 'i' then cs.map Char.toUpper else cs
      let (files, left) := operandSources surroundings (options.operands.take 1) input
      let errors := complaints files (plainComplaint "uniq")
      let content := contents files
      let runs := equalRuns key (if content.isEmpty then [] else (linesOf content).1)
      let kept := runs.filter fun run =>
        if options.has 'd' || options.has 'D' then run.length > 1
        else if options.has 'u' then run.length == 1
        else true
      let kept := if options.has 'd' && options.has 'u' then [] else kept
      let shown := kept.flatMap fun run =>
        if options.has 'D' then run
        else
          let first := run.head?.getD []
          if options.has 'c' then
            [(rightAligned 7 (toString run.length) ++ " ").toList ++ first]
          else [first]
      let finished : Finished :=
        { output := lineBytes shown
          errors := octets errors
          status := if errors = "" then 0 else 1
          input := left }
      match options.operands.drop 1 with
      | [path] =>
          match surroundings.store false path (lineBytes shown).toList with
          | (.ok _, after) =>
              { finished with output := .empty, tree := some after.tree }
          | (.error e, _) => failing (plainComplaint "uniq" path e) 1 left
      | [] => finished
      | _ :: extra :: _ => misused "uniq" s!"extra operand {inQuotes extra}" 1 input

/-! ## Lines of two files -/

/-- Whether a line that is passed in a list shows that the list is not ordered: it comes after the
next line, or after the one before if it is the last. -/
def showsDisorder (before : Option (List Char)) (line : List Char) (rest : List (List Char)) : Bool :=
  match rest with
  | next :: _ => compareTexts line next == .gt
  | [] => before.any fun other => compareTexts other line == .gt

/-- A line that two lists have together: the column that it belongs to, for the first list alone,
the second alone, or both, and the lists that turn out not to be ordered there. -/
structure MergedLine where
  column : Nat
  text : List Char
  disorders : List Nat

/-- The lines of two ordered lists in order. Disorder is looked for only after the first line that
one list alone has. -/
def mergedLines : Nat → Bool → Option (List Char) → Option (List Char) → List (List Char) →
    List (List Char) → List MergedLine
  | 0, _, _, _, _, _ => []
  | _ + 1, _, _, _, [], [] => []
  | fuel + 1, _, p, q, a :: as, [] =>
      ⟨0, a, if showsDisorder p a as then [1] else []⟩ :: mergedLines fuel true (some a) q as []
  | fuel + 1, _, p, q, [], b :: bs =>
      ⟨1, b, if showsDisorder q b bs then [2] else []⟩ :: mergedLines fuel true p (some b) [] bs
  | fuel + 1, seen, p, q, a :: as, b :: bs =>
      match compareTexts a b with
      | .lt =>
          ⟨0, a, if showsDisorder p a as then [1] else []⟩ ::
            mergedLines fuel true (some a) q as (b :: bs)
      | .gt =>
          ⟨1, b, if showsDisorder q b bs then [2] else []⟩ ::
            mergedLines fuel true p (some b) (a :: as) bs
      | .eq =>
          let disorders :=
            (if showsDisorder p a as then [1] else []) ++ (if showsDisorder q b bs then [2] else [])
          ⟨2, a, if seen then disorders else []⟩ :: mergedLines fuel seen (some a) (some b) as bs

/-- Compares two ordered files line by line. -/
def comm : Program := fun surroundings args input =>
  withOptions "comm" { plain := "123z" } 1 args input fun options =>
    match options.operands with
    | [first, second] =>
        let (files, left) := operandSources surroundings [first, second] input
        let errors := complaints files (plainComplaint "comm")
        if errors != "" then failing errors 1 input
        else
          let lists := files.map fun source =>
            let content := source.content.toOption.getD []
            if content.isEmpty then [] else (linesOf content).1
          let (as, bs) := (lists.headD [], (lists.drop 1).headD [])
          let hidden (column : Nat) : Bool := options.has (Char.ofNat ('1'.toNat + column))
          let merged := mergedLines (as.length + bs.length + 1) false none none as bs
          let shown := merged.filterMap fun line =>
            if hidden line.column then none
            else
              let tabs := ((List.range line.column).filter fun c => !hidden c).length
              some (List.replicate tabs '\t' ++ line.text)
          let disorders := (merged.flatMap MergedLine.disorders).eraseDups
          let told := disorders.map fun file => s!"comm: file {file} is not in sorted order\n"
          let last := if told.isEmpty then "" else "comm: input is not in sorted order\n"
          { output := lineBytes shown
            errors := octets (String.join told ++ last)
            status := if told.isEmpty then 0 else 1
            input := left }
    | [] => misused "comm" "missing operand" 1 input
    | [first] => misused "comm" s!"missing operand after {inQuotes first}" 1 input
    | _ :: _ :: extra :: _ => misused "comm" s!"extra operand {inQuotes extra}" 1 input

end Shell

end VersionGroups
