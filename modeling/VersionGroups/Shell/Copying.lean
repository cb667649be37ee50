import VersionGroups.Shell.Program

/-!
# Copying bytes

Programs that put out their input or the files that their arguments name: all of it, its beginning,
its end, its lines from the last to the first, or blocks of it. Some also keep a copy in files.
-/

namespace VersionGroups

namespace Shell

/-- What a program leaves that reads its files one after the other and puts out at once what it
makes of those before one that cannot be read. -/
def streamed (program : String) (sources : List Source) (left : List UInt8)
    (output : List UInt8 → List UInt8) : Finished :=
  let all := output (contents sources)
  let before := sources.takeWhile fun source => source.content.toOption.isSome
  let count := (output (contents before)).length
  let errors := complaints sources (plainComplaint program)
  { early := bytes (all.take count)
    errors := octets errors
    output := bytes (all.drop count)
    status := if errors = "" then 0 else 1
    input := left }

/-! ## Whole files -/

def visibleByte (b : UInt8) : List Char :=
  let low (b : UInt8) : List Char :=
    if b < 32 then ['^', byteChar (b + 64)]
    else if b = 127 then ['^', '?']
    else [byteChar b]
  if b < 128 then low b else 'M' :: '-' :: low (b - 128)

def shownBytes (tabs others : Bool) (line : List UInt8) : List UInt8 :=
  line.flatMap fun b =>
    if b = 10 then [b]
    else if b = 9 then if tabs then [94, 73] else [b]
    else if others then (visibleByte b).map charByte
    else [b]

/-- How lines are shown: numbered, all or those that are not blank, without repeated blank lines,
and with a mark at their ends. -/
structure LineDisplay where
  numbered : Bool
  numberedFilled : Bool
  squeezed : Bool
  ended : Bool
  tabs : Bool
  others : Bool

/-- The lines as they are shown, after a number of them and perhaps a blank one. -/
def LineDisplay.lines (display : LineDisplay) : Nat → Bool → List (List UInt8) → List UInt8
  | _, _, [] => []
  | number, blankBefore, line :: rest =>
      let blank := line == [10]
      if blank && blankBefore && display.squeezed then display.lines number true rest
      else
        let counted := if display.numberedFilled then !blank else display.numbered
        let number := if counted then number + 1 else number
        let mark :=
          if counted then textBytes (rightAligned 6 (toString number) ++ "\t") else []
        let shown := shownBytes display.tabs display.others line
        let shown :=
          if display.ended && line.getLast? == some 10 then shown.dropLast ++ [36, 10] else shown
        mark ++ shown ++ display.lines number blank rest

/-- Puts out files one after the other. -/
def cat : Program := fun surroundings args input =>
  withOptions "cat"
    ⟨"nbsETvAetu", "",
      [("number", 'n'), ("number-nonblank", 'b'), ("squeeze-blank", 's'), ("show-ends", 'E'),
        ("show-tabs", 'T'), ("show-nonprinting", 'v'), ("show-all", 'A')]⟩ 1 args input
    fun options =>
      let has (letters : String) : Bool := letters.toList.any options.has
      let display : LineDisplay :=
        ⟨has "n", has "b", has "s", has "EAe", has "TAt", has "vAet"⟩
      let (files, left) := operandSources surroundings options.operands input
      streamed "cat" files left fun content =>
        if has "nbsETvAet" then display.lines 0 false (byteLines content) else content

/-- Puts out files with the lines of each from the last to the first. -/
def tac : Program := fun surroundings args input =>
  withOptions "tac" ⟨"br", "s", [("separator", 's')]⟩ 1 args input fun options =>
    let (files, left) := operandSources surroundings options.operands input
    let turned := files.map fun source =>
      { source with content := source.content.map fun c => (byteLines c).reverse.flatten }
    let errors := complaints files fun name e =>
      s!"tac: failed to open {quotedName name} for reading: {e.message}\n"
    { output := bytes (contents turned)
      errors := octets errors
      status := if errors = "" then 0 else 1
      input := left }

/-! ## Beginnings and ends -/

def takeLines : Nat → List UInt8 → List UInt8
  | 0, _ => []
  | _ + 1, [] => []
  | n + 1, b :: rest => if b = 10 then b :: takeLines n rest else b :: takeLines (n + 1) rest

/-- The number of lines; the last one may lack an end. -/
def lineCount (content : List UInt8) : Nat :=
  content.countP (· == 10) + if content.getLast?.any (· != 10) then 1 else 0

/-- Which part of a content is meant: so many lines or bytes, or all but those. -/
structure Extent where
  inBytes : Bool
  allBut : Bool
  count : Nat

def Extent.beginning (extent : Extent) (content : List UInt8) : List UInt8 :=
  let total := if extent.inBytes then content.length else lineCount content
  let count := if extent.allBut then total - extent.count else extent.count
  if extent.inBytes then content.take count else takeLines count content

/-- The part at the end; all but `n` is what begins with the one of number `n`. -/
def Extent.ending (extent : Extent) (content : List UInt8) : List UInt8 :=
  let total := if extent.inBytes then content.length else lineCount content
  let before := if extent.allBut then extent.count - 1 else total - extent.count
  if extent.inBytes then content.drop before
  else content.drop (takeLines before content).length

/-- The extent that options give; a sign may stand before the count. -/
def extentOf (program : String) (mark : Char) (options : Options) : Except String Extent :=
  let given := (options.given.filter fun o => o.1 == 'c' || o.1 == 'n').getLast?
  let (letter, text) := given.getD ('n', "10")
  let cs := text.toList
  let signed := cs.head? == some '-' || cs.head? == some '+'
  match countValue? (if signed then cs.tail else cs) with
  | some n => .ok ⟨letter == 'c', cs.head? == some mark, n⟩
  | none =>
      let noun := if letter = 'c' then "bytes" else "lines"
      .error s!"{program}: invalid number of {noun}: {inQuotes text}\n"

/-- The arguments with a count that is an option of its own as the value of one. -/
def withPlainCount (marks : List Char) (args : List String) : List String :=
  match args with
  | [] => []
  | first :: rest =>
      match first.toList with
      | mark :: c :: cs =>
          if marks.contains mark && c.isDigit then
            let digits := (c :: cs).takeWhile Char.isDigit
            let letter := if cs.drop (digits.length - 1) == ['c'] then "-c" else "-n"
            let sign := if mark = '+' then "+" else ""
            letter :: (sign ++ String.ofList digits) :: rest
          else args
      | _ => args

/-- The parts of some files, with their names above them if they are to be shown. -/
def titledParts (titled : Bool) (part : List UInt8 → List UInt8) :
    Bool → List Source → List UInt8
  | _, [] => []
  | first, source :: rest =>
      match source.content with
      | .error _ => titledParts titled part first rest
      | .ok content =>
          let name := if isInput source.name then "standard input" else source.name
          let title := (if first then "" else "\n") ++ s!"==> {name} <==\n"
          (if titled then textBytes title else []) ++ part content ++
            titledParts titled part false rest

/-- The options of the programs that put out parts. -/
def partOptions : OptionTable :=
  ⟨"qvzfF", "cn",
    [("lines", 'n'), ("bytes", 'c'), ("quiet", 'q'), ("silent", 'q'), ("verbose", 'v'),
      ("follow", 'f')]⟩

/-- What a program leaves that puts out parts of files. -/
def partsOf (program : String) (options : Options) (files : List Source) (left : List UInt8)
    (part : List UInt8 → List UInt8) : Finished :=
  let titled := options.has 'v' || (files.length > 1 && !options.has 'q')
  let errors := complaints files fun name e =>
    match e with
    | .isDirectory => s!"{program}: error reading {quotedName name}: {e.message}\n"
    | _ => s!"{program}: cannot open {quotedName name} for reading: {e.message}\n"
  { output := bytes (titledParts titled part true files)
    errors := octets errors
    status := if errors = "" then 0 else 1
    input := left }

/-- The number of bytes that are read from a pipe at once. -/
def blockSize : Nat := 8192

/-- What is left of an input of which a part at the beginning was looked for. -/
def leftAfter (surroundings : Surroundings) (extent : Extent) (input : List UInt8) :
    List UInt8 :=
  let used := (extent.beginning input).length
  if extent.allBut then []
  else if extent.inBytes || surroundings.seekable then input.drop used
  else if extent.count = 0 then input
  else input.drop ((used + blockSize - 1) / blockSize * blockSize)

def head : Program := fun surroundings args input =>
  withOptions "head" partOptions 1 (withPlainCount ['-'] args) input fun options =>
    match extentOf "head" '-' options with
    | .error message => failing message 1 input
    | .ok extent =>
        if options.operands = ["/dev/zero"] then
          { output := bytes (List.replicate (if extent.inBytes then extent.count else 0) 0), input }
        else
          let (files, left) := operandSources surroundings options.operands input
          let readsInput := options.operands.isEmpty || options.operands.any isInput
          let left := if readsInput then leftAfter surroundings extent input else left
          partsOf "head" options files left extent.beginning

def tail : Program := fun surroundings args input =>
  withOptions "tail" partOptions 1 (withPlainCount ['-', '+'] args) input fun options =>
    match extentOf "tail" '+' options with
    | .error message => failing message 1 input
    | .ok extent =>
        let (files, left) := operandSources surroundings options.operands input
        partsOf "tail" options files left extent.ending

/-! ## Copies in files -/

/-- Puts a content into a file, in its place or behind what is there. -/
def Surroundings.store (surroundings : Surroundings) (behind : Bool) (path : String)
    (content : List UInt8) : Except AccessError Unit × Surroundings :=
  if devices.contains path then (.ok (), surroundings)
  else
    let before :=
      if behind then ((surroundings.read path).toOption.getD []) else []
    surroundings.change (FileTree.write (surroundings.path path) (bytes (before ++ content)))

/-- Puts a content into files, with a complaint about each that cannot be written. -/
def storeAll (complaint : String → AccessError → String) (behind : Bool) (content : List UInt8)
    (surroundings : Surroundings) (paths : List String) : String × Surroundings :=
  paths.foldl
    (fun (errors, surroundings) path =>
      match surroundings.store behind path content with
      | (.ok _, surroundings) => (errors, surroundings)
      | (.error e, surroundings) => (errors ++ complaint path e, surroundings))
    ("", surroundings)

/-- Puts out its input and keeps a copy in files. -/
def tee : Program := fun surroundings args input =>
  withOptions "tee" ⟨"aip", "", [("append", 'a')]⟩ 1 args input fun options =>
    let (errors, after) :=
      storeAll (plainComplaint "tee") (options.has 'a') input surroundings options.operands
    { output := bytes input
      errors := octets errors
      status := if errors = "" then 0 else 1
      input := []
      tree := some after.tree }

def namedOperand? (args : List String) (name : String) : Option String :=
  ((args.filter (·.startsWith (name ++ "="))).getLast?).map fun arg =>
    String.ofList (arg.toList.drop (name.length + 1))

/-- The number of whole blocks in a number of bytes, and that of the partial ones. -/
def recordText (size total : Nat) : String :=
  toString (total / size) ++ if total % size = 0 then "+0" else "+1"

def dd : Program := fun surroundings args input =>
  let value? (name : String) : Option String := namedOperand? args name
  let number (name : String) (usual : Nat) : Nat :=
    ((value? name).bind fun text => countValue? text.toList).getD usual
  let size := max 1 (number "bs" (number "ibs" 512))
  let skipped := number "skip" 0 * size
  let (source, left) := operandSources surroundings (value? "if").toList input
  match source.find? (fun s => s.content.toOption.isNone) with
  | some ⟨name, .error e⟩ =>
      failing s!"dd: failed to open {quotedName name}: {e.message}\n" 1 input
  | _ =>
      let content := (contents source).drop skipped
      let taken :=
        match (value? "count").bind fun text => countValue? text.toList with
        | some count => content.take (count * size)
        | none => content
      let changes := ((value? "conv").getD "").toList.splitOn ','
      let changed (b : UInt8) : UInt8 :=
        if changes.contains "ucase".toList then charByte (byteChar b).toUpper
        else if changes.contains "lcase".toList then charByte (byteChar b).toLower
        else b
      let result := taken.map changed
      let left := if (value? "if").isNone then input.drop (skipped + taken.length) else left
      let records := recordText size taken.length
      let report :=
        if value? "status" = some "none" then ""
        else s!"{records} records in\n{records} records out\n"
      match value? "of" with
      | none => { output := bytes result, errors := octets report, input := left }
      | some path =>
          match surroundings.store false path result with
          | (.ok _, after) =>
              { errors := octets report, input := left, tree := some after.tree }
          | (.error e, _) =>
              failing s!"dd: failed to open {quotedName path}: {e.message}\n" 1 input

end Shell

end VersionGroups
