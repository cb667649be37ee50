import VersionGroups.Files.Changes
import VersionGroups.Shell.Octets
import VersionGroups.Text.Hex

/-!
# Programs

A program takes arguments, the bytes of its input and its surroundings, and leaves two streams of
bytes, a status and the input that it did not read; it may also change the file tree. This module
says how programs read their options and the files that their arguments name.
-/

namespace VersionGroups

namespace Shell

/-- Where a program runs: a file tree, the directory in it from which paths start, and whether the
input is a file. -/
structure Surroundings where
  tree : FileTree
  directory : Location
  seekable : Bool := false

/-- What a program leaves behind. What it puts out at once precedes its complaints, the rest of its
output comes after them. Without a tree the file tree is as it was. -/
structure Finished where
  early : ByteArray := .empty
  output : ByteArray := .empty
  errors : ByteArray := .empty
  status : Nat := 0
  input : List UInt8
  tree : Option FileTree := none

abbrev Program := Surroundings → List String → List UInt8 → Finished

abbrev Filter := List String → List UInt8 → Finished

def failing (message : String) (status : Nat) (input : List UInt8) : Finished :=
  { errors := octets message, status, input }

/-- The advice that follows a complaint about the arguments of a program. -/
def advice (name : String) : String := s!"Try '{name} --help' for more information.\n"

def misused (name message : String) (status : Nat) (input : List UInt8) : Finished :=
  failing (s!"{name}: {message}\n" ++ advice name) status input

/-! ## Numbers -/

def baseValue? (base : Nat) (cs : List Char) : Option Nat :=
  if cs.isEmpty then none
  else
    cs.foldl
      (fun read c => read.bind fun n => ((hexDigit? c).filter (· < base)).map (n * base + ·))
      (some 0)

/-- The whole number at the beginning of a text, in base sixteen or eight after a mark, and the
rest; where there is none the rest is the whole text. -/
def numberPrefix (cs : List Char) : Int × List Char :=
  let body := cs.dropWhile Char.isWhitespace
  let (negative, body) :=
    match body with
    | '-' :: rest => (true, rest)
    | '+' :: rest => (false, rest)
    | body => (false, body)
  let (base, body) :=
    match body with
    | '0' :: x :: c :: rest =>
        if (x == 'x' || x == 'X') && (hexDigit? c).isSome then (16, c :: rest) else (8, body)
    | '0' :: _ => (8, body)
    | _ => (10, body)
  let digits := body.takeWhile fun c => (hexDigit? c).any (· < base)
  match baseValue? base digits with
  | none => (0, cs)
  | some n => (if negative then -(n : Int) else n, body.drop digits.length)

/-- The whole number that a text stands for: decimal, or in base sixteen or eight after a mark. -/
def wholeNumber? (text : String) : Option Int :=
  match numberPrefix text.toList with
  | (n, []) => if text = "" then none else some n
  | _ => none

/-- The decimal number at the beginning of a text: its digits as a whole number, the power of ten
that they count, and the rest. -/
def decimalPrefix? (cs : List Char) : Option (Nat × Int × List Char) :=
  let whole := cs.takeWhile Char.isDigit
  let rest := cs.drop whole.length
  let (places, rest) :=
    match rest with
    | '.' :: more =>
        let places := more.takeWhile Char.isDigit
        if whole.isEmpty && places.isEmpty then ([], rest) else (places, more.drop places.length)
    | _ => ([], rest)
  (baseValue? 10 (whole ++ places)).map fun units =>
    let power := -(places.length : Int)
    match rest with
    | e :: more =>
        if e = 'e' ∨ e = 'E' then
          let (sign, digits) :=
            match more with
            | '-' :: digits => ((-1 : Int), digits)
            | '+' :: digits => (1, digits)
            | digits => (1, digits)
          let exponent := digits.takeWhile Char.isDigit
          match baseValue? 10 exponent with
          | some n => (units, power + sign * n, digits.drop exponent.length)
          | none => (units, power, rest)
        else (units, power, rest)
    | [] => (units, power, [])

def rightAligned (width : Nat) (text : String) : String :=
  String.ofList (List.replicate (width - text.length) ' ') ++ text

def countFactor? (suffix : List Char) : Option Nat :=
  match suffix with
  | [] => some 1
  | ['b'] => some 512
  | ['k'] => some 1024
  | ['K'] => some 1024
  | ['k', 'B'] => some 1000
  | ['K', 'B'] => some 1000
  | ['m'] => some 1048576
  | ['M'] => some 1048576
  | ['M', 'B'] => some 1000000
  | _ => none

def countValue? (cs : List Char) : Option Nat := do
  let digits := cs.takeWhile Char.isDigit
  return (← baseValue? 10 digits) * (← countFactor? (cs.drop digits.length))

/-! ## Options -/

/-- The options that a program knows: letters without a value, letters with one, and longer names of
letters. -/
structure OptionTable where
  plain : String := ""
  valued : String := ""
  long : List (String × Char) := []

/-- The options that arguments give, with their values, and the other arguments. -/
structure Options where
  given : List (Char × String)
  operands : List String

namespace Options

def has (options : Options) (letter : Char) : Bool := options.given.any fun o => o.1 == letter

/-- The values of an option, in the order in which they are given. -/
def values (options : Options) (letter : Char) : List String :=
  (options.given.filter (fun o => o.1 == letter)).map (·.2)

def value? (options : Options) (letter : Char) : Option String :=
  (options.values letter).getLast?

def add (letter : Char) (value : String) (options : Options) : Options :=
  { options with given := (letter, value) :: options.given }

end Options

/-- The options of a cluster of letters, and the letter that still needs a value. -/
def clusterOptions (table : OptionTable) :
    List Char → Except String (List (Char × String) × Option Char)
  | [] => .ok ([], none)
  | c :: rest =>
      if table.plain.toList.contains c then
        (clusterOptions table rest).map fun r => ((c, "") :: r.1, r.2)
      else if table.valued.toList.contains c then
        if rest.isEmpty then .ok ([], some c) else .ok ([(c, String.ofList rest)], none)
      else .error s!"invalid option -- '{c}'"

/-- The option that a longer name stands for, its value, and whether it still needs one. -/
def longOption (table : OptionTable) (text : List Char) :
    Except String (Char × String × Bool) :=
  let name := text.takeWhile (· != '=')
  let value := text.drop (name.length + 1)
  let fitting := table.long.filter fun l => name.isPrefixOf l.1.toList
  match (fitting.find? (fun l => l.1.toList == name)).or fitting.head? with
  | none => .error s!"unrecognized option '--{String.ofList text}'"
  | some (_, letter) =>
      .ok (letter, String.ofList value,
        table.valued.toList.contains letter && name.length = text.length)

/-- Reads arguments; options may come after other arguments, unless two dashes precede them. -/
def readOptions (table : OptionTable) : Nat → List String → Except String Options
  | 0, _ => .ok ⟨[], []⟩
  | _ + 1, [] => .ok ⟨[], []⟩
  | fuel + 1, arg :: rest => do
      match arg.toList with
      | ['-', '-'] => return ⟨[], rest⟩
      | '-' :: '-' :: name =>
          let (letter, value, missing) ← longOption table name
          if missing then
            match rest with
            | value :: rest => return (← readOptions table fuel rest).add letter value
            | [] => throw s!"option '--{String.ofList name}' requires an argument"
          else return (← readOptions table fuel rest).add letter value
      | '-' :: c :: letters =>
          let (given, missing) ← clusterOptions table (c :: letters)
          let (last, rest) ←
            match missing, rest with
            | none, rest => pure ([], rest)
            | some c, value :: rest => pure ([(c, value)], rest)
            | some c, [] => throw s!"option requires an argument -- '{c}'"
          let options ← readOptions table fuel rest
          return { options with given := given ++ last ++ options.given }
      | _ =>
          let options ← readOptions table fuel rest
          return { options with operands := arg :: options.operands }

/-- An argument at a place, between quotation marks. -/
def shownArgument (args : List String) (place : Nat) : String := inQuotes (args.getD place "")

/-- Runs a program under its options; wrong ones end it with a status of its own. -/
def withOptions (name : String) (table : OptionTable) (status : Nat) (args : List String)
    (input : List UInt8) (body : Options → Finished) : Finished :=
  match readOptions table (args.length + 1) args with
  | .ok options => body options
  | .error message => misused name message status input

/-! ## Files -/

def standardDirectories : List Location :=
  [["/", "bin"], ["/", "dev"], ["/", "etc"], ["/", "tmp"], ["/", "usr"], ["/", "usr", "bin"]]

def devices : List String :=
  ["/dev/null", "/dev/zero", "/dev/full", "/dev/stdin", "/dev/stdout", "/dev/stderr"]

/-- The path that scripts see of the working directory of the tree. -/
def home : String := "/work"

/-- What a path leads to inside the working directory of the tree, if it names that directory. -/
def homePart? (path : String) : Option String :=
  if path = home then some "."
  else if path.startsWith (home ++ "/") then
    some ("./" ++ String.ofList (path.toList.drop (home.length + 1)))
  else none

def shownPath (location : Location) : String :=
  if location.head? = some "/" then encoded (FileTree.pathOf location)
  else encoded (location.foldl Path.join home)

namespace Surroundings

/-- The path from the working directory of the tree that leads where a path from the directory of
the program does. -/
def path (surroundings : Surroundings) (path : String) : String :=
  let path := decoded path
  if path = "" then ""
  else (homePart? path).getD (Path.join (FileTree.pathOf surroundings.directory) path)

/-- What a path leads to. -/
def find (surroundings : Surroundings) (path : String) : Except AccessError FileEntry :=
  surroundings.tree.find (surroundings.path path)

/-- The bytes of the file that a path leads to. -/
def read (surroundings : Surroundings) (path : String) : Except AccessError (List UInt8) :=
  if path = "/dev/null" then .ok []
  else (surroundings.tree.readBytes (surroundings.path path)).map ByteArray.toList

def isDirectory (surroundings : Surroundings) (path : String) : Bool :=
  surroundings.tree.isDirectory (surroundings.path path)

def isFile (surroundings : Surroundings) (path : String) : Bool :=
  surroundings.tree.isFile (surroundings.path path)

/-- The surroundings after a change of the tree, and whether it succeeded. -/
def change (surroundings : Surroundings) (change : FileChange Unit) :
    Except AccessError Unit × Surroundings :=
  let (result, tree) := change surroundings.tree
  (result, { surroundings with tree })

end Surroundings

/-- A file that a program reads: the name that it was called by, and its bytes or why it has none.
-/
structure Source where
  name : String
  content : Except AccessError (List UInt8)

def isInput (name : String) : Bool := name == "-" || name == "/dev/stdin"

/-- The files that names call, in turn, and what is left of the input. -/
def sources (surroundings : Surroundings) (input : List UInt8) :
    List String → List Source × List UInt8
  | [] => ([], input)
  | name :: rest =>
      let (content, left) :=
        if isInput name then (.ok input, []) else (surroundings.read name, input)
      let (others, left) := sources surroundings left rest
      (⟨name, content⟩ :: others, left)

/-- The files that operands call, or the input if there are none. -/
def operandSources (surroundings : Surroundings) (operands : List String) (input : List UInt8) :
    List Source × List UInt8 :=
  sources surroundings input (if operands.isEmpty then ["-"] else operands)

/-- The complaints about files that cannot be read. -/
def complaints (sources : List Source) (complaint : String → AccessError → String) : String :=
  String.join (sources.map fun source =>
    match source.content with
    | .ok _ => ""
    | .error e => complaint source.name e)

def plainComplaint (program name : String) (e : AccessError) : String :=
  s!"{program}: {shownName name}: {e.message}\n"

def contents (sources : List Source) : List UInt8 :=
  sources.flatMap fun source =>
    match source.content with
    | .ok content => content
    | .error _ => []

/-- What a program leaves that turns the files one after the other into its output. -/
def transformed (program : String) (sources : List Source) (left : List UInt8)
    (output : List UInt8 → ByteArray) : Finished :=
  let errors := complaints sources (plainComplaint program)
  { output := output (contents sources)
    errors := octets errors
    status := if errors = "" then 0 else 1
    input := left }

/-! ## Lines -/

/-- The lines of bytes, without their ends, and whether the last one has an end. -/
def linesOf (input : List UInt8) : List (List Char) × Bool :=
  let pieces := (input.map byteChar).splitOn '\n'
  match pieces.getLast? with
  | some [] => (pieces.dropLast, true)
  | _ => (pieces, false)

/-- The bytes of lines, each with an end. -/
def lineBytes (lines : List (List Char)) : ByteArray :=
  bytes ((lines.flatMap (· ++ ['\n'])).map charByte)

/-- The lines of bytes, each with its end; the last one may lack it. -/
def byteLines : List UInt8 → List (List UInt8)
  | [] => []
  | b :: rest =>
      if b = 10 then [b] :: byteLines rest
      else
        match byteLines rest with
        | [] => [[b]]
        | line :: others => (b :: line) :: others

end Shell

end VersionGroups
