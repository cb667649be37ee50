import VersionGroups.Shell.Listing
import VersionGroups.Shell.Pattern

/-!
# Finding files

A search starts at some paths and goes down through the directories. Files that pass a test are put
out, removed, or handed to commands.
-/

namespace VersionGroups

namespace Shell

/-- What is done with a file that is found. -/
inductive FileAction where
  | print (stop : String)
  | delete
  | run (command : List String) (together : Bool)
  deriving DecidableEq

/-- What is asked of a file, or done with it, which succeeds. -/
inductive FileTest where
  | all
  | nothing
  | named (pattern : List PatternPiece) (anyCase whole : Bool)
  | kind (directory : Bool)
  | empty
  | bytes (order : Ordering) (unit count : Nat)
  | action (action : FileAction)
  | negation (test : FileTest)
  | conjunction (first second : FileTest)
  | disjunction (first second : FileTest)

/-- A search: where it starts, which depths it covers, whether what lies in a directory comes before
it, and the test. -/
structure FileSearch where
  starts : List String
  least : Nat := 0
  most : Nat := 255
  contentsFirst : Bool := false
  test : FileTest := .all

def FileTest.acts : FileTest → Bool
  | .action _ => true
  | .negation test => test.acts
  | .conjunction first second => first.acts || second.acts
  | .disjunction first second => first.acts || second.acts
  | _ => false

/-- The actions that a test asks for at a path, and whether the path passes it. -/
def FileTest.judge (surroundings : Surroundings) (path : String) :
    FileTest → Bool × List FileAction
  | .all => (true, [])
  | .nothing => (false, [])
  | .named pattern anyCase whole =>
      let name := if whole then path else lastName path
      let name := if anyCase then name.map Char.toLower else name
      (matches? pattern name.toList, [])
  | .kind directory => (surroundings.isDirectory path == directory, [])
  | .empty =>
      (if surroundings.isDirectory path then (surroundings.names path).isEmpty
        else surroundings.size path == 0, [])
  | .bytes order unit count =>
      (compare ((surroundings.size path + unit - 1) / unit) count == order, [])
  | .action asked => (true, [asked])
  | .negation test =>
      let (passes, actions) := test.judge surroundings path
      (!passes, actions)
  | .conjunction first second =>
      let (passes, actions) := first.judge surroundings path
      if passes then
        let (passes, others) := second.judge surroundings path
        (passes, actions ++ others)
      else (false, actions)
  | .disjunction first second =>
      let (passes, actions) := first.judge surroundings path
      if passes then (true, actions)
      else
        let (passes, others) := second.judge surroundings path
        (passes, actions ++ others)

def argumentPattern (anyCase : Bool) (text : String) : List PatternPiece :=
  let text := if anyCase then text.map Char.toLower else text
  pattern (text.toList.map fun c => ⟨c, false⟩)

/-- The size that an argument asks for, in units that its last letter names. -/
def sizeTest? (text : String) : Option FileTest :=
  let (order, cs) :=
    match text.toList with
    | '+' :: cs => (Ordering.gt, cs)
    | '-' :: cs => (.lt, cs)
    | cs => (.eq, cs)
  let digits := cs.takeWhile Char.isDigit
  let unit :=
    match cs.drop digits.length with
    | ['c'] => some 1
    | ['w'] => some 2
    | ['k'] => some 1024
    | ['M'] => some 1048576
    | ['b'] => some 512
    | [] => some 512
    | _ => none
  unit.bind fun unit => (baseValue? 10 digits).map fun n => .bytes order unit n

/-- The command behind an action, up to its end, whether its files are handed over together, and the
arguments after it. -/
def actionCommand : List String → Option (List String × Bool × List String)
  | [] => none
  | ";" :: rest => some ([], false, rest)
  | "\x7b\x7d" :: "+" :: rest => some ([], true, rest)
  | arg :: rest => (actionCommand rest).map fun (command, together, rest) =>
      (arg :: command, together, rest)

mutual

/-- A test at the beginning of arguments, with what is told of the depths on the way. -/
def searchTerm : Nat → FileSearch → List String →
    Except String (FileTest × FileSearch × List String)
  | 0, _, _ => .error "find: invalid expression\n"
  | fuel + 1, search, args => do
      let valued (name : String) (rest : List String)
          (make : String → Option FileTest) :
          Except String (FileTest × FileSearch × List String) :=
        match rest with
        | value :: rest =>
            match make value with
            | some test => .ok (test, search, rest)
            | none => .error s!"find: invalid argument `{value}' to `{name}'\n"
        | [] => .error s!"find: missing argument to `{name}'\n"
      let depth (name : String) (rest : List String) (set : Nat → FileSearch) :
          Except String (FileTest × FileSearch × List String) :=
        match rest with
        | value :: rest =>
            match baseValue? 10 value.toList with
            | some n => .ok (.all, set n, rest)
            | none =>
                .error (s!"find: Expected a positive decimal integer argument to {name}, " ++
                  s!"but got {inQuotes value}\n")
        | [] => .error s!"find: missing argument to `{name}'\n"
      match args with
      | [] => throw "find: invalid expression\n"
      | name :: rest =>
          match name with
          | "!" =>
              let (test, search, rest) ← searchTerm fuel search rest
              return (.negation test, search, rest)
          | "-not" =>
              let (test, search, rest) ← searchTerm fuel search rest
              return (.negation test, search, rest)
          | "(" =>
              let (test, search, rest) ← searchChoices fuel search rest
              match rest with
              | ")" :: rest => return (test, search, rest)
              | _ =>
                  throw ("find: invalid expression; I was expecting to find a ')' somewhere " ++
                    "but did not see one.\n")
          | "-name" => valued name rest fun v => some (.named (argumentPattern false v) false false)
          | "-iname" => valued name rest fun v => some (.named (argumentPattern true v) true false)
          | "-path" => valued name rest fun v => some (.named (argumentPattern false v) false true)
          | "-wholename" =>
              valued name rest fun v => some (.named (argumentPattern false v) false true)
          | "-type" =>
              match rest with
              | "f" :: rest => return (.kind false, search, rest)
              | "d" :: rest => return (.kind true, search, rest)
              | "l" :: rest => return (.nothing, search, rest)
              | value :: _ => throw s!"find: Unknown argument to -type: {value}\n"
              | [] => throw "find: missing argument to `-type'\n"
          | "-size" => valued name rest sizeTest?
          | "-empty" => return (.empty, search, rest)
          | "-true" => return (.all, search, rest)
          | "-false" => return (.nothing, search, rest)
          | "-print" => return (.action (.print "\n"), search, rest)
          | "-print0" => return (.action (.print "\x00"), search, rest)
          | "-delete" =>
              return (.action .delete, { search with contentsFirst := true }, rest)
          | "-depth" => return (.all, { search with contentsFirst := true }, rest)
          | "-maxdepth" => depth name rest fun n => { search with most := n }
          | "-mindepth" => depth name rest fun n => { search with least := n }
          | "-exec" =>
              match actionCommand rest with
              | some (command, together, rest) =>
                  return (.action (.run command together), search, rest)
              | none => throw "find: missing argument to `-exec'\n"
          | _ =>
              if name.startsWith "-" then throw s!"find: unknown predicate `{name}'\n"
              else throw s!"find: paths must precede expression: `{name}'\n"

def searchTests : Nat → FileSearch → List String →
    Except String (FileTest × FileSearch × List String)
  | 0, _, _ => .error "find: invalid expression\n"
  | fuel + 1, search, args => do
      let (first, search, rest) ← searchTerm fuel search args
      match rest with
      | [] => return (first, search, [])
      | ")" :: _ => return (first, search, rest)
      | "-o" :: _ => return (first, search, rest)
      | "-or" :: _ => return (first, search, rest)
      | "-a" :: rest =>
          let (second, search, rest) ← searchTests fuel search rest
          return (.conjunction first second, search, rest)
      | "-and" :: rest =>
          let (second, search, rest) ← searchTests fuel search rest
          return (.conjunction first second, search, rest)
      | rest =>
          let (second, search, rest) ← searchTests fuel search rest
          return (.conjunction first second, search, rest)

def searchChoices : Nat → FileSearch → List String →
    Except String (FileTest × FileSearch × List String)
  | 0, _, _ => .error "find: invalid expression\n"
  | fuel + 1, search, args => do
      let (first, search, rest) ← searchTests fuel search args
      let choice (rest : List String) :
          Except String (FileTest × FileSearch × List String) := do
        let (second, search, rest) ← searchChoices fuel search rest
        return (.disjunction first second, search, rest)
      match rest with
      | "-o" :: rest => choice rest
      | "-or" :: rest => choice rest
      | rest => return (first, search, rest)

end

def beginsTests (arg : String) : Bool :=
  (arg.startsWith "-" && arg.length > 1) || arg == "(" || arg == "!"

/-- The search that arguments ask for. Files that pass are put out if nothing else is done. -/
def fileSearch (args : List String) : Except String FileSearch := do
  let starts := args.takeWhile (!beginsTests ·)
  let search : FileSearch := { starts := if starts.isEmpty then ["."] else starts }
  match args.drop starts.length with
  | [] => return { search with test := .action (.print "\n") }
  | tests =>
      let (test, search, rest) ← searchChoices (4 * tests.length + 4) search tests
      if !rest.isEmpty then throw "find: invalid expression; you have too many ')'\n"
      if test.acts then return { search with test }
      else return { search with test := .conjunction test (.action (.print "\n")) }

/-- The paths below a path with their depths; a directory comes before what lies in it, or after. -/
def pathsBelow (surroundings : Surroundings) (search : FileSearch) :
    Nat → Nat → String → List (Nat × String)
  | 0, _, _ => []
  | fuel + 1, depth, path =>
      let inner :=
        if surroundings.isDirectory path && depth < search.most then
          (surroundings.names path).flatMap fun name =>
            pathsBelow surroundings search fuel (depth + 1) (inside path name)
        else []
      if search.contentsFirst then inner ++ [(depth, path)] else (depth, path) :: inner

def FileSearch.paths (search : FileSearch) (surroundings : Surroundings) : List String :=
  search.starts.flatMap fun start =>
    ((pathsBelow surroundings search 256 0 start).filter fun p => search.least ≤ p.1).map (·.2)

/-- The complaints about the paths at which a search cannot start. -/
def FileSearch.errors (search : FileSearch) (surroundings : Surroundings) : String :=
  String.join (search.starts.map fun start =>
    match surroundings.find start with
    | .ok _ => ""
    | .error e => s!"find: {inQuotes start}: {e.message}\n")

/-- The search without the starts that lead nowhere. -/
def FileSearch.reachable (search : FileSearch) (surroundings : Surroundings) : FileSearch :=
  { search with
    starts := search.starts.filter fun start => (surroundings.find start).toOption.isSome }

end Shell

end VersionGroups
