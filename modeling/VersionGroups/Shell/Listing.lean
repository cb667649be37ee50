import VersionGroups.Shell.Program

/-!
# Names of files

Programs that list what lies in directories, take paths apart, or tell what is known of files.
-/

namespace VersionGroups

namespace Shell

/-! ## Listing directories -/

namespace Surroundings

def names (surroundings : Surroundings) (path : String) : List String :=
  match surroundings.tree.names (surroundings.path path) with
  | .ok names => names.map encoded
  | .error _ => []

/-- The size of what a path leads to; directories take up one block. -/
def size (surroundings : Surroundings) (path : String) : Nat :=
  match surroundings.find path with
  | .ok (.file content) => content.size
  | _ => 4096

end Surroundings

def inside (directory name : String) : String :=
  if directory.endsWith "/" then directory ++ name else s!"{directory}/{name}"

/-- The names that a listing shows of a directory, in order. -/
def listedNames (surroundings : Surroundings) (options : Options) (path : String) :
    List String :=
  let names := surroundings.names path
  let names := if options.has 'a' then "." :: ".." :: names else names
  let names :=
    if options.has 'a' || options.has 'A' then names
    else names.filter fun name => !name.startsWith "."
  let names := names.mergeSort fun a b => decide (a ≤ b)
  let names :=
    if options.has 'S' then
      names.mergeSort fun a b =>
        decide (surroundings.size (inside path b) ≤ surroundings.size (inside path a))
    else names
  if options.has 'r' then names.reverse else names

/-- The lines of some names, whose paths are given by a function. -/
def nameLines (surroundings : Surroundings) (options : Options) (pathOf : String → String)
    (names : List String) : String :=
  let shown (name : String) : String :=
    let directory := surroundings.isDirectory (pathOf name)
    let mark := if (options.has 'p' || options.has 'F') && directory then "/" else ""
    if options.has 'l' then
      let (kind, size) := if directory then ("drwxr-xr-x 2", 4096) else
        ("-rw-r--r-- 1", surroundings.size (pathOf name))
      s!"{kind} root root {size} Jan  1 00:00 {name}{mark}"
    else name ++ mark
  if names.isEmpty then ""
  else if options.has 'm' then String.intercalate ", " (names.map shown) ++ "\n"
  else String.join (names.map fun name => shown name ++ "\n")

/-- The listing of a directory, and with `recursive` those of the directories in it. -/
def directoryListing (surroundings : Surroundings) (options : Options) (titled recursive : Bool) :
    Nat → String → String
  | 0, _ => ""
  | fuel + 1, path =>
      let names := listedNames surroundings options path
      let total := if options.has 'l' then s!"total {4 * names.length}\n" else ""
      let inner := if recursive then
          names.filter fun name => name != "." && name != ".." &&
            surroundings.isDirectory (inside path name)
        else []
      (if titled then s!"{path}:\n" else "") ++ total ++
        nameLines surroundings options (inside path) names ++
        String.join (inner.map fun name =>
          "\n" ++ directoryListing surroundings options true recursive fuel (inside path name))

def ls : Program := fun surroundings args input =>
  withOptions "ls"
    ⟨"aAldrRSpF1mxCtcufghiknosUGNQqv", "wIT",
      [("all", 'a'), ("almost-all", 'A'), ("directory", 'd'), ("recursive", 'R'), ("reverse", 'r'),
        ("classify", 'F'), ("color", 'G')]⟩ 2 args input fun options =>
    let operands := if options.operands.isEmpty then ["."] else options.operands
    let operands := operands.mergeSort fun a b => decide (a ≤ b)
    let errors := operands.map fun path =>
      match surroundings.find path with
      | .ok _ => ""
      | .error e =>
          if devices.contains path then ""
          else s!"ls: cannot access {quotedName path}: {e.message}\n"
    let isShownAlone (path : String) : Bool :=
      devices.contains path || surroundings.isFile path ||
        (options.has 'd' && surroundings.isDirectory path)
    let alone := operands.filter isShownAlone
    let directories := operands.filter fun path =>
      surroundings.isDirectory path && !isShownAlone path
    let titled := operands.length > 1 || options.has 'R'
    let parts := directories.map
      (directoryListing surroundings options titled (options.has 'R') 256)
    let parts :=
      if alone.isEmpty then parts else nameLines surroundings options id alone :: parts
    { output := octets (String.intercalate "\n" parts)
      errors := octets (String.join errors)
      status := if errors.all (· == "") then 0 else 2
      input }

/-! ## Taking paths apart -/

/-- The last component of a path, without slashes at its end. -/
def lastName (path : String) : String :=
  match (Path.pieces path).getLast? with
  | some name => name
  | none => if path = "" then "" else "/"

def pathAbove (path : String) : String :=
  let trimmed := path.toList.reverse.dropWhile (· == '/')
  let above := (trimmed.dropWhile (· != '/')).dropWhile (· == '/')
  if path.toList.contains '/' && trimmed.isEmpty then "/"
  else if !above.isEmpty then String.ofList above.reverse
  else if path.startsWith "/" then "/"
  else "."

/-- A name without a suffix, unless it is nothing else. -/
def withoutSuffix (suffix name : String) : String :=
  if name.endsWith suffix && name != suffix then
    String.ofList (name.toList.take (name.length - suffix.length))
  else name

/-- Puts out the last components of paths. -/
def basename : Filter := fun args input =>
  withOptions "basename" ⟨"az", "s", [("multiple", 'a'), ("suffix", 's'), ("zero", 'z')]⟩ 1 args
    input fun options =>
      let line (suffix path : String) : String :=
        withoutSuffix suffix (lastName path) ++ if options.has 'z' then "\x00" else "\n"
      match options.operands with
      | [] => misused "basename" "missing operand" 1 input
      | operands =>
          if options.has 'a' || options.has 's' then
            let suffix := (options.value? 's').getD ""
            { output := octets (String.join (operands.map (line suffix))), input }
          else
            match operands with
            | [path] => { output := octets (line "" path), input }
            | [path, suffix] => { output := octets (line suffix path), input }
            | _ =>
                misused "basename" s!"extra operand {shownArgument operands 2}" 1 input

/-- Puts out paths without their last components. -/
def dirname : Filter := fun args input =>
  withOptions "dirname" ⟨"z", "", [("zero", 'z')]⟩ 1 args input fun options =>
    match options.operands with
    | [] => misused "dirname" "missing operand" 1 input
    | operands =>
        let stop := if options.has 'z' then "\x00" else "\n"
        { output := octets (String.join (operands.map fun p => pathAbove p ++ stop)), input }

/-- Puts out the paths from the root on that lead where paths lead. -/
def realpath : Program := fun surroundings args input =>
  withOptions "realpath" ⟨"emsqzLP", "", []⟩ 1 args input fun options =>
    match options.operands with
    | [] => misused "realpath" "missing operand" 1 input
    | operands =>
        let results := operands.map fun path =>
          (path, (surroundings.tree.locate (surroundings.path path)).bind fun location =>
            if options.has 'e' && (surroundings.tree.entry? location).isNone then
              .error .missing
            else .ok location)
        let line (r : String × Except AccessError Location) : String :=
          match r.2 with
          | .ok location => shownPath location ++ "\n"
          | .error _ => ""
        let complaint (r : String × Except AccessError Location) : String :=
          match r.2 with
          | .ok _ => ""
          | .error e => plainComplaint "realpath" r.1 e
        let errors := String.join (results.map complaint)
        { output := octets (String.join (results.map line))
          errors := octets errors
          status := if errors = "" then 0 else 1
          input }

/-! ## What is known of files -/

/-- The text of a format for a file: its name, size or kind. -/
def fileText (surroundings : Surroundings) (path : String) : Nat → List Char → String
  | 0, _ => ""
  | fuel + 1, cs =>
      let rest (cs : List Char) : String := fileText surroundings path fuel cs
      match cs with
      | [] => ""
      | '%' :: 'n' :: after => path ++ rest after
      | '%' :: 's' :: after => toString (surroundings.size path) ++ rest after
      | '%' :: 'F' :: after =>
          let kind :=
            if surroundings.isDirectory path then "directory"
            else if surroundings.size path = 0 then "regular empty file"
            else "regular file"
          kind ++ rest after
      | '%' :: 'a' :: after =>
          (if surroundings.isDirectory path then "755" else "644") ++ rest after
      | '%' :: '%' :: after => "%" ++ rest after
      | c :: after => String.ofList [c] ++ rest after

/-- Puts out what is known of files under a format. -/
def stat : Program := fun surroundings args input =>
  withOptions "stat" ⟨"Lft", "c", [("format", 'c')]⟩ 1 args input fun options =>
    match options.operands with
    | [] => misused "stat" "missing operand" 1 input
    | operands =>
        let format := ((options.value? 'c').getD "%n").toList
        let text (path : String) : String :=
          match surroundings.find path with
          | .ok _ => fileText surroundings path (format.length + 1) format ++ "\n"
          | .error _ => ""
        let complaint (path : String) : String :=
          match surroundings.find path with
          | .ok _ => ""
          | .error e => s!"stat: cannot statx {quotedName path}: {e.message}\n"
        let errors := String.join (operands.map complaint)
        { output := octets (String.join (operands.map text))
          errors := octets errors
          status := if errors = "" then 0 else 1
          input }

end Shell

end VersionGroups
