import VersionGroups.Shell.Copying
import VersionGroups.Shell.Listing

/-!
# Making, moving and removing files

Programs that change the file tree at the paths that their arguments name, one path after the other.
A path that cannot be changed is complained of and the others are still changed.
-/

namespace VersionGroups

namespace Shell

/-- What was done so far: the output, the complaints, and the surroundings with their changes. -/
structure Filed where
  output : String := ""
  errors : String := ""
  surroundings : Surroundings

namespace Filed

def complain (filed : Filed) (message : String) : Filed :=
  { filed with errors := filed.errors ++ message }

/-- With a line of output more, if it is asked for. -/
def tell (filed : Filed) (asked : Bool) (message : String) : Filed :=
  if asked then { filed with output := filed.output ++ message } else filed

/-- Makes a change, with a complaint if it fails and a message if it succeeds. -/
def change (filed : Filed) (change : FileChange Unit) (complaint : AccessError → String)
    (asked : Bool) (message : String) : Filed :=
  match filed.surroundings.change change with
  | (.ok _, surroundings) => { filed with surroundings }.tell asked message
  | (.error e, surroundings) => { filed with surroundings }.complain (complaint e)

def finished (filed : Filed) (input : List UInt8) : Finished :=
  { output := octets filed.output
    errors := octets filed.errors
    status := if filed.errors = "" then 0 else 1
    input
    tree := some filed.surroundings.tree }

end Filed

/-- What a program leaves that makes a change for each operand, of which there must be one. -/
def onEach (name lacking : String) (operands : List String) (surroundings : Surroundings)
    (input : List UInt8) (step : Filed → String → Filed) : Finished :=
  if operands.isEmpty then misused name s!"missing {lacking}" 1 input
  else (operands.foldl step { surroundings }).finished input

/-! ## Directories -/

def mkdir : Program := fun surroundings args input =>
  withOptions "mkdir" ⟨"pv", "m", [("parents", 'p'), ("verbose", 'v'), ("mode", 'm')]⟩ 1 args input
    fun options =>
      onEach "mkdir" "operand" options.operands surroundings input fun filed path =>
        let place := filed.surroundings.path path
        let make := if options.has 'p' then FileTree.makeDirectories place
          else FileTree.makeDirectory place
        let complaint (e : AccessError) : String :=
          let reason := if e = .notDirectory && filed.surroundings.isFile path then
            AccessError.present.message else e.message
          s!"mkdir: cannot create directory {inQuotes path}: {reason}\n"
        filed.change make complaint (options.has 'v')
          s!"mkdir: created directory {quotedName path}\n"

/-- Removes directories in which nothing lies. -/
def rmdir : Program := fun surroundings args input =>
  withOptions "rmdir" ⟨"pv", "", [("parents", 'p'), ("verbose", 'v')]⟩ 1 args input fun options =>
    onEach "rmdir" "operand" options.operands surroundings input fun filed path =>
      filed.change (FileTree.removeDirectory (filed.surroundings.path path))
        (fun e => s!"rmdir: failed to remove {quotedName path}: {e.message}\n") false ""

/-! ## Removing -/

/-- Removes files, and directories with all that is in them if that is asked for. -/
def rm : Program := fun surroundings args input =>
  withOptions "rm"
    ⟨"rRfidvI", "",
      [("recursive", 'r'), ("force", 'f'), ("dir", 'd'), ("verbose", 'v')]⟩ 1 args input
    fun options =>
      if options.operands.isEmpty && options.has 'f' then { input }
      else
        onEach "rm" "operand" options.operands surroundings input fun filed path =>
          let place := filed.surroundings.path path
          let complaint (e : AccessError) : String :=
            if options.has 'f' && (e = .missing || e = .notDirectory) then ""
            else s!"rm: cannot remove {quotedName path}: {e.message}\n"
          let name := lastName path
          let directory := filed.surroundings.isDirectory path
          let recursive := options.has 'r' || options.has 'R'
          if directory && recursive && (name == "." || name == "..") then
            filed.complain
              s!"rm: refusing to remove '.' or '..' directory: skipping {quotedName path}\n"
          else if directory && recursive then
            filed.change (FileTree.remove place) complaint (options.has 'v')
              s!"removed directory {quotedName path}\n"
          else if directory && options.has 'd' then
            filed.change (FileTree.removeDirectory place) complaint (options.has 'v')
              s!"removed directory {quotedName path}\n"
          else
            filed.change (FileTree.removeFile place) complaint (options.has 'v')
              s!"removed {quotedName path}\n"

/-! ## Copying and moving -/

/-- The tree with all that lies at or inside a location put at another one as well. -/
def duplicate (tree : FileTree) (old new : Location) : FileTree :=
  let copied := tree.entries.entries.filter fun e => FileTree.isWithin old e.1
  copied.foldl (fun tree e => tree.put (new ++ e.1.drop old.length) e.2) tree

def duplicateDirectory (source target : String) : FileChange Unit := fun tree =>
  match tree.locate source, tree.locate target with
  | .ok old, .ok new =>
      match tree.entry? new with
      | some (.file _) => (.error .present, tree)
      | _ => (.ok (), duplicate tree old new)
  | .error e, _ => (.error e, tree)
  | .ok _, .error e => (.error e, tree)

def Filed.copy (filed : Filed) (recursive asked : Bool) (input : List UInt8)
    (source target : String) : Filed :=
  let s := filed.surroundings
  let told := s!"{quotedName source} -> {quotedName target}\n"
  let putFile (content : List UInt8) : Filed :=
    if target = "/dev/stdout" then filed.tell true (rawText content)
    else if devices.contains target then filed
    else
      filed.change (FileTree.write (s.path target) (bytes content))
        (fun e =>
          let e := if e = .missing && target.endsWith "/" then .notDirectory else e
          s!"cp: cannot create regular file {quotedName target}: {e.message}\n")
        asked told
  if source = "/dev/stdin" then putFile input
  else if source = "/dev/null" then putFile []
  else
    match s.find source, s.find target with
    | .error e, _ => filed.complain s!"cp: cannot stat {quotedName source}: {e.message}\n"
    | .ok .directory, _ =>
        if !recursive then
          filed.complain s!"cp: -r not specified; omitting directory {quotedName source}\n"
        else
          filed.change (duplicateDirectory (s.path source) (s.path target))
            (fun _ => s!"cp: cannot overwrite non-directory {quotedName target} with directory " ++
              s!"{quotedName source}\n")
            asked told
    | .ok (.file content), .ok (.file _) =>
        if (s.tree.locate (s.path source)).toOption == (s.tree.locate (s.path target)).toOption then
          filed.complain
            s!"cp: {quotedName source} and {quotedName target} are the same file\n"
        else putFile content.toList
    | .ok (.file content), _ => putFile content.toList

def Filed.move (filed : Filed) (asked : Bool) (source target : String) : Filed :=
  let s := filed.surroundings
  let places := ((s.tree.locate (s.path source)).toOption, (s.tree.locate (s.path target)).toOption)
  match s.find source, places with
  | .error e, _ => filed.complain s!"mv: cannot stat {quotedName source}: {e.message}\n"
  | .ok entry, (some old, some new) =>
      let directory :=
        match entry with
        | .directory => true
        | .file _ => false
      if old == new then
        filed.complain s!"mv: {quotedName source} and {quotedName target} are the same file\n"
      else if directory && FileTree.isWithin old new then
        filed.complain
          (s!"mv: cannot move {quotedName source} to a subdirectory of itself, " ++
            s!"{quotedName target}\n")
      else
        let complaint (e : AccessError) : String :=
          if e = .notDirectory && directory then
            s!"mv: cannot overwrite non-directory {quotedName target} with directory " ++
              s!"{quotedName source}\n"
          else s!"mv: cannot move {quotedName source} to {quotedName target}: {e.message}\n"
        filed.change (FileTree.rename (s.path source) (s.path target)) complaint asked
          s!"renamed {quotedName source} -> {quotedName target}\n"
  | .ok _, _ =>
      let e := (s.find target).toOption.elim AccessError.missing fun _ => .notDirectory
      filed.complain
        s!"mv: cannot move {quotedName source} to {quotedName target}: {e.message}\n"

/-- What a program leaves that takes some paths to a last one, which may be a directory. -/
def takenTo (name : String) (options : Options) (surroundings : Surroundings)
    (input : List UInt8) (step : Filed → String → String → Filed) : Finished :=
  let (sources, target) :=
    match options.value? 't' with
    | some directory => (options.operands, some directory)
    | none => (options.operands.dropLast, options.operands.getLast?)
  match sources, target with
  | [], some only => misused name s!"missing destination file operand after {quotedName only}" 1 input
  | _, none => misused name "missing file operand" 1 input
  | sources, some target =>
      let directory := surroundings.isDirectory target && !options.has 'T'
      if sources.length > 1 && !directory then
        let e := (surroundings.find target).toOption.elim AccessError.missing fun _ => .notDirectory
        failing s!"{name}: target {quotedName target}: {e.message}\n" 1 input
      else
        let placed (source : String) : String :=
          if directory then inside target (lastName source) else target
        (sources.foldl (fun filed source => step filed source (placed source))
          { surroundings }).finished input

def cp : Program := fun surroundings args input =>
  withOptions "cp"
    ⟨"rRafvpdTinLPu", "t",
      [("recursive", 'r'), ("archive", 'a'), ("force", 'f'), ("verbose", 'v'),
        ("target-directory", 't')]⟩ 1 args input fun options =>
    let recursive := ['r', 'R', 'a'].any options.has
    takenTo "cp" options surroundings input fun filed source target =>
      filed.copy recursive (options.has 'v') input source target

def mv : Program := fun surroundings args input =>
  withOptions "mv" ⟨"fvTinu", "t", [("force", 'f'), ("verbose", 'v'), ("target-directory", 't')]⟩ 1
    args input fun options =>
      takenTo "mv" options surroundings input fun filed source target =>
        filed.move (options.has 'v') source target

/-- Gives files a second name, which holds what they hold now. -/
def ln : Program := fun surroundings args input =>
  withOptions "ln" ⟨"sfnvrT", "t", [("symbolic", 's'), ("force", 'f')]⟩ 1 args input fun options =>
    takenTo "ln" options surroundings input fun filed source target =>
      match filed.surroundings.read source with
      | .error e =>
          if options.has 's' then filed
          else filed.complain s!"ln: failed to access {quotedName source}: {e.message}\n"
      | .ok content =>
          if (filed.surroundings.find target).toOption.isSome && !options.has 'f' then
            let kind := if options.has 's' then "symbolic" else "hard"
            filed.complain s!"ln: failed to create {kind} link {quotedName target}: File exists\n"
          else
            filed.change (FileTree.write (filed.surroundings.path target) (bytes content))
              (fun e => s!"ln: failed to create link {quotedName target}: {e.message}\n") false ""

/-! ## Single files -/

def touch : Program := fun surroundings args input =>
  withOptions "touch" ⟨"acmh", "drt", [("no-create", 'c')]⟩ 1 args input fun options =>
    onEach "touch" "file operand" options.operands surroundings input fun filed path =>
      match filed.surroundings.find path with
      | .ok _ => filed
      | .error _ =>
          if options.has 'c' then filed
          else
            filed.change (FileTree.write (filed.surroundings.path path) .empty)
              (fun e => s!"touch: cannot touch {quotedName path}: {e.message}\n") false ""

/-- Checks that files are there whose permissions are to be changed. -/
def chmod : Program := fun surroundings args input =>
  let args := args.filter fun arg => !(["-R", "-v", "-f", "-c"].contains arg)
  match args with
  | [] => misused "chmod" "missing operand" 1 input
  | [mode] => misused "chmod" s!"missing operand after {inQuotes mode}" 1 input
  | _ :: paths =>
      onEach "chmod" "operand" paths surroundings input fun filed path =>
        match filed.surroundings.find path with
        | .ok _ => filed
        | .error e =>
            filed.complain s!"chmod: cannot access {quotedName path}: {e.message}\n"

/-- Cuts files off at a size, or fills them up to it. -/
def truncate : Program := fun surroundings args input =>
  withOptions "truncate" ⟨"co", "sr", [("size", 's'), ("no-create", 'c')]⟩ 1 args input
    fun options =>
      match options.value? 's' with
      | none =>
          let (size, reference) := (inQuotes "--size", inQuotes "--reference")
          misused "truncate" s!"you must specify either {size} or {reference}" 1 input
      | some text =>
          match countValue? text.toList with
          | none => failing s!"truncate: Invalid number: {inQuotes text}\n" 1 input
          | some size =>
              onEach "truncate" "file operand" options.operands surroundings input
                fun filed path =>
                  let before := (filed.surroundings.read path).toOption.getD []
                  let content := before.take size ++ List.replicate (size - before.length) 0
                  filed.change (FileTree.write (filed.surroundings.path path) (bytes content))
                    (fun e =>
                      s!"truncate: cannot open {quotedName path} for writing: {e.message}\n")
                    false ""

/-- A path that leads nowhere yet: a template with digits in place of its last letters `X`. -/
def freshPath (surroundings : Surroundings) (template : String) : String :=
  let cs := template.toList.reverse
  let marks := cs.takeWhile (· == 'X')
  let start := (cs.drop marks.length).reverse
  let candidate (n : Nat) : String :=
    let digits := Nat.toDigits 36 n
    String.ofList (start ++ List.replicate (marks.length - digits.length) 'a' ++ digits)
  let candidates := (List.range 10).map candidate
  (candidates.find? fun path => (surroundings.find path).toOption.isNone).getD (candidate 10)

/-- Makes a file or a directory with a name that is not taken. -/
def mktemp : Program := fun surroundings args input =>
  withOptions "mktemp" ⟨"duqt", "p", [("directory", 'd'), ("dry-run", 'u'), ("tmpdir", 'p')]⟩ 1 args
    input fun options =>
      let directory := (options.value? 'p').getD "/tmp"
      let template :=
        match options.operands.head? with
        | none => inside directory "tmp.XXXXXXXXXX"
        | some name => if options.has 'p' || options.has 't' then inside directory name else name
      let path := freshPath surroundings template
      let place := surroundings.path path
      let make := if options.has 'd' then FileTree.makeDirectory place
        else FileTree.write place .empty
      let filed : Filed := { surroundings }
      if options.has 'u' then { output := octets (path ++ "\n"), input }
      else
        (filed.change make
          (fun e =>
            s!"mktemp: failed to create file via template {inQuotes template}: {e.message}\n")
          true (path ++ "\n")).finished input

end Shell

end VersionGroups
