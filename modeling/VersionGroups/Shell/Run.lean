import VersionGroups.Shell.Starting

/-!
# Running shell scripts

A script runs on a machine, line by line. Running is bounded by a number of steps, so every run
ends.
-/

namespace VersionGroups

namespace Shell

/-- What is told of a redirection to a path that cannot be opened. -/
def openMessage (creates : Bool) (path : String) (e : AccessError) : String :=
  let verb := if creates then "create" else "open"
  let reason :=
    match e with
    | .missing => if creates then "Directory nonexistent" else "No such file"
    | .notDirectory => if creates then "Directory nonexistent" else "No such file"
    | e => e.message
  s!"cannot {verb} {path}: {reason}"

/-- The machine with a stream that leads to a file, which is emptied unless `behind` is set. -/
def leadToFile (machine : Machine) (stream : Nat) (behind : Bool) (path : String) :
    Except String Machine :=
  match path with
  | "/dev/null" => .ok (machine.lead stream (some .nowhere))
  | "/dev/full" => .ok (machine.lead stream (some .nowhere))
  | "/dev/stdout" => .ok (machine.lead stream (machine.channel? 1))
  | "/dev/stderr" => .ok (machine.lead stream (machine.channel? 2))
  | _ =>
      let place := machine.surroundings.path path
      let (result, tree) :=
        if behind && machine.tree.isFile place then (.ok (), machine.tree)
        else FileTree.write place .empty machine.tree
      match result, tree.locate place with
      | .ok _, .ok location => .ok ({ machine with tree }.lead stream (some (.file location)))
      | .error e, _ => .error (openMessage true path e)
      | .ok _, .error e => .error (openMessage true path e)

def feedFromFile (machine : Machine) (stream : Nat) (path : String) : Except String Machine :=
  match path with
  | "/dev/null" => .ok (machine.lead stream (some .nowhere))
  | "/dev/stdin" => .ok (machine.lead stream (machine.channel? 0))
  | _ =>
      let place := machine.surroundings.path path
      match machine.tree.find place, machine.tree.locate place with
      | .ok (.file _), .ok location => .ok (machine.feed stream (.file location 0))
      | .ok .directory, _ => .ok (machine.feed stream (.held []))
      | .error e, _ => .error (openMessage false path e)
      | .ok _, .error e => .error (openMessage false path e)

def changeDirectory (machine : Machine) (args : List String) : Machine :=
  let args := args.filter fun arg => !(["-L", "-P", "--"].contains arg)
  let former := shownPath machine.directory
  let path :=
    match args.head? with
    | none => (machine.value? "HOME").getD "."
    | some "-" => (machine.value? "OLDPWD").getD former
    | some path => if path = "" then "." else path
  let place := machine.surroundings.path path
  match machine.tree.find place, machine.tree.locate place with
  | .ok .directory, .ok directory =>
      let moved := ({ machine with directory }.set "OLDPWD" former).set "PWD" (shownPath directory)
      (if args.head? = some "-" then moved.print 1 (shownPath directory ++ "\n") else moved).withStatus
        0
  | _, _ => machine.refuse s!"cd: can't cd to {path}" 2

/-- The words of a command as they are shown when it is traced. -/
def traceText (assigned : List (String × String)) (words : List String) : String :=
  "+ " ++ String.intercalate " " (assigned.map (fun a => s!"{a.1}={a.2}") ++ words) ++ "\n"

mutual

/-- The parts of a word, and the machine after the commands in it. -/
def expand : Nat → Machine → Word → List Part × Machine
  | 0, machine, _ => ([], machine)
  | _ + 1, machine, [] => ([], machine)
  | fuel + 1, machine, piece :: rest =>
      let (parts, machine) := expandPiece fuel machine piece
      if machine.halted then ([], machine)
      else
        let (others, machine) := expand fuel machine rest
        (parts ++ others, machine)

def expandText : Nat → Machine → List Char → List Part × Machine
  | 0, machine, _ => ([], machine)
  | fuel + 1, machine, cs =>
      match wholeWord cs with
      | .ok w => expand fuel machine w
      | .error _ => ([], machine)

def expandPiece : Nat → Machine → Piece → List Part × Machine
  | 0, machine, _ => ([], machine)
  | fuel + 1, machine, piece =>
      match piece with
      | .text quoted cs =>
          ((if quoted then [.quotes] else []) ++ textParts quoted false cs, machine)
      | .arithmetic expression =>
          let (parts, machine) := expandText fuel machine expression
          let cs := (partGlyphs parts).map (·.char)
          match evaluate machine.numberOf cs with
          | .ok (n, values) =>
              (textParts false true (toString n).toList,
                values.foldr (fun v machine => machine.set v.1 (toString v.2)) machine)
          | .error e => ([], machine.haltText (e.message (String.ofList cs)))
      | .output quoted source =>
          let index := machine.outputs.size
          let inner :=
            { machine with outputs := machine.outputs.push .empty, traps := [] }.lead 1
              (some (.buffer index))
          let (copy, _) := runSource fuel inner (machine.line + breakCount source) source
          let text := rawText (copy.outputs[index]?.getD .empty).toList
          let text := withoutLastBreaks (String.ofList (text.toList.filter (· != '\x00')))
          (textParts quoted true text.toList, machine.afterCopy copy)
      | .parameter quoted name none =>
          if name = "@" ∨ (name = "*" ∧ !quoted) then
            (fieldParts quoted machine.parameters, machine)
          else
            match machine.value? name with
            | some value => (textParts quoted true value.toList, machine)
            | none =>
                if machine.careful && name != "*" then
                  ([], machine.haltText s!"{name}: parameter not set")
                else ([], machine)
      | .parameter quoted name (some modifier) => expandModified fuel machine quoted name modifier

def expandModified : Nat → Machine → Bool → String → Modifier → List Part × Machine
  | 0, machine, _, _, _ => ([], machine)
  | fuel + 1, machine, quoted, name, modifier =>
      let value := machine.value? name
      let shown := textParts quoted true (value.getD "").toList
      let isMissing (orEmpty : Bool) : Bool := value.isNone || (orEmpty && value == some "")
      match modifier with
      | .length => (textParts quoted true (toString (value.getD "").length).toList, machine)
      | .whenUnset orEmpty word =>
          if isMissing orEmpty then nestedParts fuel machine quoted word else (shown, machine)
      | .setUnset orEmpty word =>
          if isMissing orEmpty then
            let (parts, machine) := nestedParts fuel machine quoted word
            (parts, machine.set name (glyphText (partGlyphs parts)))
          else (shown, machine)
      | .required orEmpty message =>
          if isMissing orEmpty then
            let (parts, machine) := expandText fuel machine message
            let cause :=
              if !message.isEmpty then glyphText (partGlyphs parts)
              else if orEmpty then "parameter not set or null"
              else "parameter not set"
            ([], machine.haltText s!"{name}: {cause}")
          else (shown, machine)
      | .whenSet orEmpty word =>
          if isMissing orEmpty then ([], machine) else nestedParts fuel machine quoted word
      | .withoutStart longest text =>
          let (parts, machine) := expandText fuel machine text
          let left := withoutPart (value.getD "") true longest (pattern (partGlyphs parts))
          (textParts quoted true left.toList, machine)
      | .withoutEnd longest text =>
          let (parts, machine) := expandText fuel machine text
          let left := withoutPart (value.getD "") false longest (pattern (partGlyphs parts))
          (textParts quoted true left.toList, machine)

def nestedParts : Nat → Machine → Bool → List Char → List Part × Machine
  | 0, machine, _, _ => ([], machine)
  | fuel + 1, machine, quoted, word =>
      let (parts, machine) := expandText fuel machine word
      if quoted then
        (.quotes :: (partGlyphs parts).map fun g => .glyph { g with quoted := true } false, machine)
      else (parts, machine)

def expandAll : Nat → Machine → List Word → List String × Machine
  | 0, machine, _ => ([], machine)
  | _ + 1, machine, [] => ([], machine)
  | fuel + 1, machine, word :: rest =>
      let (parts, machine) := expand fuel machine word
      if machine.halted then ([], machine)
      else
        let texts := (fields machine.separators parts).flatMap
          (fieldTexts machine.surroundings machine.literal)
        let (others, machine) := expandAll fuel machine rest
        (texts ++ others, machine)

/-- The text of a word that is not split into fields. -/
def expandOne : Nat → Machine → Word → String × Machine
  | 0, machine, _ => ("", machine)
  | fuel + 1, machine, word =>
      let (parts, machine) := expand fuel machine word
      (glyphText (partGlyphs parts), machine)

/-- Makes redirections, and tells whether all of them could be made. -/
def redirect : Nat → Machine → List Redirection → Bool × Machine
  | 0, machine, _ => (true, machine)
  | _ + 1, machine, [] => (true, machine)
  | fuel + 1, machine, r :: rest =>
      let opened (result : Except String Machine) : Bool × Machine :=
        match result with
        | .ok machine => redirect fuel machine rest
        | .error message => (false, machine.refuseText message 2)
      match r with
      | .copy stream source =>
          let (source, machine) := expandOne fuel machine source
          if source = "-" then redirect fuel (machine.lead stream none) rest
          else
            match baseValue? 10 source.toList with
            | none => (false, machine.haltText "Syntax error: Bad fd number")
            | some n =>
                match machine.channel? n with
                | some channel => redirect fuel (machine.lead stream (some channel)) rest
                | none => (false, machine.refuseText s!"{source}: Bad file descriptor" 2)
      | .output stream file =>
          let (path, machine) := expandOne fuel machine file
          if machine.halted then (false, machine)
          else
            match leadToFile machine stream false path with
            | .ok machine => redirect fuel machine rest
            | .error message => (false, machine.refuseText message 2)
      | .append stream file =>
          let (path, machine) := expandOne fuel machine file
          if machine.halted then (false, machine)
          else
            match leadToFile machine stream true path with
            | .ok machine => redirect fuel machine rest
            | .error message => (false, machine.refuseText message 2)
      | .input stream file =>
          let (path, machine) := expandOne fuel machine file
          if machine.halted then (false, machine)
          else
            match feedFromFile machine stream path with
            | .ok machine => redirect fuel machine rest
            | .error message => (false, machine.refuseText message 2)
      | .update stream file =>
          let (path, machine) := expandOne fuel machine file
          match leadToFile machine stream true path with
          | .error message => (false, machine.refuseText message 2)
          | .ok machine => opened (feedFromFile machine stream path)
      | .text stream content =>
          let (text, machine) := expandOne fuel machine content
          redirect fuel (machine.feed stream (.held (textBytes text))) rest

/-- The values of assignments in turn; each is set before the next one is expanded. -/
def assign : Nat → Machine → List (String × Word) → List (String × String) × Machine
  | 0, machine, _ => ([], machine)
  | _ + 1, machine, [] => ([], machine)
  | fuel + 1, machine, (name, word) :: rest =>
      let (value, machine) := expandOne fuel machine word
      if machine.halted then ([], machine)
      else if machine.frozen.contains name then ([], machine.haltText s!"{name}: is read only")
      else
        let (others, machine) := assign fuel (machine.set name value) rest
        ((name, value) :: others, machine)

def runShell : Nat → Machine → String → List String → Machine × Flow
  | 0, machine, _, _ => (machine, .ended)
  | fuel + 1, machine, name, args =>
      let bindings := machine.environment ++
        [("PWD", shownPath machine.directory), ("OPTIND", "1"), ("PPID", Machine.processId)]
      let (request, letters) := shellCall [] args
      let fresh := Machine.start name [] [] machine.tree []
      let inner : Machine :=
        { fresh with
          bindings, exported := machine.exported, inputs := machine.inputs
          outputs := machine.outputs, streams := machine.streams, tree := machine.tree
          directory := machine.directory, strict := letters.contains 'e'
          careful := letters.contains 'u', literal := letters.contains 'f'
          traced := letters.contains 'x' }
      let refused (message : String) : Machine × Flow :=
        ((machine.print 2 s!"{name}: 0: {message}\n").withStatus 2, .onward)
      let whole (inner : Machine) (source : List Char) : Machine × Flow :=
        let (copy, flow) := runWhole fuel inner source
        (machine.afterCopy copy, flow.afterCopy)
      match request with
      | .badOption letter => refused s!"Illegal option -{letter}"
      | .noCommand => refused "-c requires an argument"
      | .file path parameters =>
          match machine.surroundings.read path with
          | .ok content => whole { inner with name := path, parameters } (content.map byteChar)
          | .error .isDirectory => (machine.withStatus 0, .onward)
          | .error e => refused (openMessage false path e)
      | .command source scriptName parameters =>
          whole { inner with name := scriptName.getD name, parameters } source.toList
      | .input parameters =>
          let source := machine.input.map byteChar
          whole { inner.withInput [] with parameters } source

/-- Runs a program, or another shell. -/
def spawn : Nat → Machine → String → List String → Except StartError (Machine × Flow)
  | 0, machine, _, _ => .ok (machine, .ended)
  | fuel + 1, machine, name, args =>
      let program := programName name
      if isShell program then .ok (runShell fuel machine name args)
      else if program = "printenv" then .ok (printVariables machine args, .onward)
      else if program = "env" then .ok (runIn fuel machine args)
      else if program = "xargs" then .ok (runLines fuel machine args)
      else if program = "find" then .ok (runSearch fuel machine args)
      else
        match limitedCommand? program args with
        | some command => .ok (runLimited fuel machine program command)
        | none =>
            match program? program with
            | some found => .ok (runProgram machine found args, .onward)
            | none => .error (machine.surroundings.startError name)

/-- Runs a program under the variables that precede its name. -/
def runIn : Nat → Machine → List String → Machine × Flow
  | 0, machine, _ => (machine, .ended)
  | fuel + 1, machine, args =>
      match args with
      | [] => (printVariables machine [], .onward)
      | "-i" :: rest => runIn fuel { machine with exported := [] } rest
      | "-" :: rest => runIn fuel { machine with exported := [] } rest
      | "-u" :: name :: rest => runIn fuel (machine.unset name) rest
      | "--" :: rest => runIn fuel machine rest
      | arg :: rest =>
          match assignment? arg.toList with
          | some (name, value) =>
              let inner := machine.set name (String.ofList value)
              let (after, flow) :=
                runIn fuel { inner with exported := name :: inner.exported } rest
              (machine.afterCopy after, flow)
          | none => runNamed fuel machine "env" "" arg rest

/-- Runs a program for another one, which complains if it cannot be started. -/
def runNamed : Nat → Machine → String → String → String → List String → Machine × Flow
  | 0, machine, _, _, _, _ => (machine, .ended)
  | fuel + 1, machine, starter, verb, name, args =>
      match spawn fuel machine name args with
      | .ok (after, flow) => (machine.afterCopy after, flow)
      | .error e =>
          ((machine.print 2 s!"{starter}: {verb}{inQuotes name}: {e.message}\n").withStatus e.status,
            .onward)

def runLimited : Nat → Machine → String → List String → Machine × Flow
  | 0, machine, _, _ => (machine, .ended)
  | fuel + 1, machine, program, command =>
      match command with
      | name :: args => runNamed fuel machine program "failed to run command " name args
      | [] =>
          ((machine.print 2 (s!"{program}: missing operand\n" ++ advice program)).withStatus 125,
            .onward)

/-- Runs the command lines that the input makes. -/
def runLines : Nat → Machine → List String → Machine × Flow
  | 0, machine, _ => (machine, .ended)
  | fuel + 1, machine, args =>
      match commandLines args machine.input with
      | .error message => ((machine.print 2 message).withStatus 1, .onward)
      | .ok lines =>
          let inner := (machine.withInput []).lead 0 (some .nowhere)
          let (after, flow) := runEachLine fuel (inner.withStatus 0) lines.shown lines.lines
          (((machine.withInput []).afterCopy after), flow)

/-- Runs command lines in turn; a failure makes the status. -/
def runEachLine : Nat → Machine → Bool → List (List String) → Machine × Flow
  | 0, machine, _, _ => (machine, .ended)
  | fuel + 1, machine, shown, lines =>
      match lines with
      | [] => (machine, .onward)
      | [] :: rest => runEachLine fuel machine shown rest
      | (name :: args) :: rest =>
          let machine :=
            if shown then machine.print 2 (String.intercalate " " (name :: args) ++ "\n")
            else machine
          match spawn fuel machine name args with
          | .error e =>
              ((machine.print 2 s!"xargs: {name}: {e.message}\n").withStatus e.status, .onward)
          | .ok (after, .killed signal) =>
              ((after.print 2 s!"xargs: {name}: terminated by signal {signal}\n").withStatus 125,
                .onward)
          | .ok (after, _) =>
              let status :=
                if after.status = 0 then machine.status else if after.status = 255 then 124 else 123
              let after := (machine.afterCopy after).withStatus status
              if status = 124 then
                (after.print 2 s!"xargs: {name}: exited with status 255; aborting\n", .onward)
              else runEachLine fuel after shown rest

/-- Looks for files and does what is asked with them. -/
def runSearch : Nat → Machine → List String → Machine × Flow
  | 0, machine, _ => (machine, .ended)
  | fuel + 1, machine, args =>
      match fileSearch args with
      | .error message => ((machine.print 2 message).withStatus 1, .onward)
      | .ok search =>
          let errors := search.errors machine.surroundings
          let machine := (machine.print 2 errors).withStatus (if errors = "" then 0 else 1)
          let search := search.reachable machine.surroundings
          runFound fuel machine search.test [] (search.paths machine.surroundings)

/-- Does what a test asks for with each path; `held` holds the paths of commands that get several.
-/
def runFound : Nat → Machine → FileTest → List (List String × List String) → List String →
    Machine × Flow
  | 0, machine, _, _, _ => (machine, .ended)
  | fuel + 1, machine, test, held, paths =>
      match paths with
      | [] =>
          let lines := held.map fun h => h.1 ++ h.2
          let before := machine.status
          let (after, flow) := runEachLine fuel (machine.withStatus 0) false lines
          (after.withStatus (if after.status = 0 then before else 1), flow)
      | path :: rest =>
          let (_, actions) := test.judge machine.surroundings path
          let (machine, held) := runActions fuel machine path held actions
          runFound fuel machine test held rest

def runActions : Nat → Machine → String → List (List String × List String) → List FileAction →
    Machine × List (List String × List String)
  | 0, machine, _, held, _ => (machine, held)
  | fuel + 1, machine, path, held, actions =>
      match actions with
      | [] => (machine, held)
      | .print stop :: rest => runActions fuel (machine.print 1 (path ++ stop)) path held rest
      | .delete :: rest =>
          let place := machine.surroundings.path path
          let change := if machine.tree.isDirectory place then FileTree.removeDirectory place
            else FileTree.removeFile place
          match change machine.tree with
          | (.ok _, tree) => runActions fuel { machine with tree } path held rest
          | (.error e, _) =>
              let message := s!"find: cannot delete {inQuotes path}: {e.message}\n"
              runActions fuel ((machine.print 2 message).withStatus 1) path held rest
      | .run command true :: rest =>
          let known := ((held.find? fun h => h.1 == command).map (·.2)).getD []
          let others := held.filter fun h => h.1 != command
          runActions fuel machine path (others ++ [(command, known ++ [path])]) rest
      | .run command false :: rest =>
          let words := command.map fun word =>
            String.ofList
              (replaceAll ['\x7b', '\x7d'] path.toList (word.length + 1) word.toList)
          match words with
          | [] => runActions fuel machine path held rest
          | name :: args =>
              match spawn fuel machine name args with
              | .error e =>
                  let message := s!"find: {inQuotes name}: {e.message}\n"
                  runActions fuel (machine.print 2 message) path held rest
              | .ok (after, _) =>
                  let status := machine.status
                  let after := (machine.afterCopy after)
                  if after.status = 0 then runActions fuel (after.withStatus status) path held rest
                  else (after.withStatus status, held)

/-- Runs a program from a script, which is told if a signal ends it. -/
def launch : Nat → Machine → String → List String → Machine × Flow
  | 0, machine, _, _ => (machine, .ended)
  | fuel + 1, machine, name, args =>
      match spawn fuel machine name args with
      | .ok (machine, .killed signal) =>
          ((machine.print 2 (signalNotice signal)).withStatus (128 + signal), .onward)
      | .ok (machine, flow) => (machine, flow)
      | .error e => (machine.refuseText s!"{name}: {e.shellMessage}" e.status, .onward)

def callFunction : Nat → Machine → Command → List String → Machine × Flow
  | 0, machine, _, _ => (machine, .ended)
  | fuel + 1, machine, body, args =>
      let inner := { machine with parameters := args, saved := some [], loops := 0 }
      let (after, flow) := run fuel inner body
      let after := (after.saved.getD []).foldl Machine.restore after
      let { parameters, saved, loops, .. } := machine
      ({ after with parameters, saved, loops }, if flow = .returning then .onward else flow)

/-- Runs the command that a name and arguments call. -/
def call : Nat → Machine → String → List String → Machine × Flow
  | 0, machine, _, _ => (machine, .ended)
  | fuel + 1, machine, name, args =>
      let done := (machine.withStatus 0, Flow.onward)
      let builtin (program : Program) : Machine × Flow :=
        (runProgram machine program args, .onward)
      match machine.functions.find? (fun f => f.1 == name) with
      | some (_, body) => callFunction fuel machine body args
      | none =>
          match name with
          | ":" => done
          | "true" => done
          | "false" => (machine.withStatus 1, .onward)
          | "echo" =>
              if (machine.channel? 1).isNone then (machine.refuse "echo: echo: I/O error" 1, .onward)
              else builtin echo.program
          | "printf" => builtin (printf machine.caller).program
          | "test" => builtin (test s!"{machine.caller}test: ")
          | "[" => builtin (bracketTest s!"{machine.caller}[: ")
          | "read" => (readLine machine args, .onward)
          | "getopts" => (getopts machine args).settled .onward
          | "pwd" =>
              ((machine.print 1 (shownPath machine.directory ++ "\n")).withStatus 0, .onward)
          | "cd" => (changeDirectory machine args, .onward)
          | "umask" =>
              ((if args.isEmpty then machine.print 1 "0022\n" else machine).withStatus 0, .onward)
          | "ulimit" => ((machine.print 1 "unlimited\n").withStatus 0, .onward)
          | "times" =>
              let line := "0m0.000000s 0m0.000000s\n"
              ((machine.print 1 (line ++ line)).withStatus 0, .onward)
          | "bg" => (machine.refuse "bg: No current job" 2, .onward)
          | "fg" => (machine.refuse "fg: No current job" 2, .onward)
          | "kill" =>
              match kill machine args with
              | (machine, none) => (machine, .onward)
              | (machine, some signal) =>
                  match machine.traps.find? (fun t => t.1 == signal && signal != 9) with
                  | some (_, action) =>
                      let (after, flow) := runText fuel machine "" action.toList
                      (if flow = .onward then after.withStatus 0 else after, flow)
                  | none => (machine, .killed signal)
          | _ =>
              if ["wait", "hash", "alias", "unalias", "jobs"].contains name then done
              else if specialBuiltins.contains name then callSpecial fuel machine name args
              else callOther fuel machine name args

/-- Runs a command that leaves loops or scripts, or changes the machine. -/
def callSpecial : Nat → Machine → String → List String → Machine × Flow
  | 0, machine, _, _ => (machine, .ended)
  | fuel + 1, machine, name, args =>
      let count := (args.head?.bind fun a => baseValue? 10 a.toList).getD 1
      let done := (machine.withStatus 0, Flow.onward)
      match name with
      | "trap" =>
          match args with
          | [] => done
          | [name] => ((setTrap machine "-" name).withStatus 0, .onward)
          | action :: names =>
              ((names.foldl (setTrap · action) machine).withStatus 0, .onward)
      | "break" => (machine.withStatus 0, if machine.loops = 0 then .onward else .leave count)
      | "continue" => (machine.withStatus 0, if machine.loops = 0 then .onward else .again count)
      | "return" =>
          match statusOf machine args with
          | .ok status => (machine.withStatus status, .returning)
          | .error text => (machine.halt s!"return: Illegal number: {text}", .ended)
      | "exit" =>
          match statusOf machine args with
          | .ok status => (machine.withStatus status, .ended)
          | .error text => (machine.halt s!"exit: Illegal number: {text}", .ended)
      | "shift" =>
          if machine.parameters.length < count then
            (machine.halt "shift: can't shift that many", .ended)
          else ({ machine with parameters := machine.parameters.drop count, status := 0 }, .onward)
      | "unset" =>
          let names := args.filter fun a => a != "-v" && a != "-f"
          let machine :=
            if args.contains "-f" then
              { machine with functions := machine.functions.filter fun f => !names.contains f.1 }
            else names.foldl Machine.unset machine
          (machine.withStatus 0, .onward)
      | "export" =>
          let share (machine : Machine) (text : String) : Machine :=
            let (machine, name) := machine.assignArgument text
            { machine with exported := name :: machine.exported }
          let names := args.filter (· != "-p")
          let listed := if args.isEmpty || args.contains "-p" then
              String.join (machine.environment.map fun v =>
                s!"export {v.1}={quotedName v.2}\n")
            else ""
          (((names.foldl share machine).print 1 listed).withStatus 0, .onward)
      | "readonly" =>
          let freeze (machine : Machine) (text : String) : Machine :=
            let (machine, name) := machine.assignArgument text
            { machine with frozen := name :: machine.frozen }
          ((args.foldl freeze machine).withStatus 0, .onward)
      | "set" => (setOptions machine args).settled .onward
      | "eval" =>
          runText fuel (machine.withStatus 0) "eval: " (String.intercalate " " args).toList
      | "." =>
          match args with
          | [] => done
          | path :: _ =>
              if !path.contains '/' then (machine.halt s!".: {path}: not found", .ended)
              else
                match machine.surroundings.read path with
                | .ok content =>
                    let context := s!"{path}: "
                    let (after, flow) :=
                      runText fuel (machine.withStatus 0) context (content.map byteChar)
                    (after, if flow = .returning then .onward else flow)
                | .error .isDirectory => done
                | .error e => (machine.halt s!".: {openMessage false path e}", .ended)
      | "exec" =>
          match args with
          | [] => (machine, .onward)
          | name :: rest =>
              match spawn fuel machine name rest with
              | .ok (machine, .killed signal) => (machine, .killed signal)
              | .ok (machine, _) => (machine, .ended)
              | .error e => (machine.refuse s!"exec: {name}: {e.shellMessage}" e.status, .ended)
      | _ => done

/-- Runs a command that looks at names or at other commands, or a program. -/
def callOther : Nat → Machine → String → List String → Machine × Flow
  | 0, machine, _, _ => (machine, .ended)
  | fuel + 1, machine, name, args =>
      let done := (machine.withStatus 0, Flow.onward)
      let told (name : String) : Machine × Flow :=
        match describe machine name with
        | some (_, text) => ((machine.print 1 (text ++ "\n")).withStatus 0, .onward)
        | none => ((machine.print 1 s!"{name}: not found\n").withStatus 127, .onward)
      match name with
      | "local" =>
          match machine.saved with
          | none => (machine.halt "local: not in a function", .ended)
          | some saved =>
              let keep (machine : Machine) (text : String) : Machine :=
                let (after, name) := machine.assignArgument text
                { after with saved := some ((name, machine.value? name) :: after.saved.getD saved) }
              ((args.foldl keep machine).withStatus 0, .onward)
      | "command" =>
          match args with
          | "-v" :: name :: _ =>
              match describe machine name with
              | some (path, _) => ((machine.print 1 (path ++ "\n")).withStatus 0, .onward)
              | none => (machine.withStatus 127, .onward)
          | "-V" :: name :: _ => told name
          | "-p" :: name :: rest => call fuel { machine with functions := [] } name rest
          | name :: rest =>
              let { functions, .. } := machine
              let (after, flow) := call fuel { machine with functions := [] } name rest
              ({ after with functions, halted := false }, flow)
          | [] => done
      | "type" =>
          match args with
          | name :: _ => told name
          | [] => done
      | _ => launch fuel machine name args

/-- Runs the lines of a script in turn; `breaks` is the number of the line behind all. -/
def runSource : Nat → Machine → Nat → List Char → Machine × Flow
  | 0, machine, _, _ => (machine, .ended)
  | fuel + 1, machine, breaks, source =>
      match nextCommands breaks source with
      | .ok none => (machine, .onward)
      | .error e =>
          ({ machine with line := breaks - e.breaks }.refuseText e.message 2, .ended)
      | .ok (some (command, rest)) =>
          let (machine, flow) := run fuel machine command
          if flow = .onward then runSource fuel machine breaks rest else (machine, flow)

/-- Runs the script that a text is in the middle of another one. -/
def runText : Nat → Machine → String → List Char → Machine × Flow
  | 0, machine, _, _ => (machine, .ended)
  | fuel + 1, machine, context, source =>
      let { line, context := former, .. } := machine
      let (after, flow) := runSource fuel { machine with context } (1 + breakCount source) source
      ({ after with line, context := former }, flow)

def runWhole : Nat → Machine → List Char → Machine × Flow
  | 0, machine, _ => (machine, .ended)
  | fuel + 1, machine, source =>
      let (machine, flow) := runSource fuel machine (1 + breakCount source) source
      match flow, machine.traps.find? (fun t => t.1 == 0) with
      | .killed _, _ => (machine, flow)
      | _, none => (machine, flow)
      | _, some (_, action) =>
          let ending := { machine with traps := [], halted := false, context := "" }
          let (after, last) := runText fuel ending "" action.toList
          (if last = .onward then after.withStatus machine.status else after, last)

def runEach : Nat → Machine → String → List String → Command → Machine × Flow
  | 0, machine, _, _, _ => (machine, .ended)
  | _ + 1, machine, _, [], _ => (machine, .onward)
  | fuel + 1, machine, name, value :: rest, body =>
      let (machine, flow) := run fuel (machine.set name value) body
      if flow.repeats then runEach fuel machine name rest body else (machine, flow.outside)

/-- Runs a body while a test succeeds, or while it fails. -/
def runLoop : Nat → Machine → Bool → Command → Command → Machine × Flow
  | 0, machine, _, _, _ => (machine, .ended)
  | fuel + 1, machine, whileFails, test, body =>
      let (tested, flow) := runTest fuel machine test
      if flow ≠ .onward then (tested, flow.outside)
      else if (tested.status == 0) == whileFails then (tested.withStatus machine.status, .onward)
      else
        let (machine, flow) := run fuel tested body
        if flow.repeats then runLoop fuel machine whileFails test body
        else (machine, flow.outside)

/-- Runs the first branch of which a pattern fits a text. -/
def runChoice : Nat → Machine → List Char → List (List Word × Command) → Machine × Flow
  | 0, machine, _, _ => (machine, .ended)
  | _ + 1, machine, _, [] => (machine.withStatus 0, .onward)
  | fuel + 1, machine, subject, (tests, body) :: rest =>
      let (fits, machine) := anyFits fuel machine subject tests
      if fits then run fuel (machine.withStatus 0) body
      else runChoice fuel machine subject rest

def anyFits : Nat → Machine → List Char → List Word → Bool × Machine
  | 0, machine, _, _ => (false, machine)
  | _ + 1, machine, _, [] => (false, machine)
  | fuel + 1, machine, subject, word :: rest =>
      let (parts, machine) := expand fuel machine word
      if matches? (pattern (partGlyphs parts)) subject then (true, machine)
      else anyFits fuel machine subject rest

/-- Runs a command whose failure does not end a strict script. -/
def runTest : Nat → Machine → Command → Machine × Flow
  | 0, machine, _ => (machine, .ended)
  | fuel + 1, machine, command =>
      let (after, flow) := run fuel { machine with strict := false } command
      ({ after with strict := machine.strict }, flow)

/-- Runs a simple command whose words are expanded and whose streams are led; `shows` is where the
errors led before, at which a traced command is shown. -/
def runSimple : Nat → Machine → Option Channel → List (String × Word) → List String →
    Machine × Flow
  | 0, machine, _, _, _ => (machine, .ended)
  | fuel + 1, machine, shows, assignments, words =>
      let (values, assigned) := assign fuel machine assignments
      if assigned.halted then (assigned, .ended)
      else
        let assigned :=
          if assigned.traced then
            let errors := assigned.channel? 2
            ((assigned.lead 2 shows).print 2 (traceText values words)).lead 2 errors
          else assigned
        match words with
        | [] => (assigned, .onward)
        | name :: args =>
            let names := values.map (·.1)
            let inner := { assigned with exported := names ++ assigned.exported }
            let (after, flow) := call fuel inner name args
            let after :=
              if names.isEmpty || specialBuiltins.contains name then after
              else
                (names.map fun n => (n, machine.value? n)).foldl Machine.restore
                  { after with exported := machine.exported }
            (after, if after.halted && flow = .onward then .ended else flow)

/-- Runs a command with redirections, after which the streams lead where they led before. -/
def runRedirected : Nat → Machine → List Redirection → Command → Machine × Flow
  | 0, machine, _, _ => (machine, .ended)
  | fuel + 1, machine, redirections, body =>
      let { streams, .. } := machine
      match redirect fuel machine redirections with
      | (false, machine) => { machine with streams }.settled .onward
      | (true, inner) =>
          let (after, flow) := run fuel inner body
          ({ after with streams }, flow)

def run : Nat → Machine → Command → Machine × Flow
  | 0, machine, _ => (machine, .ended)
  | fuel + 1, machine, command =>
      match command with
      | .nothing => (machine, .onward)
      | .define name body =>
          ({ machine with functions := (name, body) :: machine.functions, status := 0 }, .onward)
      | .simple line assignments words redirections =>
          let (args, machine) := expandAll fuel { machine with line } words
          if machine.halted then (machine, .ended)
          else
            let { streams, .. } := machine
            let special := args.head?.any specialBuiltins.contains
            let (after, flow) :=
              match redirect fuel machine redirections with
              | (false, machine) =>
                  (machine, if machine.halted || special then Flow.ended else .onward)
              | (true, inner) =>
                  let inner := if words.isEmpty then inner.withStatus 0 else inner
                  runSimple fuel inner (machine.channel? 2) assignments args
            let after := if args = ["exec"] then after else { after with streams }
            if after.strict && after.status != 0 && flow == .onward then (after, .ended)
            else (after, flow)
      | .background inner =>
          let (copy, flow) := run fuel (machine.lead 0 (some .nowhere)) inner
          ((machine.afterCopy copy).withStatus 0, flow.afterCopy)
      | .pipe first second =>
          let index := machine.outputs.size
          let start :=
            { machine with outputs := machine.outputs.push .empty }.lead 1 (some (.buffer index))
          let (copy, flow) := run fuel start first
          match flow with
          | .killed signal => (machine.afterCopy copy, .killed signal)
          | _ =>
              let content := (copy.outputs[index]?.getD .empty).toList
              let next := (machine.afterCopy copy).feed 0 (.held content)
              let (copy, flow) := run fuel (next.withStatus machine.status) second
              let after := machine.afterCopy copy
              if after.strict && after.status != 0 then (after, .ended)
              else (after, flow.afterCopy)
      | .negation inner =>
          let (machine, flow) := runTest fuel machine inner
          (machine.withStatus (if machine.status = 0 then 1 else 0), flow)
      | .sequence first second =>
          let (machine, flow) := run fuel machine first
          if flow = .onward then run fuel machine second else (machine, flow)
      | .conjunction first second =>
          let (machine, flow) := runTest fuel machine first
          if flow = .onward ∧ machine.status = 0 then run fuel machine second
          else (machine, flow)
      | .disjunction first second =>
          let (machine, flow) := runTest fuel machine first
          if flow = .onward ∧ machine.status ≠ 0 then run fuel machine second
          else (machine, flow)
      | .conditional test body alternative =>
          let (machine, flow) := runTest fuel machine test
          if flow ≠ .onward then (machine, flow)
          else if machine.status = 0 then run fuel machine body
          else
            match alternative with
            | .nothing => (machine.withStatus 0, .onward)
            | alternative => run fuel machine alternative
      | .loop whileFails test body =>
          let inner := { machine with status := 0, loops := machine.loops + 1 }
          let (after, flow) := runLoop fuel inner whileFails test body
          ({ after with loops := machine.loops }, flow)
      | .each name words body =>
          let (values, machine) :=
            match words with
            | some words => expandAll fuel machine words
            | none => (machine.parameters, machine)
          if machine.halted then (machine, .ended)
          else
            let inner := { machine with status := 0, loops := machine.loops + 1 }
            let (after, flow) := runEach fuel inner name values body
            ({ after with loops := machine.loops }, flow)
      | .choice subject branches =>
          let (text, machine) := expandOne fuel machine subject
          if machine.halted then (machine, .ended)
          else runChoice fuel machine text.toList branches
      | .group body redirections => runRedirected fuel machine redirections body
      | .subshell body redirections =>
          let (copy, flow) :=
            runRedirected fuel { machine with traps := [] } redirections body
          let after := machine.afterCopy copy
          if after.strict && after.status != 0 then (after, .ended) else (after, flow.afterCopy)

end

def mostSteps : Nat := 1000000

/-- The launcher of the machine. It knows the programs of the catalogue. -/
def launcher : Child.Launcher := fun launch tree =>
  let bindings := launch.environment.map fun v => (encoded v.1, encoded v.2)
  let command := encoded launch.program
  let machine := Machine.start command [] bindings tree launch.input.toList
  match spawn mostSteps machine command (launch.arguments.map encoded) with
  | .error _ => (.error (.notStarted "No such file or directory"), tree)
  | .ok (machine, flow) =>
      let exit :=
        match flow with
        | .killed signal => .signal signal false
        | _ => .status machine.status
      (.ok ⟨exit, machine.outputs[0]?.getD .empty, machine.outputs[1]?.getD .empty⟩, machine.tree)

end Shell

end VersionGroups
