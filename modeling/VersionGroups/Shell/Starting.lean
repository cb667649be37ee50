import VersionGroups.Shell.Builtins
import VersionGroups.Shell.Catalogue

/-!
# Programs that start others

What the arguments of a shell, of a program that sets variables, and of a program that makes command
lines from its input ask for.
-/

namespace VersionGroups

namespace Shell

/-- Why a program cannot be started. -/
inductive StartError where
  | missing
  | denied
  deriving DecidableEq, Repr

/-- The status of a command whose program cannot be started. -/
def StartError.status : StartError → Nat
  | .missing => 127
  | .denied => 126

def StartError.message : StartError → String
  | .missing => "No such file or directory"
  | .denied => "Permission denied"

def StartError.shellMessage : StartError → String
  | .missing => "not found"
  | .denied => "Permission denied"

/-- Why a name that is no program cannot be started: files of the tree are no programs. -/
def Surroundings.startError (surroundings : Surroundings) (name : String) : StartError :=
  if name.contains '/' && surroundings.leads name then .denied else .missing

def isShell (name : String) : Bool := name == "sh" || name == "dash" || name == "bash"

def runProgram (machine : Machine) (program : Program) (args : List String) : Machine :=
  let done := program machine.surroundings args machine.input
  let machine := machine.withInput done.input
  let machine := { machine with tree := done.tree.getD machine.tree }
  (((machine.write 1 done.early).write 2 done.errors).write 1 done.output).withStatus done.status

/-! ## Shells -/

/-- What the arguments of a shell ask for. -/
inductive ShellCall where
  | command (source : String) (name : Option String) (parameters : List String)
  | input (parameters : List String)
  | file (path : String) (parameters : List String)
  | noCommand
  | badOption (letter : Char)
  deriving DecidableEq, Repr

/-- Reads the arguments of a shell; the letters are those of the options before. -/
def shellCall (letters : List Char) : List String → ShellCall × List Char
  | [] => (if letters.contains 'c' then .noCommand else .input [], letters)
  | arg :: rest =>
      let operands : ShellCall × List Char :=
        (if letters.contains 'c' then .command arg rest.head? rest.tail
          else if letters.contains 's' then .input (arg :: rest)
          else .file arg rest,
          letters)
      match arg.toList with
      | ['-', '-'] =>
          match rest with
          | [] => (if letters.contains 'c' then .noCommand else .input [], letters)
          | first :: others =>
              (if letters.contains 'c' then .command first others.head? others.tail
                else if letters.contains 's' then .input rest
                else .file first others,
                letters)
      | '-' :: c :: more =>
          match (c :: more).find? (fun c => !"abcCefhimnsuvxV".toList.contains c) with
          | some bad => (.badOption bad, letters)
          | none => shellCall (letters ++ c :: more) rest
      | _ => operands

/-! ## Variables -/

def variableLines (bindings : List (String × String)) : String :=
  String.join (bindings.map fun v => s!"{v.1}={v.2}\n")

def printVariables (machine : Machine) (names : List String) : Machine :=
  let visible := machine.environment
  if names.isEmpty then (machine.print 1 (variableLines visible)).withStatus 0
  else
    let values := names.map fun name => (visible.find? (fun v => v.1 == name)).map (·.2)
    let text := String.join (values.filterMap fun v => v.map (· ++ "\n"))
    (machine.print 1 text).withStatus (if values.any (·.isNone) then 1 else 0)

/-- The words that have a meaning where a command may begin. -/
def reservedWords : List String :=
  ["if", "then", "else", "elif", "fi", "for", "while", "until", "do", "done", "case", "esac", "in",
    "!", "\x7b", "\x7d"]

/-- What a name stands for as a command, in words. -/
def describe (machine : Machine) (name : String) : Option (String × String) :=
  if reservedWords.contains name then some (name, s!"{name} is a shell keyword")
  else if machine.functions.any (fun f => f.1 == name) then
    some (name, s!"{name} is a shell function")
  else if specialBuiltins.contains name then some (name, s!"{name} is a special shell builtin")
  else if otherBuiltins.contains name then some (name, s!"{name} is a shell builtin")
  else
    let program := programName name
    if startingPrograms.contains program || (program? program).isSome then
      let path := if name.startsWith "/" then name else "/usr/bin/" ++ name
      some (path, s!"{name} is {path}")
    else none

/-! ## Commands in arguments -/

/-- The command behind the options of a program that starts it: the first argument that is no option
nor the value of one, after some more arguments. -/
def startedCommand (valued : List String) : Nat → List String → List String
  | _, [] => []
  | skipped, arg :: rest =>
      if valued.contains arg then startedCommand valued skipped rest.tail
      else if arg.startsWith "-" then startedCommand valued skipped rest
      else if skipped = 0 then arg :: rest
      else startedCommand valued (skipped - 1) rest
  termination_by _ args => args.length
  decreasing_by all_goals grind

/-- The command that a program with a limit of time, or of another kind, starts. -/
def limitedCommand? (program : String) (args : List String) : Option (List String) :=
  match program with
  | "timeout" => some (startedCommand ["-k", "-s"] 1 args)
  | "nice" => some (startedCommand ["-n"] 0 args)
  | "nohup" => some args
  | "stdbuf" => some (startedCommand ["-i", "-o", "-e"] 0 args)
  | _ => none

/-! ## Command lines from the input -/

/-- The words of a text: quotes and backslashes keep characters together. -/
def inputWords : Nat → Option (List Char) → List Char → Except String (List String)
  | 0, _, _ => .ok []
  | fuel + 1, current, cs => do
      let finish : List String := current.toList.map fun w => String.ofList w.reverse
      let add (chars rest : List Char) : Except String (List String) :=
        inputWords fuel (some (chars.reverse ++ current.getD [])) rest
      match cs with
      | [] => return finish
      | '\\' :: c :: rest => add [c] rest
      | c :: rest =>
          if c = ' ' ∨ c = '\t' ∨ c = '\n' then
            return finish ++ (← inputWords fuel none rest)
          else if c = '\'' ∨ c = '"' then
            let inner := rest.takeWhile (· != c)
            let after := rest.drop inner.length
            if after.isEmpty || inner.contains '\n' then
              let kind := if c = '"' then "double" else "single"
              throw (s!"xargs: unmatched {kind} quote; by default quotes are special to xargs " ++
                "unless you use the -0 option\n")
            else add inner after.tail
          else add [c] rest

/-- A text with all occurrences of another one replaced. -/
def replaceAll (old new : List Char) : Nat → List Char → List Char
  | 0, cs => cs
  | _ + 1, [] => []
  | fuel + 1, c :: cs =>
      if !old.isEmpty && old.isPrefixOf (c :: cs) then
        new ++ replaceAll old new fuel ((c :: cs).drop old.length)
      else c :: replaceAll old new fuel cs

def chunks {α : Type} (size : Nat) : Nat → List α → List (List α)
  | 0, _ => []
  | _ + 1, [] => []
  | fuel + 1, l => l.take size :: chunks size fuel (l.drop size)

/-- The command lines that arguments and an input make, and whether they are shown. -/
structure CommandLines where
  lines : List (List String)
  shown : Bool

/-- The options that stand before the command of command lines, and the command. -/
def lineOptions : Nat → List String → Except String (Options × List String)
  | 0, args => .ok (⟨[], []⟩, args)
  | fuel + 1, args => do
      match args with
      | [] => return (⟨[], []⟩, [])
      | arg :: rest =>
          match arg.toList with
          | ['-', '-'] => return (⟨[], []⟩, rest)
          | '-' :: c :: letters =>
              let (given, missing) ← clusterOptions ⟨"0rtpx", "nILPdsEa", []⟩ (c :: letters)
              match missing, rest with
              | none, rest =>
                  let (options, command) ← lineOptions fuel rest
                  return ({ options with given := given ++ options.given }, command)
              | some letter, value :: rest =>
                  let (options, command) ← lineOptions fuel rest
                  return ({ options with given := given ++ (letter, value) :: options.given },
                    command)
              | some letter, [] => throw s!"option requires an argument -- '{letter}'"
          | _ => return (⟨[], []⟩, args)

/-- The command lines of a program that makes them from its input. -/
def commandLines (args : List String) (input : List UInt8) : Except String CommandLines := do
  let (options, command) ←
    (lineOptions (args.length + 1) args).mapError fun message =>
      s!"xargs: {message}\n" ++ advice "xargs"
  let command := if command.isEmpty then ["echo"] else command
  let text := input.map byteChar
  let number? (letter : Char) : Option Nat :=
    (options.value? letter).bind fun t => baseValue? 10 t.toList
  let delimiter : Option Char :=
    if options.has '0' then some '\x00'
    else (options.value? 'd').map fun t =>
      match t.toList with
      | ['\\', c] => ((escapeCode? c).map byteChar).getD (if c = '0' then '\x00' else c)
      | c :: _ => c
      | [] => '\n'
  let pieces (mark : Char) : List String :=
    let pieces := text.splitOn mark
    (if pieces.getLast? = some [] then pieces.dropLast else pieces).map String.ofList
  match options.value? 'I' with
  | some mark =>
      let items := (pieces (delimiter.getD '\n')).map fun item =>
        item.toList.dropWhile fun c => c == ' ' || c == '\t'
      let items := items.filter (!·.isEmpty)
      let lines := items.map fun item => command.map fun word =>
        String.ofList (replaceAll mark.toList item (word.length + 1) word.toList)
      return ⟨lines, options.has 't'⟩
  | none =>
      let words ←
        match delimiter with
        | some mark => pure (pieces mark)
        | none => inputWords (text.length + 1) none text
      let groups ←
        match number? 'n', number? 'L' with
        | some n, _ => pure (chunks (max 1 n) (words.length + 1) words)
        | none, some n =>
            let lines := (pieces '\n').filter (· != "")
            (chunks (max 1 n) (lines.length + 1) lines).mapM fun group =>
              let line := (String.intercalate " " group).toList
              inputWords (line.length + 1) none line
        | none, none => pure [words]
      let groups := groups.filter (!·.isEmpty)
      let groups := if groups.isEmpty && !options.has 'r' then [[]] else groups
      return ⟨groups.map (command ++ ·), options.has 't'⟩

end Shell

end VersionGroups
