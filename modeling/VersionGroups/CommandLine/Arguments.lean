/-!
# Arguments of the command line

The first argument names a command and the others are its options, written `--name`, `--name value`
or `--name=value`. An option is given at most once unless it may be repeated. The option that
chooses the form of the log may also precede the command. Arguments are read from the left, and the
first one that asks for a manual or is wrong decides. The value of an option counts when the next
option is met or the arguments end, so a manual may be had before a repetition is noticed.
-/

namespace VersionGroups

namespace CommandLine

/-- Where the corpus and the configuration are. -/
structure Inputs where
  dataDirectory : String
  slots : String
  includeSnapshots : Bool
  ignoreCommonList : Bool
  deriving DecidableEq, Repr

/-- A command with its options. -/
inductive Request where
  | run (inputs : Inputs) (manifest artifacts : String) (generator : Option String)
      (generatorArguments : List String)
  | check (inputs : Inputs) (manifest : String)
  | untracked (inputs : Inputs) (asJson : Bool)
  deriving DecidableEq, Repr

/-- What is wrong with the arguments. -/
inductive UsageError where
  | noCommand
  | unknownCommand (name : String)
  | unexpected (argument : String)
  | missingValue (option : String)
  | needlessValue (option : String)
  | repeated (option : String)
  | missingOption (option : String)
  | missingCompanion (option companion : String)
  deriving DecidableEq, Repr

/-- What is wrong, in words. -/
def UsageError.message : UsageError → String
  | .noCommand => "a command is required: run, check or untracked"
  | .unknownCommand name => s!"unrecognized command '{name}'"
  | .unexpected argument => s!"unexpected argument '{argument}'"
  | .missingValue option => s!"a value is required for '--{option}'"
  | .needlessValue option => s!"'--{option}' takes no value"
  | .repeated option => s!"'--{option}' cannot be used multiple times"
  | .missingOption option => s!"'--{option}' is required"
  | .missingCompanion option companion => s!"'--{option}' requires '--{companion}'"

/-- Why arguments make no request: a manual is asked for, that of the program or of one command, or
they are wrong. -/
inductive Stop where
  | help (command : Option String)
  | usage (error : UsageError)
  deriving DecidableEq, Repr

/-- What an option takes: nothing, any text, the path of a file, or a text each time it is given. -/
inductive Kind where
  | flag
  | text
  | path
  | texts
  deriving DecidableEq, Repr

/-- The options of a command by name. -/
abbrev Options := List (String × Kind)

/-- Options as they are given; a flag has an empty value. -/
abbrev Given := List (String × String)

/-- The option that chooses the form of the log. -/
def logOption : String × Kind := ("log", .text)

/-- The options that say where the corpus and the configuration are. -/
def inputOptions : Options :=
  [("data-dir", .path), ("slots", .path), ("include-snapshots", .flag),
    ("ignore-common-list", .flag), logOption]

/-- The options of each command. -/
def optionsOf? (command : String) : Option Options :=
  match command with
  | "run" =>
      some (inputOptions ++
        [("manifest", .path), ("artifacts", .path), ("generator", .path),
          ("generator-arg", .texts)])
  | "check" => some (inputOptions ++ [("manifest", .path)])
  | "untracked" => some (inputOptions ++ [("json", .flag)])
  | _ => none

/-- Whether an argument looks like an option. -/
def looksLikeOption (argument : String) : Bool :=
  argument != "-" && argument.toList.head? == some '-'

/-- The name and the value of an argument that is an option. -/
def splitOption? (argument : String) : Option (String × Option String) :=
  match argument.toList with
  | '-' :: '-' :: cs =>
      let name := cs.takeWhile (· != '=')
      match cs.drop name.length with
      | _ :: value => some (String.ofList name, some (String.ofList value))
      | [] => some (String.ofList name, none)
  | _ => none

/-- Whether an argument asks for the manual. Options in one dash are single letters. -/
def asksForManual (argument : String) : Bool :=
  argument == "--help" || ['-', 'h'].isPrefixOf argument.toList

/-- The options read so far: those that count, and one that does not count yet. -/
structure Progress where
  given : Given := []
  pending : Option (String × Kind × String) := none

/-- Adds an option to those given before. -/
def addGiven (given : Given) (name : String) (kind : Kind) (value : String) : Except Stop Given :=
  if kind = .path ∧ value = "" then .error (.usage (.missingValue name))
  else if kind ≠ .texts ∧ given.any (fun g => g.1 == name) then .error (.usage (.repeated name))
  else .ok (given ++ [(name, value)])

/-- All options read so far, as they count. -/
def Progress.settle (progress : Progress) : Except Stop Given :=
  match progress.pending with
  | some (name, kind, value) => addGiven progress.given name kind value
  | none => .ok progress.given

/-- One more option that counts at once. -/
def Progress.add (progress : Progress) (name : String) (kind : Kind) (value : String) :
    Except Stop Progress := do
  return ⟨← addGiven (← progress.settle) name kind value, none⟩

/-- One more option that counts later. -/
def Progress.hold (progress : Progress) (name : String) (kind : Kind) (value : String) :
    Except Stop Progress := do
  return ⟨← progress.settle, some (name, kind, value)⟩

/-- Reads the options of a command, or those in front of it, up to an argument that is none. -/
def takeOptions (command : Option String) (options : Options) (progress : Progress) :
    List String → Except Stop (Progress × List String)
  | [] => .ok (progress, [])
  | argument :: rest =>
      if argument = "--" ∨ !looksLikeOption argument then .ok (progress, argument :: rest)
      else if asksForManual argument then do
        let _ ← progress.settle
        throw (.help command)
      else
        match splitOption? argument with
        | none => .error (.usage (.unexpected argument))
        | some (name, value) =>
            match options.find? (fun o => o.1 == name), value with
            | none, _ => .error (.usage (.unexpected argument))
            | some (_, .flag), some _ => .error (.usage (.needlessValue name))
            | some (_, .flag), none => do
                takeOptions command options (← progress.add name .flag "") rest
            | some (_, kind), some value => do
                takeOptions command options (← progress.add name kind value) rest
            | some (_, kind), none =>
                match rest with
                | [] => .error (.usage (.missingValue name))
                | value :: rest =>
                    if looksLikeOption value then .error (.usage (.missingValue name))
                    else do takeOptions command options (← progress.hold name kind value) rest

def value? (given : Given) (name : String) : Option String :=
  (given.find? (fun g => g.1 == name)).map (·.2)

/-- The value of an option that must be given. -/
def required (given : Given) (name : String) : Except Stop String :=
  match value? given name with
  | some value => .ok value
  | none => .error (.usage (.missingOption name))

/-- The inputs that options name. -/
def inputs (given : Given) : Except Stop Inputs := do
  return ⟨← required given "data-dir", ← required given "slots",
    (value? given "include-snapshots").isSome, (value? given "ignore-common-list").isSome⟩

/-- The path of the manifest unless an option names another. -/
def standardManifest : String := "packets.toml"

/-- The directory of artifacts unless an option names another. -/
def standardArtifacts : String := "generated"

/-- The request that a command and its options make. -/
def request (command : String) (given : Given) : Except Stop Request := do
  let inputs ← inputs given
  let manifest := (value? given "manifest").getD standardManifest
  match command with
  | "run" =>
      let generator := value? given "generator"
      let arguments := (given.filter (fun g => g.1 == "generator-arg")).map (·.2)
      if generator.isNone && !arguments.isEmpty then
        throw (.usage (.missingCompanion "generator-arg" "generator"))
      return .run inputs manifest ((value? given "artifacts").getD standardArtifacts) generator
        arguments
  | "check" => return .check inputs manifest
  | "untracked" => return .untracked inputs (value? given "json").isSome
  | _ => throw (.usage (.unknownCommand command))

/-- The manual that follows from the names after the command `help`. -/
def manualOf : List String → Stop
  | [] => .help none
  | [name] =>
      if name = "help" ∨ (optionsOf? name).isSome then .help (some name)
      else .usage (.unknownCommand name)
  | name :: next :: _ =>
      .usage (.unknownCommand (if name = "help" ∨ (optionsOf? name).isSome then next else name))

/-- The form of the log unless an option names another. -/
def standardLog : String := "dev"

/-- The form of the log and the request that arguments ask for. -/
def parse (arguments : List String) : Except Stop (String × Request) := do
  let (before, rest) ← takeOptions none [logOption] {} arguments
  match rest with
  | [] => throw (.usage .noCommand)
  | "help" :: names => throw (manualOf names)
  | command :: rest =>
      match optionsOf? command with
      | none => throw (.usage (.unknownCommand command))
      | some options =>
          let (progress, rest) ← takeOptions (some command) options {} rest
          let extra := if rest.head? = some "--" then rest.tail else rest
          if let some argument := extra.head? then throw (.usage (.unexpected argument))
          let given ← progress.settle
          let request ← request command given
          let log := ((value? given "log").or (value? (← before.settle) "log")).getD standardLog
          return (log, request)

end CommandLine

end VersionGroups
