import VersionGroups.Artifact.Dispatch
import VersionGroups.Generator.Child
import VersionGroups.Json.Writer
import VersionGroups.Secret
import VersionGroups.Text.Blank
import VersionGroups.Text.Utf8

/-!
# Generator commands

A generator can be a command. It gets the request as a document on its input and answers with the
source on its output. A credential reaches it through a variable of its environment only. A command
that cannot be started, fails, or answers with nothing or with bytes that are no text leaves a gap.
How programs are started is left open.
-/

namespace VersionGroups

/-- A program with its arguments and an optional credential. -/
structure GeneratorCommand where
  program : String
  arguments : List String
  credential : Option (Secret String)

namespace GeneratorCommand

/-- The variable that holds the credential. -/
def credentialVariable : String := "WIREGROUP_GENERATOR_KEY"

/-- The credential in an environment; an empty one is none. -/
def credentialIn (environment : List (String × String)) : Option (Secret String) :=
  match environment.find? (fun v => v.1 == credentialVariable) with
  | some (_, value) => if value = "" then none else some ⟨value⟩
  | none => none

def childEnvironment (command : GeneratorCommand) (environment : List (String × String)) :
    List (String × String) :=
  match command.credential with
  | some secret => (credentialVariable, secret.exposed) :: environment
  | none => environment

def payload (request : GenerationRequest) : String := request.toJson.compact

/-- The greatest number of characters of a complaint that is passed on. -/
def longestExcerpt : Nat := 200

/-- The beginning of what a program complained of. -/
def excerpt (errors : ByteArray) : String :=
  String.ofList ((trimmed (Utf8.lenient errors)).toList.take longestExcerpt)

/-- The source in what a process left behind, or why there is none. -/
def sourceOf (ended : Child.Ended) : Except String String :=
  match ended.exit.failureText? with
  | some text => .error s!"generator exited with {text}: {excerpt ended.errors}"
  | none =>
      match String.fromUTF8? ended.output with
      | none => .error "generator output is not UTF-8"
      | some source =>
          if isBlankText source then .error "generator returned an empty response"
          else .ok source

/-- Why there is no source if nothing can be said about the end of the process. -/
def failureMessage (program : String) : Child.Failure → String
  | .notStarted cause => s!"failed to start {program}: {cause}"
  | .notFinished cause => s!"generator did not finish: {cause}"
  | .notFed cause => s!"writing request failed: {cause}"

/-- Whether a text can be handed to a program. -/
def isPassable (text : String) : Bool := !text.toList.contains '\x00'

/-- What is started for a request. -/
def launch (command : GeneratorCommand) (environment : List (String × String))
    (request : GenerationRequest) : Child.Launch :=
  ⟨command.program, command.arguments, command.childEnvironment environment,
    (payload request).toUTF8⟩

def isLaunchable (launch : Child.Launch) : Bool :=
  isPassable launch.program && launch.arguments.all isPassable &&
    launch.environment.all fun v => isPassable v.2

/-- The source that the command gives for a request, or why it gives none, and the tree after it. -/
def answer (launcher : Child.Launcher) (command : GeneratorCommand)
    (environment : List (String × String)) (request : GenerationRequest) (tree : FileTree) :
    Except String String × FileTree :=
  let launch := command.launch environment request
  if isLaunchable launch then
    match launcher launch tree with
    | (.ok ended, tree) => (sourceOf ended, tree)
    | (.error failure, tree) => (.error (failureMessage command.program failure), tree)
  else
    let failure := .notStarted "nul byte found in provided data"
    (.error (failureMessage command.program failure), tree)

/-- The generator that a command is in an environment, where programs are started by a launcher; it
works in the file tree. -/
def generatorBy (launcher : Child.Launcher) (command : GeneratorCommand)
    (environment : List (String × String)) : Generator FileTree := fun request tree =>
  let (source, tree) := command.answer launcher environment request tree
  (source.mapError fun reason => .ofFault (.generationFailed request.slot request.version reason),
    tree)

end GeneratorCommand

end VersionGroups
