import VersionGroups.CommandLine.Arguments
import VersionGroups.CommandLine.Host
import VersionGroups.CommandLine.Profile
import VersionGroups.Config.Reader
import VersionGroups.Generator.Command
import VersionGroups.Release.Loading
import VersionGroups.Run
import VersionGroups.Untracked

/-!
# Commands

A command reads the configuration and the corpus from the file tree. `run` writes artifacts and then
the manifest, `check` compares the manifest on file with the inputs, and `untracked` lists the
packets that no slot tracks. What a command has to tell comes last, when all files are written. A
command that fails tells why, with what it was doing in front.
-/

namespace VersionGroups

namespace CommandLine

/-- The text of a failure within an action. -/
def within {α : Type} (action : String) (result : Except ErrorReport α) : Except String α :=
  result.mapError fun report => s!"{action}: {report.text}"

def plain {α : Type} (result : Except ErrorReport α) : Except String α :=
  result.mapError ErrorReport.text

/-- Which releases the inputs ask for. -/
def Inputs.filter (inputs : Inputs) : ReleaseFilter :=
  ⟨!inputs.includeSnapshots, !inputs.ignoreCommonList⟩

/-- Reads the configuration and then the corpus, which must not be empty. -/
def Inputs.load (inputs : Inputs) (tree : FileTree) :
    Except String (LoadedCorpus × SlotConfig) := do
  let config ← within s!"loading slot configuration {inputs.slots}"
    (SlotConfig.ofFile tree inputs.slots)
  let loaded ← within s!"loading corpus from {inputs.dataDirectory}"
    (LoadedCorpus.load tree.access inputs.dataDirectory inputs.filter)
  if loaded.corpus.isEmpty then
    throw s!"no protocol versions found under {inputs.dataDirectory}"
  return (loaded, config)

/-- The text of the manifest on file; there may be none. -/
def readManifest (tree : FileTree) (path : String) : Except ErrorReport (Option String) :=
  match tree.readText path with
  | .ok text => .ok (some text)
  | .error .missing => .ok none
  | .error _ => .error (.ofAccess "read_manifest")

def gapLine (record : DispatchRecord) : String :=
  match record.outcome with
  | .gap _ reason => s!"  gap: {record.key.slot.label} v{record.key.version}: {reason}\n"
  | _ => ""

/-- What a run tells about its outcome. -/
def runText (manifest : String) (outcome : RunOutcome) : String :=
  s!"Manifest written: {manifest} (digest {outcome.computed.digest})\n" ++
    s!"  versions: {outcome.versionsConsidered} considered, {outcome.aliasCount} aliases\n" ++
    s!"  slots: {outcome.slotCount}, groups: {outcome.groupCount}\n" ++
    s!"  artifacts: {outcome.generated} generated, {outcome.existing} existing, " ++
    s!"{outcome.gaps} gaps\n" ++
    String.join (outcome.gapRecords.map gapLine)

/-- The generator that options name. -/
def generatorOf (host : Host) (program : Option String) (arguments : List String) :
    Option (Generator FileTree) :=
  program.map fun program =>
    GeneratorCommand.generatorBy host.launcher
      ⟨program, arguments, GeneratorCommand.credentialIn host.environment⟩ host.environment

/-- Computes the manifest, sees to the artifacts and writes the manifest. -/
def executeRun (host : Host) (inputs : Inputs) (manifest artifacts : String)
    (program : Option String) (arguments : List String) (tree : FileTree) :
    Except String String × FileTree :=
  match inputs.load tree with
  | .error message => (.error message, tree)
  | .ok (loaded, config) =>
      let done := VersionGroups.run "run" (ArtifactDirectory.mk artifacts).memo
        (generatorOf host program arguments) loaded.corpus config tree
      match done.result with
      | .error report => (.error report.text, done.content)
      | .ok outcome =>
          let (written, tree) := done.content.replaceFile manifest outcome.computed.text
          ((within s!"writing manifest {manifest}" written).map
            fun _ => runText manifest outcome, tree)

/-- The report on a manifest that is out of date. -/
def staleReport (manifest expected : String) (found : Option String) : ErrorReport :=
  { kind := .manifestStale, operation := some "check"
    message :=
      match found with
      | some found =>
          s!"{manifest} is stale: digest {found} but inputs produce {expected}"
      | none => s!"{manifest} does not exist" }

/-- Compares the manifest on file with the inputs. -/
def executeCheck (inputs : Inputs) (manifest : String) (tree : FileTree) :
    Except String String := do
  let (loaded, config) ← inputs.load tree
  let text ← plain (readManifest tree manifest)
  match ← plain (checkManifest loaded.corpus config text).value with
  | .upToDate digest => return s!"Manifest up to date: {manifest} ({digest})\n"
  | .stale expected found => throw (staleReport manifest expected found).text

/-- The line of an untracked packet. -/
def packetLine (names : Table Version String) (packet : UntrackedPacket) : String :=
  let name := (names.get? packet.firstVersion).getD "?"
  s!"{packet.packet.label} (first seen in {packet.firstVersion} / {name} as {packet.wireId.text})\n"

/-- Lists the packets that no slot tracks. -/
def executeUntracked (inputs : Inputs) (asJson : Bool) (tree : FileTree) :
    Except String String := do
  let (loaded, config) ← inputs.load tree
  let packets ← plain (untrackedPackets loaded.corpus config.registry)
  if asJson then return Json.indented (.arr (packets.map UntrackedPacket.toJson)) ++ "\n"
  if packets.isEmpty then return "Every packet in the corpus is tracked\n"
  return String.join (packets.map (packetLine loaded.names)) ++
    s!"{packets.length} untracked packet(s)\n"

/-- Executes a request. -/
def execute (host : Host) (request : Request) (tree : FileTree) :
    Except String String × FileTree :=
  match request with
  | .run inputs manifest artifacts program arguments =>
      executeRun host inputs manifest artifacts program arguments tree
  | .check inputs manifest => (executeCheck inputs manifest tree, tree)
  | .untracked inputs asJson => (executeUntracked inputs asJson tree, tree)

/-- What the program does when it is called with arguments: it executes the request that they make,
and tells the outcome. -/
def serve (host : Host) (arguments : List String) (tree : FileTree) : Result :=
  match parse arguments with
  | .error (.help command) => host.showManual command tree
  | .error (.usage e) => host.reject s!"error: {e.message}\n" tree
  | .ok (log, request) =>
      match Profile.ofName? log with
      | none =>
          host.complain 2
            s!"Error: unknown logging profile {quoted log} (expected dev or prod)\n" tree
      | some _ => host.conclude (execute host request tree)

end CommandLine

end VersionGroups
