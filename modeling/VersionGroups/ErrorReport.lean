import VersionGroups.Fault

/-!
# Error reports

A report carries a kind, a sentence and where the failure happened: the operation, the slot, the
version, the run, a chain of references, and the reports of failures that it collects. The kinds
that tell of a broken corpus end a computation at once.
-/

namespace VersionGroups

/-- The kinds of failure. -/
inductive ErrorKind where
  | corpusInconsistency
  | missingBaseVersion
  | cycleDetected
  | ambiguousGroup
  | staleAlias
  | slotFailures
  | manifestStale
  | generationUnavailable
  | generationFailed
  | invalidInput
  | invalidConfig
  | duplicateSlot
  | notFound
  | io
  | serialization
  | internal
  deriving DecidableEq, Repr

namespace ErrorKind

def all : List ErrorKind :=
  [.corpusInconsistency, .missingBaseVersion, .cycleDetected, .ambiguousGroup, .staleAlias,
    .slotFailures, .manifestStale, .generationUnavailable, .generationFailed, .invalidInput,
    .invalidConfig, .duplicateSlot, .notFound, .io, .serialization, .internal]

/-- The name under which a kind is logged. -/
def name : ErrorKind → String
  | .corpusInconsistency => "CorpusInconsistency"
  | .missingBaseVersion => "MissingBaseVersion"
  | .cycleDetected => "CycleDetected"
  | .ambiguousGroup => "AmbiguousGroup"
  | .staleAlias => "StaleAlias"
  | .slotFailures => "SlotFailures"
  | .manifestStale => "ManifestStale"
  | .generationUnavailable => "GenerationUnavailable"
  | .generationFailed => "GenerationFailed"
  | .invalidInput => "InvalidInput"
  | .invalidConfig => "InvalidConfig"
  | .duplicateSlot => "DuplicateSlot"
  | .notFound => "NotFound"
  | .io => "Io"
  | .serialization => "Serialization"
  | .internal => "Internal"

/-- The stable code of a kind. -/
def code : ErrorKind → String
  | .corpusInconsistency => "ERR_CORPUS_INCONSISTENCY"
  | .missingBaseVersion => "ERR_MISSING_BASE_VERSION"
  | .cycleDetected => "ERR_CYCLE_DETECTED"
  | .ambiguousGroup => "ERR_AMBIGUOUS_GROUP"
  | .staleAlias => "ERR_STALE_ALIAS"
  | .slotFailures => "ERR_SLOT_FAILURES"
  | .manifestStale => "ERR_MANIFEST_STALE"
  | .generationUnavailable => "ERR_GENERATION_UNAVAILABLE"
  | .generationFailed => "ERR_GENERATION_FAILED"
  | .invalidInput => "ERR_INVALID_INPUT"
  | .invalidConfig => "ERR_INVALID_CONFIG"
  | .duplicateSlot => "ERR_DUPLICATE_SLOT"
  | .notFound => "ERR_NOT_FOUND"
  | .io => "ERR_IO"
  | .serialization => "ERR_SERIALIZATION"
  | .internal => "ERR_INTERNAL"

/-- Whether a failure of this kind tells of a broken corpus. -/
def isCorpusFatal : ErrorKind → Bool
  | .corpusInconsistency | .missingBaseVersion | .cycleDetected => true
  | _ => false

end ErrorKind

/-- A failure with its context. -/
structure ErrorReport where
  kind : ErrorKind
  operation : Option String := none
  slot : Option String := none
  version : Option Version := none
  runId : Option String := none
  message : String := ""
  path : Option (List String) := none
  failures : List ErrorReport := []
  deriving Repr

namespace ErrorReport

/-- The same failure within an operation. -/
def within (report : ErrorReport) (operation : String) : ErrorReport :=
  { report with operation := some operation }

/-- The same failure about a slot. -/
def about (report : ErrorReport) (slot : String) : ErrorReport :=
  { report with slot := some slot }

/-- The same failure in a run. -/
def inRun (report : ErrorReport) (runId : String) : ErrorReport :=
  { report with runId := some runId }

/-- The code of the failure's kind. -/
def code (report : ErrorReport) : String := report.kind.code

def ofFault (fault : Fault) : ErrorReport :=
  match fault with
  | .unresolvedPacket version _ | .conflictingWireId version _ _ _
  | .malformedWireId version _ _ _ | .malformedPacketTable version _ _ _ =>
      { kind := .corpusInconsistency, version := some version, message := fault.message }
  | .missingBaseVersion minimum =>
      { kind := .missingBaseVersion, version := some minimum, message := fault.message }
  | .typeCycle path =>
      { kind := .cycleDetected, path := some path,
        message := "Tracked type reference graph is cyclic" }
  | .ambiguousGroup slot version _ _ =>
      { kind := .ambiguousGroup, slot := some slot, version := some version,
        message := fault.message }
  | .staleAlias aliasVersion _ =>
      { kind := .staleAlias, version := some aliasVersion, message := fault.message }
  | .invalidConfig _ | .invalidTypePath _ | .unknownDirection _ =>
      { kind := .invalidConfig, message := fault.message }
  | .duplicateSlot slot =>
      { kind := .duplicateSlot, slot := some slot, message := "Slot declared more than once" }
  | .generationUnavailable slot version =>
      { kind := .generationUnavailable, slot := some slot, version := some version,
        message := "No generator configured" }
  | .generationFailed slot version reason =>
      { kind := .generationFailed, slot := some slot, version := some version,
        message := reason }
  | .serialization message => { kind := .serialization, message := message }
  | .internal message => { kind := .internal, message := message }

/-- A failed access to a file during an operation. -/
def ofAccess (operation : String) : ErrorReport := { kind := .io, operation := some operation }

/-- An optional part of a line. -/
def part {α : Type} (value : Option α) (text : α → String) : String :=
  match value with
  | some a => text a
  | none => ""

/-- The line of a report without the reports it collects. -/
def headline (report : ErrorReport) : String :=
  s!"[{report.code}]" ++
    part report.operation (fun op => s!" in operation '{op}'") ++
    (if report.message = "" then "" else s!": {report.message}") ++
    part report.slot (fun slot => s!" (slot: {slot})") ++
    part report.version (fun version => s!" (version: {version})") ++
    part report.path (fun path => s!" (path: {chainText path})")

mutual

/-- The whole text of a report; each report it collects begins a line of its own. -/
def text : ErrorReport → String
  | ⟨kind, operation, slot, version, runId, message, path, failures⟩ =>
      headline ⟨kind, operation, slot, version, runId, message, path, []⟩ ++ failureText failures

/-- The lines of collected reports. -/
def failureText : List ErrorReport → String
  | [] => ""
  | report :: rest => "\n  - " ++ text report ++ failureText rest

end

end ErrorReport

end VersionGroups
