import VersionGroups.Artifact.Dispatch
import VersionGroups.Manifest.Computed

/-!
# Runs

A run computes the manifest and then sees to it that every group has its artifact. Nothing is asked
for or recorded unless the manifest could be computed. Its report counts what became of the
artifacts.
-/

namespace VersionGroups

/-- What a run came to. -/
structure RunOutcome where
  computed : Computed
  records : List DispatchRecord

namespace RunOutcome

/-- The number of artifacts that were generated. -/
def generated (outcome : RunOutcome) : Nat :=
  outcome.records.countP (·.outcome.isGenerated)

/-- The number of artifacts that were there already. -/
def existing (outcome : RunOutcome) : Nat := outcome.records.countP (·.outcome.isExisting)

/-- The records of the artifacts that could not be had. -/
def gapRecords (outcome : RunOutcome) : List DispatchRecord :=
  outcome.records.filter (·.outcome.isGap)

/-- The number of artifacts that could not be had. -/
def gaps (outcome : RunOutcome) : Nat := outcome.records.countP (·.outcome.isGap)

/-- The number of versions in the range. -/
def versionsConsidered (outcome : RunOutcome) : Nat :=
  outcome.computed.reduction.considered.length

def aliasCount (outcome : RunOutcome) : Nat := outcome.computed.reduction.aliases.size

def slotCount (outcome : RunOutcome) : Nat := outcome.computed.slotGroups.length

def groupCount (outcome : RunOutcome) : Nat := outcome.computed.manifest.groupCount

end RunOutcome

/-- The computation and the dispatch of a run, without the events of the run itself. -/
def runSteps {σ : Type} (memo : Memo σ) (generator : Option (Generator σ)) (corpus : Corpus)
    (config : SlotConfig) (content : σ) : Dispatched σ RunOutcome :=
  let computation := compute corpus config
  match computation.value with
  | .error report => { result := .error report, content, events := computation.events }
  | .ok computed =>
      let dispatch :=
        dispatchGroups memo generator computed.reduction.kept content computed.slotGroups
      { result := dispatch.result.map fun records => ⟨computed, records⟩
        content := dispatch.content
        requests := dispatch.requests
        events := computation.events ++ dispatch.events }

/-- A run over a corpus. Its failure is reported under the run's name. -/
def run {σ : Type} (runId : String) (memo : Memo σ) (generator : Option (Generator σ))
    (corpus : Corpus) (config : SlotConfig) (content : σ) : Dispatched σ RunOutcome :=
  let steps := runSteps memo generator corpus config content
  let logged := Logged.bracket .run
    [("version_count", corpus.size), ("slot_count", config.registry.size)]
    (fun (outcome : RunOutcome) =>
      [("group_count", outcome.groupCount), ("generated", outcome.generated),
        ("gaps", outcome.gaps)])
    ErrorReport.kind
    ⟨steps.events, steps.result.mapError (·.inRun runId)⟩
  { steps with result := logged.value, events := logged.events }

end VersionGroups
