import VersionGroups.Artifact.Memo
import VersionGroups.Event
import VersionGroups.Grouping.Basic

/-!
# Dispatching generation

Every group of every slot should have an artifact, made from the definition that its representative
gives the slot. An artifact that the memo has is left alone, and a generator, which may look at the
memo's content and change it, is asked for the others. An artifact that cannot be had leaves a gap,
which is part of the result; a memo that cannot be written, or a representative without a
definition, ends the dispatch.
-/

namespace VersionGroups

/-- What a generator is asked for. -/
structure GenerationRequest where
  name : String
  slot : String
  version : Version
  spec : Json

/-- The document value of a request, with the fields in the order in which they are told. -/
def GenerationRequest.toJson (request : GenerationRequest) : Json :=
  .obj
    [("name", .str request.name), ("slot", .str request.slot),
      ("version", .num (.int request.version)), ("spec", request.spec)]

/-- Answers a request with the source of an artifact, and may change a state of type `σ` by that. -/
abbrev Generator (σ : Type) := GenerationRequest → σ → Except ErrorReport String × σ

/-- What became of an artifact. -/
inductive Outcome where
  | existing (handle : ArtifactHandle)
  | generated (handle : ArtifactHandle)
  | gap (kind : ErrorKind) (reason : String)
  deriving DecidableEq, Repr

namespace Outcome

/-- The gap that a failure leaves. -/
def ofFailure (report : ErrorReport) : Outcome := .gap report.kind report.text

def isExisting : Outcome → Bool
  | .existing _ => true
  | _ => false

def isGenerated : Outcome → Bool
  | .generated _ => true
  | _ => false

def isGap : Outcome → Bool
  | .gap .. => true
  | _ => false

end Outcome

/-- An artifact and what became of it. -/
structure DispatchRecord where
  key : ArtifactKey
  outcome : Outcome
  deriving DecidableEq, Repr

/-- The event of a record; only a gap has one. -/
def DispatchRecord.events (record : DispatchRecord) : List Event :=
  match record.outcome with
  | .gap kind reason => [.gap record.key.slot.label record.key.version kind reason]
  | _ => []

/-- A result with the memo's content after it, and the requests and events on the way. -/
structure Dispatched (σ α : Type) where
  result : Except ErrorReport α
  content : σ
  requests : List GenerationRequest := []
  events : List Event := []

/-- The request for an artifact. -/
def requestFor (corpus : Corpus) (key : ArtifactKey) : Except ErrorReport GenerationRequest :=
  let failed (message : String) : ErrorReport :=
    { kind := .internal, slot := some key.slot.label, version := some key.version,
      message := message }
  match corpus.get? key.version with
  | none => .error (failed "representative is not part of the corpus")
  | some document =>
      match (View.mk key.version document).slotSpec? key.slot with
      | .error fault => .error (.ofFault fault)
      | .ok none => .error (failed "representative does not define the slot")
      | .ok (some spec) => .ok ⟨key.slot.name, key.slot.label, key.version, spec⟩

namespace Generator

/-- The generator that answers by a function and changes nothing. -/
def ofFunction {σ : Type} (answer : GenerationRequest → Except ErrorReport String) : Generator σ :=
  fun request state => (answer request, state)

/-- The generator on the second part of a state. -/
def onSecond {σ τ : Type} (generator : Generator τ) : Generator (σ × τ) :=
  fun request (first, second) =>
    let (answer, second) := generator request second
    (answer, (first, second))

/-- An answer with a source that is blank is a failure. -/
def checked (request : GenerationRequest) (answer : Except ErrorReport String) :
    Except ErrorReport String :=
  match answer with
  | .error report => .error report
  | .ok source =>
      if isBlankText source then
        .error (.ofFault (.generationFailed request.slot request.version
          "generator returned an empty response"))
      else .ok source

/-- The source that a generator gives for a request, and the state after that. -/
def source {σ : Type} (generator : Generator σ) (request : GenerationRequest) (state : σ) :
    Except ErrorReport String × σ :=
  let (answer, state) := generator request state
  (checked request answer, state)

end Generator

/-- Sees to it that an artifact exists. -/
def dispatchKey {σ : Type} (memo : Memo σ) (generator : Option (Generator σ)) (corpus : Corpus)
    (content : σ) (key : ArtifactKey) : Dispatched σ Outcome :=
  match memo.lookup content key with
  | some handle => { result := .ok (.existing handle), content }
  | none =>
      match generator with
      | none =>
          let unavailable := Fault.generationUnavailable key.slot.label key.version
          { result := .ok (.ofFailure (.ofFault unavailable)), content }
      | some generator =>
          match requestFor corpus key with
          | .error report => { result := .error report, content }
          | .ok request =>
              match generator.source request content with
              | (.error report, content) =>
                  { result := .ok (.ofFailure report), content, requests := [request] }
              | (.ok source, content) =>
                  match memo.record content key source with
                  | (.ok handle, content) =>
                      { result := .ok (.generated handle), content, requests := [request] }
                  | (.error report, content) =>
                      { result := .error report, content, requests := [request] }

/-- Sees to it that artifacts exist, in turn; the first failure ends it. -/
def dispatchKeys {σ : Type} (memo : Memo σ) (generator : Option (Generator σ)) (corpus : Corpus)
    (content : σ) : List ArtifactKey → Dispatched σ (List DispatchRecord)
  | [] => { result := .ok [], content }
  | key :: rest =>
      let first := dispatchKey memo generator corpus content key
      match first.result with
      | .error report =>
          { result := .error report, content := first.content, requests := first.requests }
      | .ok outcome =>
          let others := dispatchKeys memo generator corpus first.content rest
          { result := others.result.map (⟨key, outcome⟩ :: ·)
            content := others.content
            requests := first.requests ++ others.requests
            events := DispatchRecord.events ⟨key, outcome⟩ ++ others.events }

/-- The artifacts that the groups of a slot need. -/
def SlotGroups.artifactKeys (groups : SlotGroups) : List ArtifactKey :=
  groups.groups.map fun g => ⟨groups.slot, g.representative⟩

/-- Sees to it that the groups of slots have their artifacts. -/
def dispatchGroups {σ : Type} (memo : Memo σ) (generator : Option (Generator σ)) (corpus : Corpus)
    (content : σ) (slotGroups : List SlotGroups) : Dispatched σ (List DispatchRecord) :=
  dispatchKeys memo generator corpus content (slotGroups.flatMap SlotGroups.artifactKeys)

end VersionGroups
