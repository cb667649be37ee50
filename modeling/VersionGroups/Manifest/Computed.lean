import VersionGroups.Config.Basic
import VersionGroups.Event
import VersionGroups.Manifest.Digest
import VersionGroups.Manifest.Render

/-!
# The computed manifest

A corpus and a configuration determine a manifest: the corpus is reduced to the configured range,
every slot is grouped over what is kept, and the groups are laid out as text. A failure that tells
of a broken corpus ends the grouping at once. Other failures of slots are collected, so that one
report names them all.
-/

namespace VersionGroups

/-- A manifest with what it was made from, its text and the digest of the text. -/
structure Computed where
  reduction : Reduction
  slotGroups : List SlotGroups
  manifest : Manifest
  text : String
  digest : String

/-- A fault as a report, without more context. -/
def reported {α : Type} (result : Except Fault α) : Except ErrorReport α :=
  result.mapError .ofFault

/-- Reduces a corpus and logs it. -/
def reduceLogged (corpus : Corpus) (range : VersionRange) : Logged (Except Fault Reduction) :=
  Logged.bracket .deduplication [("version_count", corpus.size)]
    (fun reduction =>
      [("version_count", reduction.kept.size), ("alias_count", reduction.aliases.size)])
    (fun fault => (ErrorReport.ofFault fault).kind) (.silent (reduce corpus range))

/-- Groups a slot and logs it. -/
def groupSlotLogged (corpus : Corpus) (relation : Relation) (slot : Slot) :
    Logged (Except Fault SlotGroups) :=
  Logged.bracket (.grouping slot.label) []
    (fun groups => [("group_count", groups.groups.length)])
    (fun fault => (ErrorReport.ofFault fault).kind) (.silent (groupSlot corpus relation slot))

/-- The report on a slot that cannot be grouped. -/
def slotReport (slot : Slot) (fault : Fault) : ErrorReport :=
  ((ErrorReport.ofFault fault).within "group_slot").about slot.label

/-- The report that collects the failures of slots. -/
def slotFailures (failures : List ErrorReport) : ErrorReport :=
  { kind := .slotFailures, operation := some "compute_manifest",
    message := s!"{failures.length} slot(s) failed to group", failures := failures }

/-- What grouping every slot came to: the first failure that tells of a broken corpus, or the groups
and the other failures. -/
def groupEach (corpus : Corpus) (relation : Relation) :
    List Slot → Logged (Except ErrorReport (List SlotGroups × List ErrorReport))
  | [] => .silent (.ok ([], []))
  | slot :: rest =>
      (groupSlotLogged corpus relation slot).next fun result =>
        match result with
        | .ok groups =>
            (groupEach corpus relation rest).thenTry fun others =>
              .silent (.ok (groups :: others.1, others.2))
        | .error fault =>
            let report := slotReport slot fault
            if report.kind.isCorpusFatal then .silent (.error report)
            else
              (groupEach corpus relation rest).thenTry fun others =>
                .silent (.ok (others.1, report :: others.2))

/-- The groups of every slot. -/
def groupSlots (corpus : Corpus) (relation : Relation) (slots : List Slot) :
    Logged (Except ErrorReport (List SlotGroups)) :=
  (groupEach corpus relation slots).thenTry fun result =>
    if result.2.isEmpty then .silent (.ok result.1)
    else .silent (.error (slotFailures result.2))

/-- The manifest of the groups of slots over a reduced corpus. -/
def Computed.ofGroups (reduction : Reduction) (slotGroups : List SlotGroups) :
    Except ErrorReport Computed := do
  let manifest ← reported (buildManifest reduction slotGroups)
  let text ← reported manifest.render
  return ⟨reduction, slotGroups, manifest, text, Digest.ofText text⟩

/-- The manifest of a corpus under a relation that may depend on the reduced corpus. -/
def computeWith (relation : Corpus → Relation) (corpus : Corpus) (config : SlotConfig) :
    Logged (Except ErrorReport Computed) :=
  (reduceLogged corpus config.range).next fun result =>
    match result with
    | .error fault => .silent (.error (.ofFault fault))
    | .ok reduction =>
        (groupSlots reduction.kept (relation reduction.kept) config.registry.slots).thenTry
          fun slotGroups => .silent (Computed.ofGroups reduction slotGroups)

/-- The manifest of a corpus under structural equivalence. -/
def compute (corpus : Corpus) (config : SlotConfig) : Logged (Except ErrorReport Computed) :=
  computeWith (fun kept => Equivalence.structural kept config.registry.types) corpus config

/-- Whether a manifest on file is the one that the inputs determine. -/
inductive ManifestStatus where
  | upToDate (digest : String)
  | stale (expected : String) (found : Option String)
  deriving DecidableEq, Repr

/-- Compares the text of a manifest on file, if there is one, with a computed manifest. -/
def Computed.status (computed : Computed) (text : Option String) : ManifestStatus :=
  let found := text.map Digest.ofText
  if found = some computed.digest then .upToDate computed.digest
  else .stale computed.digest found

/-- The event of a comparison; only a stale manifest has one. -/
def ManifestStatus.events : ManifestStatus → List Event
  | .upToDate _ => []
  | .stale expected found => [.manifestStale expected found]

/-- Checks the text of a manifest on file, if there is one, against the inputs. -/
def checkManifest (corpus : Corpus) (config : SlotConfig) (text : Option String) :
    Logged (Except ErrorReport ManifestStatus) :=
  (compute corpus config).thenTry fun computed =>
    let status := computed.status text
    ⟨status.events, .ok status⟩

end VersionGroups
