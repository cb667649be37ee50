import VersionGroups.Proofs.Artifact.Dispatch
import VersionGroups.Proofs.Manifest.Growth
import VersionGroups.Run

/-!
# What a run reports

A run does nothing unless the manifest can be computed. If it can, then every representative in the
manifest is a kept version whose document defines the slot, so that each artifact can be asked for
and a run over a table does not fail. Its records follow the manifest, and each of them counts as
generated, as existing or as a gap.
-/
namespace VersionGroups

/-- The artifacts of the groups that a manifest lists. -/
def Manifest.artifactKeys (manifest : Manifest) : List ArtifactKey :=
  manifest.slots.entries.flatMap fun e => e.2.map fun g => ⟨e.1, g.representative⟩

theorem Manifest.length_artifactKeys (manifest : Manifest) :
    manifest.artifactKeys.length = manifest.groupCount := by
  simp [artifactKeys, groupCount, Table.values, List.length_flatMap, List.length_flatten,
    Function.comp_def]

namespace Computed.MadeFrom
variable {corpus : Corpus} {config : SlotConfig} {computed : Computed}

theorem artifactKeys_eq (h : computed.MadeFrom corpus config) :
    computed.artifactKeys = computed.manifest.artifactKeys := by
  have hslots := config.registry.ascending
  rw [← h.slots_eq] at hslots
  have hentries : computed.manifest.slots.entries = computed.slotGroups.map fun entry =>
      (entry.slot, entry.groups.map (·.expand computed.reduction.aliases)) := by
    rw [buildManifest_ok h.built]
    exact Table.entries_ofList (List.pairwise_map.mpr (List.pairwise_map.mp hslots))
  rw [Manifest.artifactKeys, hentries, artifactKeys, List.flatMap_map]
  simp only [Group.expand, List.map_map, Function.comp_def]
  rfl

/-- Every artifact can be asked for, because a representative is kept and defines its slot. -/
theorem requestFor_ok (h : computed.MadeFrom corpus config) {key : ArtifactKey}
    (hkey : key ∈ computed.artifactKeys) :
    ∃ request, requestFor computed.reduction.kept key = .ok request := by
  obtain ⟨entry, hentry, hkey⟩ := List.mem_flatMap.mp hkey
  obtain ⟨group, hgroup, rfl⟩ := List.mem_map.mp hkey
  obtain ⟨slot, -, hok⟩ := exists_of_forall₂ h.grouped.flip hentry
  obtain ⟨groups, rfl, hpart⟩ := partition_of_groupSlot hok
  obtain ⟨g, hg, rfl⟩ := List.mem_map.mp hgroup
  obtain ⟨d, hd, hspec⟩ := hpart.headed g hg
  refine ⟨⟨slot.name, slot.label, g.group.representative, g.head⟩, ?_⟩
  simp only [requestFor, Table.get?_eq_some_iff.mpr hd, hspec]

end Computed.MadeFrom

section
variable {σ : Type} {memo : Memo σ} {generator : Option (Generator σ)} {corpus : Corpus}
  {config : SlotConfig} {content : σ} {runId : String}

theorem run_of_error {report : ErrorReport} (h : (compute corpus config).value = .error report) :
    (run runId memo generator corpus config content).result = .error (report.inRun runId) ∧
      (run runId memo generator corpus config content).content = content ∧
      (run runId memo generator corpus config content).requests = [] := by
  have hsteps : runSteps memo generator corpus config content =
      ⟨.error report, content, [], (compute corpus config).events⟩ := by
    simp only [runSteps, h]
  unfold run
  rw [hsteps]
  exact ⟨rfl, rfl, rfl⟩

/-- A run with a manifest dispatches its artifacts. -/
theorem run_of_ok {computed : Computed} (h : (compute corpus config).value = .ok computed)
    {records : List DispatchRecord} {after : σ} {requests : List GenerationRequest}
    {events : List Event}
    (hdispatch : dispatchKeys memo generator computed.reduction.kept content
      computed.artifactKeys = ⟨.ok records, after, requests, events⟩) :
    (run runId memo generator corpus config content).result = .ok ⟨computed, records⟩ ∧
      (run runId memo generator corpus config content).content = after ∧
      (run runId memo generator corpus config content).requests = requests := by
  have hgroups : dispatchGroups memo generator computed.reduction.kept content
      computed.slotGroups = ⟨.ok records, after, requests, events⟩ := hdispatch
  have hsteps : runSteps memo generator corpus config content =
      ⟨.ok ⟨computed, records⟩, after, requests, (compute corpus config).events ++ events⟩ := by
    simp only [runSteps, h, hgroups]
    rfl
  unfold run
  rw [hsteps]
  exact ⟨rfl, rfl, rfl⟩

theorem result_runSteps_of_run {outcome : RunOutcome}
    (h : (run runId memo generator corpus config content).result = .ok outcome) :
    (runSteps memo generator corpus config content).result = .ok outcome := by
  change (runSteps memo generator corpus config content).result.mapError _ = _ at h
  cases hresult : (runSteps memo generator corpus config content).result with
  | error report =>
      rw [hresult] at h
      cases h
  | ok outcome' =>
      rw [hresult] at h
      exact h

/-- A run that comes to an outcome has computed the manifest of it. -/
theorem compute_of_run {outcome : RunOutcome}
    (h : (run runId memo generator corpus config content).result = .ok outcome) :
    (compute corpus config).value = .ok outcome.computed := by
  have hsteps := result_runSteps_of_run h
  rw [runSteps] at hsteps
  cases hcompute : (compute corpus config).value with
  | error report =>
      rw [hcompute] at hsteps
      cases hsteps
  | ok computed =>
      rw [hcompute] at hsteps
      obtain ⟨records, -, rfl⟩ := map_eq_ok.mp hsteps
      rfl

/-- What recording an artifact and generating a source keep, a run keeps. -/
theorem run_keeps (keeps : σ → Prop)
    (hrecord : ∀ content key source, keeps content → keeps (memo.record content key source).2)
    (hgenerator : ∀ g ∈ generator, ∀ request content, keeps content → keeps (g request content).2)
    (h : keeps content) : keeps (run runId memo generator corpus config content).content := by
  change keeps (runSteps memo generator corpus config content).content
  rw [runSteps]
  cases (compute corpus config).value with
  | error report => exact h
  | ok computed => exact dispatchKeys_keeps keeps hrecord hgenerator h

end

/-- A run over a table that has a manifest succeeds. It has one record for each artifact of the
manifest, in turn, and does one thing about every artifact. -/
theorem run_table (runId : String)
    (answer? : Option (GenerationRequest → Except ErrorReport String)) {corpus : Corpus}
    {config : SlotConfig} (table : ArtifactTable) {computed : Computed}
    (h : (compute corpus config).value = .ok computed) :
    ∃ records after requests,
      (run runId ArtifactTable.memo (answer?.map .ofFunction) corpus config table).result =
          .ok ⟨computed, records⟩ ∧
        (run runId ArtifactTable.memo (answer?.map .ofFunction) corpus config table).content =
          after ∧
        (run runId ArtifactTable.memo (answer?.map .ofFunction) corpus config table).requests =
          requests ∧
        records.map (·.key) = computed.artifactKeys ∧
        ∀ key, Effect answer? key (table.get? key) (outcomesOf key records) (after.get? key)
          (requests.filter (·.isFor key)) := by
  have hmade := madeFrom_of_compute h
  obtain ⟨records, after, requests, events, hdispatch, hkeys, heffect⟩ :=
    dispatchKeys_table answer? hmade.artifactKeys_nodup (fun _ => hmade.requestFor_ok) table
  obtain ⟨hresult, hcontent, hrequests⟩ := run_of_ok h hdispatch
  exact ⟨records, after, requests, hresult, hcontent, hrequests, hkeys, heffect⟩

theorem RunOutcome.counts_add (outcome : RunOutcome) :
    outcome.generated + outcome.existing + outcome.gaps = outcome.records.length := by
  rw [generated, existing, gaps]
  induction outcome.records with
  | nil => rfl
  | cons record rest ih =>
      have hone : (if record.outcome.isGenerated = true then 1 else 0) +
          (if record.outcome.isExisting = true then 1 else 0) +
          (if record.outcome.isGap = true then 1 else 0) = 1 := by
        cases record.outcome <;> rfl
      simp only [List.countP_cons, List.length_cons]
      omega

/-- A run over a table fails exactly if the manifest cannot be computed, and for the same reason.
Then nothing was asked for and the table is as it was. Otherwise the run reports the computed
manifest with one record for each representative of each slot, in the order of the manifest, which
is that of slots and then of versions, and its counts add up to the number of groups. -/
theorem run_follows_compute (runId : String)
    (answer? : Option (GenerationRequest → Except ErrorReport String)) (corpus : Corpus)
    (config : SlotConfig) (table : ArtifactTable) :
    let outcome := run runId ArtifactTable.memo (answer?.map .ofFunction) corpus config table
    ((∃ report, outcome.result = .error report) ↔
        ∃ report, (compute corpus config).value = .error report) ∧
      (∀ report, (compute corpus config).value = .error report →
        outcome.result = .error (report.inRun runId) ∧ outcome.content = table ∧
          outcome.requests = []) ∧
      ∀ computed, (compute corpus config).value = .ok computed →
        ∃ reported : RunOutcome, outcome.result = .ok reported ∧ reported.computed = computed ∧
          reported.records.map (·.key) = computed.manifest.artifactKeys ∧
          computed.manifest.artifactKeys.Pairwise (fun a b => compare a b = .lt) ∧
          reported.generated + reported.existing + reported.gaps = reported.records.length ∧
          reported.records.length = reported.groupCount ∧
          reported.groupCount = computed.manifest.groupCount := by
  intro outcome
  refine ⟨?_, fun report h => run_of_error h, ?_⟩
  · constructor
    · rintro ⟨report, hreport⟩
      cases h : (compute corpus config).value with
      | error report' => exact ⟨report', rfl⟩
      | ok computed =>
          obtain ⟨records, after, requests, hresult, -⟩ := run_table runId answer? table h
          cases hresult.symm.trans hreport
    · rintro ⟨report, h⟩
      exact ⟨report.inRun runId, (run_of_error h).1⟩
  · intro computed h
    have hmade := madeFrom_of_compute h
    obtain ⟨records, after, requests, hresult, -, -, hkeys, -⟩ := run_table runId answer? table h
    rw [hmade.artifactKeys_eq] at hkeys
    refine ⟨⟨computed, records⟩, hresult, rfl, hkeys, ?_, RunOutcome.counts_add _, ?_, rfl⟩
    · exact hmade.artifactKeys_eq ▸ hmade.artifactKeys_ascending
    · rw [RunOutcome.groupCount, ← Manifest.length_artifactKeys, ← hkeys, List.length_map]

end VersionGroups
