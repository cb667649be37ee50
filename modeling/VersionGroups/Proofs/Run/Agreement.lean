import VersionGroups.Proofs.Run.Refusal

/-!
# Runs over a directory and over a table

A run over a directory of artifacts does what a run over a table does that the directory reflects:
the same requests in the same order, and the same records but for where the artifacts are kept.
Afterwards the directory reflects the table again, so runs in turn agree as long as no access to the
directory is refused.
-/
namespace VersionGroups

/-- An outcome without the place where the artifact is kept. -/
def Outcome.unlocated : Outcome → Outcome
  | .existing handle => .existing ⟨handle.key, ""⟩
  | .generated handle => .generated ⟨handle.key, ""⟩
  | .gap kind reason => .gap kind reason

/-- A record without the place where the artifact is kept. -/
def DispatchRecord.unlocated (record : DispatchRecord) : DispatchRecord :=
  ⟨record.key, record.outcome.unlocated⟩

/-- What a run came to, without the places where artifacts are kept. -/
def RunOutcome.unlocated (outcome : RunOutcome) : RunOutcome :=
  ⟨outcome.computed, outcome.records.map DispatchRecord.unlocated⟩

/-- The result of a run without the name of the run and the places where artifacts are kept. -/
def RunOutcome.unnamed (result : Except ErrorReport RunOutcome) : Except ErrorReport RunOutcome :=
  (result.map RunOutcome.unlocated).mapError (·.inRun "")

/-- A dispatch over a directory and one over a table say the same, up to `erase`, and leave the
directory and the table alike. -/
structure Dispatched.Agrees {α β : Type} (directory : ArtifactDirectory)
    (erase : Except ErrorReport α → β) (dispatch : Dispatched FileTree α)
    (dispatch' : Dispatched ArtifactTable α) : Prop where
  result : erase dispatch.result = erase dispatch'.result
  requests : dispatch.requests = dispatch'.requests
  events : dispatch.events = dispatch'.events
  content : directory.Reflects dispatch.content dispatch'.content

theorem DispatchRecord.events_unlocated (record : DispatchRecord) :
    record.unlocated.events = record.events := by
  obtain ⟨key, outcome⟩ := record
  cases outcome <;> rfl

/-- Dispatches that agree fail alike or have results that differ in what is erased. -/
theorem Dispatched.Agrees.cases {α β : Type} {directory : ArtifactDirectory} {erase : α → β}
    {dispatch : Dispatched FileTree α} {dispatch' : Dispatched ArtifactTable α}
    (h : Dispatched.Agrees directory (Except.map erase) dispatch dispatch') :
    (∃ report, dispatch.result = .error report ∧ dispatch'.result = .error report) ∨
      ∃ a a', dispatch.result = .ok a ∧ dispatch'.result = .ok a' ∧ erase a = erase a' := by
  have hsame := h.result
  cases hresult : dispatch.result <;> cases hresult' : dispatch'.result <;>
    rw [hresult, hresult'] at hsame
  · exact .inl ⟨_, rfl, congrArg _ (Except.error.inj hsame).symm⟩
  · cases hsame
  · cases hsame
  · exact .inr ⟨_, _, rfl, rfl, Except.ok.inj hsame⟩

namespace RunOutcome
variable {outcome outcome' : RunOutcome}

theorem generated_unlocated (outcome : RunOutcome) :
    outcome.unlocated.generated = outcome.generated := by
  have hsame : (fun record : DispatchRecord => record.outcome.isGenerated) ∘
      DispatchRecord.unlocated = fun record => record.outcome.isGenerated := by
    funext record
    obtain ⟨key, outcome⟩ := record
    cases outcome <;> rfl
  rw [generated, generated, unlocated, List.countP_map, hsame]

theorem gaps_unlocated (outcome : RunOutcome) : outcome.unlocated.gaps = outcome.gaps := by
  have hsame : (fun record : DispatchRecord => record.outcome.isGap) ∘
      DispatchRecord.unlocated = fun record => record.outcome.isGap := by
    funext record
    obtain ⟨key, outcome⟩ := record
    cases outcome <;> rfl
  rw [gaps, gaps, unlocated, List.countP_map, hsame]

end RunOutcome

section
variable {directory : ArtifactDirectory} {tree : FileTree} {table : ArtifactTable}
  (answer? : Option (GenerationRequest → Except ErrorReport String)) (corpus : Corpus)
  {key : ArtifactKey}

theorem ArtifactDirectory.Reflects.dispatchKey_agrees (h : directory.Reflects tree table)
    (hnamed : key.slot.IsNamed) :
    (dispatchKey directory.memo (answer?.map .ofFunction) corpus tree key).IsRefused ∨
      Dispatched.Agrees directory (Except.map Outcome.unlocated)
        (dispatchKey directory.memo (answer?.map .ofFunction) corpus tree key)
        (dispatchKey ArtifactTable.memo (answer?.map .ofFunction) corpus table key) := by
  cases hkey : table.get? key with
  | some source =>
      have hlookup : directory.memo.lookup tree key = some (directory.handle key) :=
        if_pos ((h.isFile_iff hnamed).mpr ⟨source, hkey⟩)
      rw [dispatchKey_existing _ hlookup, dispatchKey_existing _ (ArtifactTable.lookup_some hkey)]
      exact .inr ⟨rfl, rfl, rfl, h⟩
  | none =>
      have hlookup : directory.memo.lookup tree key = none := by
        refine if_neg fun hfile => ?_
        obtain ⟨source, hsource⟩ := (h.isFile_iff hnamed).mp hfile
        cases hsource.symm.trans hkey
      have hlookup' := ArtifactTable.lookup_none hkey
      cases answer? with
      | none =>
          rw [Option.map_none, Option.map_none, dispatchKey_unavailable hlookup,
            dispatchKey_unavailable hlookup']
          exact .inr ⟨rfl, rfl, rfl, h⟩
      | some answer =>
          rw [Option.map_some, Option.map_some]
          cases hrequest : requestFor corpus key with
          | error report =>
              rw [dispatchKey_unaskable hlookup _ hrequest,
                dispatchKey_unaskable hlookup' _ hrequest]
              exact .inr ⟨rfl, rfl, rfl, h⟩
          | ok request =>
              cases hanswer : Generator.checked request (answer request) with
              | error report =>
                  have hsource := Generator.source_ofFunction tree hanswer
                  have hsource' := Generator.source_ofFunction table hanswer
                  rw [dispatchKey_failed hlookup hrequest hsource,
                    dispatchKey_failed hlookup' hrequest hsource']
                  exact .inr ⟨rfl, rfl, rfl, h⟩
              | ok source =>
                  have hsource := Generator.source_ofFunction tree hanswer
                  have hsource' := Generator.source_ofFunction table hanswer
                  rw [dispatchKey_recorded hlookup hrequest hsource,
                    dispatchKey_recorded hlookup' hrequest hsource']
                  have hrecord : directory.memo.record tree key source =
                      directory.store tree key source := rfl
                  rw [hrecord]
                  rcases h.store hnamed hkey source with
                    ⟨report, tree', hstore, hio⟩ | ⟨tree', hstore, hreflects⟩
                  · rw [hstore]
                    exact .inl ⟨report, rfl, hio⟩
                  · rw [hstore]
                    exact .inr ⟨rfl, rfl, rfl, hreflects⟩

/-- A dispatch over a directory does what it does over the table, until it is refused. -/
theorem ArtifactDirectory.Reflects.dispatchKeys_agrees (h : directory.Reflects tree table)
    {keys : List ArtifactKey} (hnamed : ∀ key ∈ keys, key.slot.IsNamed) :
    (dispatchKeys directory.memo (answer?.map .ofFunction) corpus tree keys).IsRefused ∨
      Dispatched.Agrees directory (Except.map (List.map DispatchRecord.unlocated))
        (dispatchKeys directory.memo (answer?.map .ofFunction) corpus tree keys)
        (dispatchKeys ArtifactTable.memo (answer?.map .ofFunction) corpus table keys) := by
  induction keys generalizing tree table with
  | nil => exact .inr ⟨rfl, rfl, rfl, h⟩
  | cons key rest ih =>
      obtain ⟨hkey, hrest⟩ := List.forall_mem_cons.mp hnamed
      rcases h.dispatchKey_agrees answer? corpus hkey with
        ⟨report, hresult, hio⟩ | hfirst
      · rw [dispatchKeys_of_error hresult]
        exact .inl ⟨report, rfl, hio⟩
      · rcases hfirst.cases with
          ⟨report, hresult, hresult'⟩ | ⟨outcome, outcome', hresult, hresult', hsame⟩
        · rw [dispatchKeys_of_error hresult, dispatchKeys_of_error hresult']
          exact .inr ⟨rfl, hfirst.requests, rfl, hfirst.content⟩
        · have hrecord : DispatchRecord.unlocated ⟨key, outcome⟩ =
              DispatchRecord.unlocated ⟨key, outcome'⟩ :=
            congrArg (DispatchRecord.mk key) hsame
          rw [dispatchKeys_of_ok hresult, dispatchKeys_of_ok hresult']
          rcases ih hfirst.content hrest with ⟨report, hfailed, hio⟩ | hothers
          · refine .inl ⟨report, ?_, hio⟩
            simp only [hfailed]
            rfl
          · refine .inr ⟨?_, ?_, ?_, hothers.content⟩
            · rcases hothers.cases with
                ⟨report, hfailed, hfailed'⟩ | ⟨records, records', hrest, hrest', hsames⟩
              · simp only [hfailed, hfailed']
                rfl
              · simp only [hrest, hrest']
                exact congrArg Except.ok (congrArg₂ List.cons hrecord hsames)
            · exact congrArg₂ (· ++ ·) hfirst.requests hothers.requests
            · refine congrArg₂ (· ++ ·) ?_ hothers.events
              rw [← DispatchRecord.events_unlocated, hrecord, DispatchRecord.events_unlocated]

/-- The steps of a run over a directory are those over the table, unless they are refused. -/
theorem ArtifactDirectory.Reflects.runSteps_agrees (h : directory.Reflects tree table)
    {config : SlotConfig} (hnamed : ∀ slot ∈ config.registry.slots, slot.IsNamed) :
    (runSteps directory.memo (answer?.map .ofFunction) corpus config tree).IsRefused ∨
      Dispatched.Agrees directory (Except.map RunOutcome.unlocated)
        (runSteps directory.memo (answer?.map .ofFunction) corpus config tree)
        (runSteps ArtifactTable.memo (answer?.map .ofFunction) corpus config table) := by
  unfold runSteps
  cases hcompute : (compute corpus config).value with
  | error report =>
      simp only [hcompute]
      exact .inr ⟨rfl, rfl, rfl, h⟩
  | ok computed =>
      have hkeys : ∀ key ∈ computed.artifactKeys, key.slot.IsNamed := fun key hkey =>
        hnamed key.slot ((madeFrom_of_compute hcompute).mem_artifactKeys.mp hkey).1
      have hgroups {σ : Type} (memo : Memo σ) (generator : Option (Generator σ)) (content : σ) :
          dispatchGroups memo generator computed.reduction.kept content computed.slotGroups =
            dispatchKeys memo generator computed.reduction.kept content computed.artifactKeys := rfl
      simp only [hcompute, hgroups]
      rcases h.dispatchKeys_agrees answer? computed.reduction.kept hkeys with
        ⟨report, hfailed, hio⟩ | hagrees
      · refine .inl ⟨report, ?_, hio⟩
        simp only [hfailed]
        rfl
      · refine .inr ⟨?_, hagrees.requests, congrArg (_ ++ ·) hagrees.events, hagrees.content⟩
        rcases hagrees.cases with
          ⟨report, hfailed, hfailed'⟩ | ⟨records, records', hrecords, hrecords', hsame⟩
        · simp only [hfailed, hfailed']
        · simp only [hrecords, hrecords']
          exact congrArg (fun records => Except.ok (RunOutcome.mk computed records)) hsame

/-- A run over a directory does what it does over the table, unless it is refused an access. -/
theorem ArtifactDirectory.Reflects.run_agrees (h : directory.Reflects tree table)
    {config : SlotConfig} (hnamed : ∀ slot ∈ config.registry.slots, slot.IsNamed)
    (runId runId' : String) :
    (run runId directory.memo (answer?.map .ofFunction) corpus config tree).IsRefused ∨
      Dispatched.Agrees directory RunOutcome.unnamed
        (run runId directory.memo (answer?.map .ofFunction) corpus config tree)
        (run runId' ArtifactTable.memo (answer?.map .ofFunction) corpus config table) := by
  rcases h.runSteps_agrees answer? corpus hnamed with ⟨report, hfailed, hio⟩ | hsteps
  · refine .inl ⟨report.inRun runId, ?_, hio⟩
    simp only [run, Logged.bracket, hfailed]
    rfl
  · refine .inr ⟨?_, hsteps.requests, ?_, hsteps.content⟩
    · rcases hsteps.cases with
        ⟨report, hfailed, hfailed'⟩ | ⟨outcome, outcome', houtcome, houtcome', hsame⟩
      · simp only [run, Logged.bracket, hfailed, hfailed']
        rfl
      · simp only [run, Logged.bracket, houtcome, houtcome']
        exact congrArg Except.ok hsame
    · rcases hsteps.cases with
        ⟨report, hfailed, hfailed'⟩ | ⟨outcome, outcome', houtcome, houtcome', hsame⟩
      · simp only [run, Logged.bracket, hfailed, hfailed', hsteps.events]
        rfl
      · simp only [run, Logged.bracket, houtcome, houtcome', hsteps.events, Except.mapError]
        have hgenerated : outcome.generated = outcome'.generated := by
          rw [← outcome.generated_unlocated, hsame, outcome'.generated_unlocated]
        have hgaps : outcome.gaps = outcome'.gaps := by
          rw [← outcome.gaps_unlocated, hsame, outcome'.gaps_unlocated]
        have hgroups : outcome.groupCount = outcome'.groupCount :=
          congrArg (fun outcome => outcome.computed.manifest.groupCount) hsame
        rw [hgenerated, hgaps, hgroups]

end

/-- Two runs have the same inputs, but for their names. -/
structure RunCall.Repeats (call call' : RunCall) : Prop where
  corpus : call.corpus = call'.corpus
  config : call.config = call'.config
  answer? : call.answer? = call'.answer?

/-- Runs in turn over a directory do what they do over the table that it reflects. -/
theorem ArtifactDirectory.Reflects.histories_agree {directory : ArtifactDirectory} {tree : FileTree}
    {table : ArtifactTable} (h : directory.Reflects tree table) {calls calls' : List RunCall}
    (hcalls : List.Forall₂ RunCall.Repeats calls calls')
    (hnamed : ∀ call ∈ calls, ∀ slot ∈ call.config.registry.slots, slot.IsNamed)
    (hallowed : ∀ run ∈ historyIn directory tree calls, ¬run.IsRefused) :
    List.Forall₂ (Dispatched.Agrees directory RunOutcome.unnamed)
      (historyIn directory tree calls) (history table calls') := by
  induction hcalls generalizing tree table with
  | nil => exact .nil
  | @cons call call' rest rest' hcall _ ih =>
      obtain ⟨hfirst, hrest⟩ := List.forall_mem_cons.mp hnamed
      obtain ⟨hallowed, hlater⟩ := List.forall_mem_cons.mp hallowed
      obtain ⟨runId', corpus', config', answer'⟩ := call'
      obtain ⟨rfl, rfl, rfl⟩ := hcall
      rcases h.run_agrees call.answer? call.corpus hfirst call.runId runId' with
        hrefused | hagrees
      · exact absurd hrefused hallowed
      · exact .cons hagrees (ih hagrees.content hrest hlater)

/-- Runs in turn over a directory without files agree with those over an empty table, as long as
none is refused an access: they have the same results, but for the names of runs and the places of
artifacts, and make the same requests. After each of them the files in the directory are those of
the table's artifacts, with the sources as their text. -/
theorem history_agrees {directory : ArtifactDirectory} {tree : FileTree}
    {calls calls' : List RunCall} (hcalls : List.Forall₂ RunCall.Repeats calls calls')
    (hnamed : ∀ call ∈ calls, ∀ slot ∈ call.config.registry.slots, slot.IsNamed)
    (hempty : ∀ location bytes, tree.entry? location = some (.file bytes) →
      FileTree.isWithin (Path.location directory.path) location = false)
    (hallowed : ∀ run ∈ historyIn directory tree calls, ¬run.IsRefused) :
    List.Forall₂ (Dispatched.Agrees directory RunOutcome.unnamed)
      (historyIn directory tree calls) (history Table.empty calls') :=
  (ArtifactDirectory.Reflects.empty hempty).histories_agree hcalls hnamed hallowed

/-- Three runs of which only the second one has a generator are not refused, and agree with runs of
other names over a table. -/
theorem history_agrees_pings :
    (∀ run ∈ historyIn ⟨"generated"⟩ FileTree.empty pingCalls, ¬run.IsRefused) ∧
      List.Forall₂ (Dispatched.Agrees ⟨"generated"⟩ RunOutcome.unnamed)
        (historyIn ⟨"generated"⟩ FileTree.empty pingCalls)
        (history Table.empty (pingCalls.map fun call => { call with runId := "again" })) := by
  have hclear := ArtifactDirectory.isClear_empty ⟨"generated"⟩
  have hconfig : ∀ call ∈ pingCalls, call.config = pingConfig ∧ call.corpus = pingCorpus := by
    simp [pingCalls, pingCall]
  have hnamed : ∀ call ∈ pingCalls, ∀ slot ∈ call.config.registry.slots, slot.IsNamed := by
    intro call hcall
    rw [(hconfig call hcall).1]
    decide
  have hallowed : ∀ run ∈ historyIn ⟨"generated"⟩ FileTree.empty pingCalls, ¬run.IsRefused := by
    refine history_not_refused hclear (by decide +kernel) (fun call hcall => ?_) hnamed
      fun call hcall => ?_
    · exact ⟨_, _, (hconfig call hcall).1 ▸ ofText_packetConfigText⟩
    · have hfits : (pingCall none).Fits ⟨"generated"⟩ := by decide +kernel
      rw [RunCall.Fits, (hconfig call hcall).1, (hconfig call hcall).2]
      exact hfits
  have hcalls : List.Forall₂ RunCall.Repeats pingCalls
      (pingCalls.map fun call => { call with runId := "again" }) :=
    List.forall₂_map_right_iff.mpr (List.forall₂_same.mpr fun _ _ => ⟨rfl, rfl, rfl⟩)
  exact ⟨hallowed, history_agrees hcalls hnamed (fun _ _ => hclear.no_files) hallowed⟩

end VersionGroups
