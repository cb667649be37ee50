import VersionGroups.Proofs.Run.Report

/-!
# Histories of runs

Runs in turn share one table of artifacts, each with inputs and a generator of its own. The only
thing that a run can do about an artifact that the table has is to find it there, so a source that
is in the table stays as it is and is never asked for again. An artifact that the table lacks is
either still missing after a run, which reports a gap if it reports anything, or it was generated.
-/
namespace VersionGroups

/-- The inputs of one run. -/
structure RunCall where
  runId : String
  corpus : Corpus
  config : SlotConfig
  answer? : Option (GenerationRequest → Except ErrorReport String)

/-- The run with these inputs over a table of artifacts. -/
def RunCall.run (call : RunCall) (table : ArtifactTable) : Dispatched ArtifactTable RunOutcome :=
  VersionGroups.run call.runId ArtifactTable.memo (call.answer?.map .ofFunction) call.corpus
    call.config table

/-- Runs in turn, each over the table that the run before it has left. -/
def history (table : ArtifactTable) : List RunCall → List (Dispatched ArtifactTable RunOutcome)
  | [] => []
  | call :: rest => call.run table :: history (call.run table).content rest

namespace Dispatched

/-- The outcomes that a run reports for an artifact; a run that fails reports none. -/
def outcomes (run : Dispatched ArtifactTable RunOutcome) (key : ArtifactKey) : List Outcome :=
  match run.result with
  | .ok outcome => outcomesOf key outcome.records
  | .error _ => []

/-- A run reports that it has generated an artifact. -/
def Generates (run : Dispatched ArtifactTable RunOutcome) (key : ArtifactKey) : Prop :=
  ∃ outcome ∈ run.outcomes key, outcome.isGenerated = true

/-- A run leaves an artifact alone that has a source. -/
structure LeavesAlone (run : Dispatched ArtifactTable RunOutcome) (key : ArtifactKey)
    (source : String) : Prop where
  reported : ∀ outcome ∈ run.outcomes key, outcome.isExisting = true
  unasked : ∀ request ∈ run.requests, request.isFor key = false
  kept : run.content.get? key = some source

/-- A run does not bring an artifact about. -/
structure LeavesGap (run : Dispatched ArtifactTable RunOutcome) (key : ArtifactKey) : Prop where
  reported : ∀ outcome ∈ run.outcomes key, outcome.isGap = true
  missing : run.content.get? key = none

/-- A run adds an artifact: it reports this once, after one request for it, and the table has the
answer, which is not blank. -/
structure Adds (run : Dispatched ArtifactTable RunOutcome) (call : RunCall) (key : ArtifactKey)
    (source : String) : Prop where
  reported : run.outcomes key = [.generated (ArtifactTable.handle key)]
  answered : ∃ answer request, call.answer? = some answer ∧
    run.requests.filter (·.isFor key) = [request] ∧ answer request = .ok source
  filled : isBlankText source = false
  kept : run.content.get? key = some source

end Dispatched

/-- Of some runs with their inputs, the one at a position adds an artifact. The runs before it leave
the artifact missing, and the runs after it leave it alone. -/
structure AddedAt (calls : List RunCall) (runs : List (Dispatched ArtifactTable RunOutcome))
    (key : ArtifactKey) (i : Nat) (source : String) : Prop where
  added : ∃ call run, calls[i]? = some call ∧ runs[i]? = some run ∧ run.Adds call key source
  before : ∀ j run, j < i → runs[j]? = some run → run.LeavesGap key
  after : ∀ j run, i < j → runs[j]? = some run → run.LeavesAlone key source

section
variable {calls : List RunCall} {table : ArtifactTable} {key : ArtifactKey}
  {source : String} {run : Dispatched ArtifactTable RunOutcome}

/-- Every run does one thing about every artifact. -/
theorem RunCall.effect (call : RunCall) (table : ArtifactTable) (key : ArtifactKey) :
    Effect call.answer? key (table.get? key) ((call.run table).outcomes key)
      ((call.run table).content.get? key) ((call.run table).requests.filter (·.isFor key)) := by
  cases h : (compute call.corpus call.config).value with
  | error report =>
      obtain ⟨hresult, hcontent, hrequests⟩ :
          (call.run table).result = .error (report.inRun call.runId) ∧
            (call.run table).content = table ∧ (call.run table).requests = [] :=
        run_of_error h
      rw [Dispatched.outcomes, hresult, hcontent, hrequests]
      exact .untouched _
  | ok computed =>
      obtain ⟨records, after, requests, hresult, hcontent, hrequests, -, heffect⟩ :=
        run_table call.runId call.answer? table h
      rw [Dispatched.outcomes, RunCall.run, hresult, hcontent, hrequests]
      exact heffect key

theorem RunCall.leavesAlone (call : RunCall) (h : table.get? key = some source) :
    (call.run table).LeavesAlone key source := by
  obtain ⟨hreported, hkept, hasked⟩ := (h ▸ call.effect table key).of_some
  refine ⟨hreported, fun request hrequest => ?_, hkept⟩
  exact eq_false_of_ne_true (List.filter_eq_nil_iff.mp hasked request hrequest)

theorem RunCall.adds_or_leavesGap (call : RunCall) (h : table.get? key = none) :
    (call.run table).LeavesGap key ∨ ∃ source, (call.run table).Adds call key source := by
  rcases (h ▸ call.effect table key).of_none with
    ⟨hgaps, hmissing⟩ | ⟨answer, request, source, hanswer, hasked, hok, hfilled, hreported, hkept⟩
  · exact .inl ⟨hgaps, hmissing⟩
  · exact .inr ⟨source, hreported, ⟨answer, request, hanswer, hasked, hok⟩, hfilled, hkept⟩

/-- A run adds a missing artifact of its manifest if its generator has a source for it. -/
theorem RunCall.adds_of_answer (call : RunCall) {computed : Computed}
    {answer : GenerationRequest → Except ErrorReport String}
    (hcompute : (compute call.corpus call.config).value = .ok computed)
    (hkey : key ∈ computed.artifactKeys) (hanswer : call.answer? = some answer)
    (hsource : ∀ request, request.isFor key = true →
      ∃ source, Generator.checked request (answer request) = .ok source)
    (h : table.get? key = none) : ∃ source, (call.run table).Adds call key source := by
  rcases call.adds_or_leavesGap h with hgap | hadds
  · obtain ⟨records, after, requests, hresult, -, -, hkeys, -⟩ :=
      run_table call.runId call.answer? table hcompute
    obtain ⟨record, hrecord, hfor⟩ := List.mem_map.mp (hkeys ▸ hkey)
    have hreached : (call.run table).outcomes key ≠ [] := by
      rw [Dispatched.outcomes, RunCall.run, hresult]
      exact List.ne_nil_of_mem
        (List.mem_map_of_mem (List.mem_filter.mpr ⟨hrecord, decide_eq_true hfor⟩))
    obtain ⟨source, hkept⟩ :=
      (h ▸ call.effect table key).exists_source hreached hanswer hsource
    cases hgap.missing.symm.trans hkept
  · exact hadds

theorem Dispatched.LeavesAlone.not_generates (h : run.LeavesAlone key source) :
    ¬ run.Generates key := by
  rintro ⟨outcome, houtcome, hgenerated⟩
  have hexisting := h.reported outcome houtcome
  cases outcome <;> simp_all [Outcome.isExisting, Outcome.isGenerated]

theorem Dispatched.LeavesGap.not_generates (h : run.LeavesGap key) : ¬ run.Generates key := by
  rintro ⟨outcome, houtcome, hgenerated⟩
  have hgap := h.reported outcome houtcome
  cases outcome <;> simp_all [Outcome.isGap, Outcome.isGenerated]

theorem Dispatched.Adds.generates {call : RunCall} (h : run.Adds call key source) :
    run.Generates key :=
  ⟨_, h.reported ▸ List.mem_cons_self, rfl⟩

theorem leavesAlone_of_mem_history (h : table.get? key = some source)
    (hrun : run ∈ history table calls) : run.LeavesAlone key source := by
  induction calls generalizing table with
  | nil => cases hrun
  | cons call rest ih =>
      have hfirst : (call.run table).LeavesAlone key source := call.leavesAlone h
      rcases List.mem_cons.mp hrun with rfl | hrun
      · exact hfirst
      · exact ih hfirst.kept hrun

/-- A run that generates an artifact is the one that adds it. -/
theorem addedAt_of_generates {i : Nat} (hrun : (history table calls)[i]? = some run)
    (h : run.Generates key) : ∃ source, AddedAt calls (history table calls) key i source := by
  induction calls generalizing table i with
  | nil => cases hrun
  | cons call rest ih =>
      have hlater : ∀ {source}, (call.run table).content.get? key = some source →
          ∀ j after, (history table (call :: rest))[j + 1]? = some after →
            after.LeavesAlone key source :=
        fun hkept j after hafter => leavesAlone_of_mem_history hkept (List.mem_of_getElem? hafter)
      have hmissing : table.get? key = none := by
        refine Option.eq_none_iff_forall_ne_some.mpr fun source hsource => ?_
        exact (leavesAlone_of_mem_history hsource (List.mem_of_getElem? hrun)).not_generates h
      rcases call.adds_or_leavesGap hmissing with hgap | ⟨source, hadds⟩
      · cases i with
        | zero =>
            obtain rfl : call.run table = run := Option.some.inj hrun
            exact absurd h hgap.not_generates
        | succ i =>
            obtain ⟨source, hadded, hbefore, hafter⟩ := ih hrun
            refine ⟨source, hadded, ?_, ?_⟩
            · rintro (_ | j) before hlt hget
              · exact Option.some.inj hget ▸ hgap
              · exact hbefore j before (Nat.lt_of_succ_lt_succ hlt) hget
            · rintro (_ | j) after hlt hget
              · cases hlt
              · exact hafter j after (Nat.lt_of_succ_lt_succ hlt) hget
      · cases i with
        | zero =>
            refine ⟨source, ⟨call, _, rfl, rfl, hadds⟩, ?_, ?_⟩
            · intro j before hlt
              cases hlt
            · rintro (_ | j) after hlt hget
              · cases hlt
              · exact hlater hadds.kept j after hget
        | succ i => exact absurd h (hlater hadds.kept i run hrun).not_generates

end

/-- In any history of runs over one table, at most one run generates an artifact. The runs before it
report nothing but gaps for the artifact. That run reports it once, and the table has the answer of
the generator from then on, which is not blank. The runs after it find the artifact there and ask
for it no more, whatever their generators are, and so do all runs if the table had the artifact to
begin with. -/
theorem history_generates_once (table : ArtifactTable) (calls : List RunCall)
    (key : ArtifactKey) :
    let runs := history table calls
    (∀ (i j : Nat) (run run' : Dispatched ArtifactTable RunOutcome), runs[i]? = some run →
        runs[j]? = some run' → run.Generates key → run'.Generates key → i = j) ∧
      (∀ (i : Nat) (run : Dispatched ArtifactTable RunOutcome), runs[i]? = some run →
        run.Generates key → ∃ source, AddedAt calls runs key i source) ∧
      ∀ source, table.get? key = some source → ∀ run ∈ runs, run.LeavesAlone key source := by
  intro runs
  refine ⟨?_, fun i run hrun h => addedAt_of_generates hrun h,
    fun source h run => leavesAlone_of_mem_history h⟩
  intro i j run run' hrun hrun' h h'
  obtain ⟨source, -, hbefore, hafter⟩ := addedAt_of_generates hrun h
  rcases Nat.lt_trichotomy i j with hlt | rfl | hlt
  · exact absurd h' (hafter j run' hlt hrun').not_generates
  · rfl
  · exact absurd h' (hbefore j run' hlt hrun').not_generates

theorem artifactKeys_ping : ∃ computed, (compute pingCorpus pingConfig).value = .ok computed ∧
    computed.artifactKeys = [⟨pingSlot, 1⟩] := by
  have hrelation : ∀ kept, pingConfig.relation kept = fun _ spec _ other => .ok (spec == other) :=
    structural_nil
  have hkeys : (compute pingCorpus pingConfig).value.toOption.map Computed.artifactKeys =
      some [⟨pingSlot, 1⟩] := by
    simp only [compute_value, hrelation]
    decide +kernel
  cases hvalue : (compute pingCorpus pingConfig).value with
  | error report =>
      rw [hvalue] at hkeys
      cases hkeys
  | ok computed =>
      rw [hvalue] at hkeys
      exact ⟨computed, rfl, Option.some.inj hkeys⟩

/-- A run over four versions that define one packet. -/
def pingCall (answer? : Option (GenerationRequest → Except ErrorReport String)) : RunCall :=
  ⟨"run", pingCorpus, pingConfig, answer?⟩

/-- Of three runs, only the second has a generator. -/
def pingCalls : List RunCall :=
  [pingCall none, pingCall (some fun request => .ok request.slot), pingCall none]

/-- The run with a generator adds the artifact that the run before it has left missing. -/
theorem history_generates_once_ping : ∃ run source,
    (history Table.empty pingCalls)[1]? = some run ∧ run.Generates ⟨pingSlot, 1⟩ ∧
      AddedAt pingCalls (history Table.empty pingCalls) ⟨pingSlot, 1⟩ 1 source := by
  obtain ⟨computed, hcompute, hkeys⟩ := artifactKeys_ping
  have hkey : (⟨pingSlot, 1⟩ : ArtifactKey) ∈ computed.artifactKeys := by simp [hkeys]
  have hfirst : (((pingCall none).run Table.empty).content.get? ⟨pingSlot, 1⟩) = none := by
    rcases (pingCall none).adds_or_leavesGap (Table.get?_empty _) with hgap | ⟨source, hadds⟩
    · exact hgap.missing
    · obtain ⟨answer, request, hanswer, -⟩ := hadds.answered
      cases hanswer
  have hsource : ∀ request : GenerationRequest, request.isFor ⟨pingSlot, 1⟩ = true →
      ∃ source, Generator.checked request (.ok request.slot) = .ok source := by
    intro request hfor
    obtain ⟨-, hslot, -⟩ := GenerationRequest.isFor_iff.mp hfor
    exact ⟨request.slot, by rw [hslot]; rfl⟩
  obtain ⟨source, hadds⟩ := (pingCall (some fun request => .ok request.slot)).adds_of_answer
    hcompute hkey rfl hsource hfirst
  have hgenerates := hadds.generates
  obtain ⟨-, honce, -⟩ := history_generates_once Table.empty pingCalls ⟨pingSlot, 1⟩
  obtain ⟨source, hadded⟩ := honce 1 _ rfl hgenerates
  exact ⟨_, source, rfl, hgenerates, hadded⟩

end VersionGroups
