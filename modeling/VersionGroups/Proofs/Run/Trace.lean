import VersionGroups.Proofs.Corpus.Faults
import VersionGroups.Proofs.Run.Report

/-!
# The events of a run

A run tells that it starts, then what it comes to when the corpus is reduced and when each slot is
grouped in turn, up to the first slot that shows the corpus to be broken. Gaps are told after that,
in the order of the records, and the last event tells how the run ends. Whatever starts is closed
once, and nothing is closed before all that has started inside it.
-/
namespace VersionGroups

namespace Event

def closing {ε α : Type} (activity : Activity) (after : α → List (String × Nat))
    (kind : ε → ErrorKind) : Except ε α → Event
  | .ok a => .finished activity (after a)
  | .error e => .failed activity (kind e)

/-- Whether an event closes an activity. -/
def Closes : Event → Activity → Prop
  | .finished other _, activity => other = activity
  | .failed other _, activity => other = activity
  | _, _ => False

def isGap : Event → Bool
  | .gap .. => true
  | _ => false

def code? : Event → Option String
  | .failed _ kind => some kind.code
  | .gap _ _ kind _ => some kind.code
  | _ => none

/-- Events in which whatever starts is closed once, after all that has started inside it. -/
inductive Nested : List Event → Prop
  | nil : Nested []
  | gap {slot version kind reason rest} (h : Nested rest) :
      Nested (.gap slot version kind reason :: rest)
  | activity {activity counts inside last rest} (hinside : Nested inside)
      (hlast : last.Closes activity) (hrest : Nested rest) :
      Nested (.started activity counts :: inside ++ last :: rest)

theorem closes_closing {ε α : Type} {activity : Activity} {after : α → List (String × Nat)}
    {kind : ε → ErrorKind} (result : Except ε α) :
    (closing activity after kind result).Closes activity := by
  cases result <;> rfl

theorem Nested.append {events events' : List Event} (h : Nested events) (h' : Nested events') :
    Nested (events ++ events') := by
  induction h with
  | nil => exact h'
  | gap _ ih => exact .gap ih
  | activity hinside hlast _ _ ih =>
      rw [List.append_assoc, List.cons_append]
      exact .activity hinside hlast ih

theorem Nested.flatMap {α : Type} {f : α → List Event} {l : List α} (h : ∀ a ∈ l, Nested (f a)) :
    Nested (l.flatMap f) := by
  induction l with
  | nil => exact .nil
  | cons a rest ih =>
      obtain ⟨ha, hrest⟩ := List.forall_mem_cons.mp h
      exact ha.append (ih hrest)

end Event

theorem Logged.events_bracket {ε α : Type} (activity : Activity) (before : List (String × Nat))
    (after : α → List (String × Nat)) (kind : ε → ErrorKind) (body : Logged (Except ε α)) :
    (Logged.bracket activity before after kind body).events =
      .started activity before :: body.events ++ [.closing activity after kind body.value] := by
  rw [bracket]
  cases body.value <;> rfl

theorem Logged.events_thenTry {ε α β : Type} {first : Logged (Except ε α)}
    {second : α → Logged (Except ε β)} (h : ∀ a, (second a).events = []) :
    (first.thenTry second).events = first.events := by
  rw [thenTry]
  cases first.value with
  | ok a => simp [h]
  | error e => rfl

def reductionEvents (corpus : Corpus) (range : VersionRange) : List Event :=
  [.started .deduplication [("version_count", corpus.size)],
    .closing .deduplication
      (fun reduction : Reduction =>
        [("version_count", reduction.kept.size), ("alias_count", reduction.aliases.size)])
      Fault.kind (reduce corpus range)]

section
variable (corpus : Corpus) (relation : Relation)

def groupingEvents (slot : Slot) : List Event :=
  [.started (.grouping slot.label) [],
    .closing (.grouping slot.label)
      (fun groups : SlotGroups => [("group_count", groups.groups.length)])
      Fault.kind (groupSlot corpus relation slot)]

/-- Whether grouping a slot shows that the corpus is broken. -/
def stopsAt (slot : Slot) : Bool :=
  match groupSlot corpus relation slot with
  | .ok _ => false
  | .error fault => fault.kind.isCorpusFatal

/-- The slots that are grouped in turn: all up to the first that shows the corpus to be broken. -/
def attempted (slots : List Slot) : List Slot :=
  slots.takeWhile (fun slot => !stopsAt corpus relation slot) ++
    (slots.dropWhile (fun slot => !stopsAt corpus relation slot)).take 1

variable {corpus relation} {slot : Slot} {rest : List Slot}

theorem attempted_of_stops (h : stopsAt corpus relation slot = true) :
    attempted corpus relation (slot :: rest) = [slot] := by
  simp [attempted, h]

theorem attempted_of_goes (h : stopsAt corpus relation slot = false) :
    attempted corpus relation (slot :: rest) = slot :: attempted corpus relation rest := by
  simp [attempted, h]

theorem events_groupSlotLogged :
    (groupSlotLogged corpus relation slot).events = groupingEvents corpus relation slot := by
  rw [groupSlotLogged, Logged.events_bracket]
  rfl

theorem nested_groupingEvents : Event.Nested (groupingEvents corpus relation slot) :=
  .activity .nil (Event.closes_closing _) .nil

/-- Every slot that is attempted tells of its grouping, in turn. -/
theorem events_groupEach (slots : List Slot) :
    (groupEach corpus relation slots).events =
      (attempted corpus relation slots).flatMap (groupingEvents corpus relation) := by
  induction slots with
  | nil => rfl
  | cons slot rest ih =>
      have hvalue : (groupSlotLogged corpus relation slot).value =
        groupSlot corpus relation slot := rfl
      rw [groupEach, Logged.next, events_groupSlotLogged]
      dsimp only
      rw [hvalue]
      cases hslot : groupSlot corpus relation slot with
      | ok groups =>
          have hgoes : stopsAt corpus relation slot = false := by rw [stopsAt, hslot]
          rw [attempted_of_goes hgoes, List.flatMap_cons, ← ih]
          dsimp only
          rw [Logged.events_thenTry fun _ => rfl]
      | error fault =>
          have hstops : stopsAt corpus relation slot =
              (slotReport slot fault).kind.isCorpusFatal := by
            rw [stopsAt, hslot]
            rfl
          dsimp only
          cases hfatal : (slotReport slot fault).kind.isCorpusFatal with
          | true =>
              rw [attempted_of_stops (hstops.trans hfatal), if_pos rfl]
              exact (List.flatMap_singleton ..).symm
          | false =>
              rw [attempted_of_goes (hstops.trans hfatal), if_neg Bool.false_ne_true,
                List.flatMap_cons, ← ih, Logged.events_thenTry fun _ => rfl]

theorem events_groupSlots (slots : List Slot) :
    (groupSlots corpus relation slots).events =
      (attempted corpus relation slots).flatMap (groupingEvents corpus relation) := by
  rw [groupSlots, Logged.events_thenTry, events_groupEach]
  intro outcome
  split <;> rfl

end

/-- What the groupings of a computation tell; there are none unless the corpus can be reduced. -/
def groupingTrace (corpus : Corpus) (config : SlotConfig) : List Event :=
  match reduce corpus config.range with
  | .error _ => []
  | .ok reduction =>
      (attempted reduction.kept (config.relation reduction.kept) config.registry.slots).flatMap
        (groupingEvents reduction.kept (config.relation reduction.kept))

/-- A computation tells of the reduction and then of the slots that are attempted. -/
theorem events_computeWith (relation : Corpus → Relation) (corpus : Corpus) (config : SlotConfig) :
    (computeWith relation corpus config).events =
      reductionEvents corpus config.range ++
        match reduce corpus config.range with
        | .error _ => []
        | .ok reduction =>
            (attempted reduction.kept (relation reduction.kept) config.registry.slots).flatMap
              (groupingEvents reduction.kept (relation reduction.kept)) := by
  have hevents : (reduceLogged corpus config.range).events = reductionEvents corpus config.range :=
    Logged.events_bracket ..
  have hvalue : (reduceLogged corpus config.range).value = reduce corpus config.range := rfl
  rw [computeWith, Logged.next, hevents]
  dsimp only
  rw [hvalue]
  cases reduce corpus config.range with
  | error fault => rfl
  | ok reduction =>
      dsimp only
      rw [Logged.events_thenTry fun _ => rfl, events_groupSlots]

theorem events_compute (corpus : Corpus) (config : SlotConfig) :
    (compute corpus config).events =
      reductionEvents corpus config.range ++ groupingTrace corpus config :=
  events_computeWith config.relation corpus config

theorem nested_compute (corpus : Corpus) (config : SlotConfig) :
    Event.Nested (compute corpus config).events := by
  have hreduction : Event.Nested (reductionEvents corpus config.range) :=
    .activity .nil (Event.closes_closing _) .nil
  rw [events_compute]
  refine hreduction.append ?_
  rw [groupingTrace]
  split
  · exact .nil
  · exact .flatMap fun _ _ => nested_groupingEvents

theorem DispatchRecord.nested_events (record : DispatchRecord) : Event.Nested record.events := by
  rw [events]
  split
  · exact .gap .nil
  · exact .nil

section
variable {σ : Type} (memo : Memo σ) (generator : Option (Generator σ)) (corpus : Corpus)

/-- A dispatch tells of the gaps among the artifacts that it came to, in turn. -/
theorem events_dispatchKeys (content : σ) (keys : List ArtifactKey) :
    ∃ records : List DispatchRecord,
      (dispatchKeys memo generator corpus content keys).events =
          records.flatMap DispatchRecord.events ∧
        ∀ all, (dispatchKeys memo generator corpus content keys).result = .ok all →
          records = all := by
  induction keys generalizing content with
  | nil => exact ⟨[], rfl, fun all h => Except.ok.inj h⟩
  | cons key rest ih =>
      cases hfirst : (dispatchKey memo generator corpus content key).result with
      | error report =>
          rw [dispatchKeys_of_error hfirst]
          refine ⟨[], rfl, fun all h => ?_⟩
          cases h
      | ok outcome =>
          obtain ⟨records, hevents, hall⟩ :=
            ih (dispatchKey memo generator corpus content key).content
          rw [dispatchKeys_of_ok hfirst]
          dsimp only
          refine ⟨⟨key, outcome⟩ :: records, ?_, fun all h => ?_⟩
          · rw [hevents, List.flatMap_cons]
          · cases hothers : (dispatchKeys memo generator corpus
                (dispatchKey memo generator corpus content key).content rest).result with
            | error report =>
                rw [hothers] at h
                cases h
            | ok others =>
                rw [hothers] at h
                rw [hall others hothers]
                exact Except.ok.inj h

end

/-- Gaps are told in the order of the records, each with its slot and version. -/
theorem DispatchRecord.forall₂_events (records : List DispatchRecord) :
    List.Forall₂
      (fun record event => ∃ kind reason, record.outcome = .gap kind reason ∧
        event = .gap record.key.slot.label record.key.version kind reason)
      (records.filter (·.outcome.isGap)) (records.flatMap DispatchRecord.events) := by
  induction records with
  | nil => exact .nil
  | cons record rest ih =>
      rw [List.flatMap_cons, events]
      cases houtcome : record.outcome with
      | existing handle => simpa [houtcome, Outcome.isGap] using ih
      | generated handle => simpa [houtcome, Outcome.isGap] using ih
      | gap kind reason =>
          rw [List.filter_cons_of_pos (by simp [houtcome, Outcome.isGap])]
          exact .cons ⟨kind, reason, houtcome, rfl⟩ ih

theorem Event.isGap_closing {ε α : Type} (activity : Activity) (after : α → List (String × Nat))
    (kind : ε → ErrorKind) (result : Except ε α) :
    isGap (closing activity after kind result) = false := by
  cases result <;> rfl

theorem not_isGap_compute {corpus : Corpus} {config : SlotConfig} {event : Event}
    (h : event ∈ (compute corpus config).events) : event.isGap = false := by
  rw [events_compute, groupingTrace] at h
  rcases List.mem_append.mp h with h | h
  · simp only [reductionEvents, List.mem_cons, List.not_mem_nil, or_false] at h
    rcases h with rfl | rfl
    · rfl
    · exact Event.isGap_closing ..
  · split at h
    · cases h
    · obtain ⟨slot, -, h⟩ := List.mem_flatMap.mp h
      simp only [groupingEvents, List.mem_cons, List.not_mem_nil, or_false] at h
      rcases h with rfl | rfl
      · rfl
      · exact Event.isGap_closing ..

def RunOutcome.counts (outcome : RunOutcome) : List (String × Nat) :=
  [("group_count", outcome.groupCount), ("generated", outcome.generated), ("gaps", outcome.gaps)]

section
variable {σ : Type} (runId : String) (memo : Memo σ) (generator : Option (Generator σ))
  (corpus : Corpus) (config : SlotConfig) (content : σ)

/-- The steps of a run tell of the computation and then of the records, if it comes to any. -/
theorem events_runSteps : ∃ records : List DispatchRecord,
    (runSteps memo generator corpus config content).events =
        (compute corpus config).events ++ records.flatMap DispatchRecord.events ∧
      (∀ reported, (runSteps memo generator corpus config content).result = .ok reported →
        records = reported.records) ∧
      ∀ report, (compute corpus config).value = .error report → records = [] := by
  rw [runSteps]
  cases (compute corpus config).value with
  | error report =>
      refine ⟨[], (List.append_nil _).symm, fun reported h => ?_, fun _ _ => rfl⟩
      cases h
  | ok computed =>
      obtain ⟨records, hevents, hall⟩ :=
        events_dispatchKeys memo generator computed.reduction.kept content computed.artifactKeys
      have hgroups : dispatchGroups memo generator computed.reduction.kept content
        computed.slotGroups = dispatchKeys memo generator computed.reduction.kept content
          computed.artifactKeys := rfl
      dsimp only
      rw [hgroups, hevents]
      refine ⟨records, rfl, fun reported h => ?_, fun report h => ?_⟩
      · cases hresult : (dispatchKeys memo generator computed.reduction.kept content
            computed.artifactKeys).result with
        | error report =>
            rw [hresult] at h
            cases h
        | ok all =>
            rw [hresult] at h
            rw [hall all hresult, ← Except.ok.inj h]
      · cases h

theorem events_run :
    (run runId memo generator corpus config content).events =
      .started .run [("version_count", corpus.size), ("slot_count", config.registry.size)] ::
        (runSteps memo generator corpus config content).events ++
      [.closing .run RunOutcome.counts ErrorReport.kind
        (run runId memo generator corpus config content).result] :=
  Logged.events_bracket ..

/-- Whatever starts in a run is closed once, also in a run that fails. -/
theorem nested_run : Event.Nested (run runId memo generator corpus config content).events := by
  obtain ⟨records, hsteps, -⟩ := events_runSteps memo generator corpus config content
  have hrecords : Event.Nested (records.flatMap DispatchRecord.events) :=
    .flatMap fun record _ => record.nested_events
  rw [events_run, hsteps]
  exact .activity ((nested_compute corpus config).append hrecords) (Event.closes_closing _) .nil

variable {runId memo generator corpus config content}

theorem filter_isGap_run {records : List DispatchRecord}
    (h : (runSteps memo generator corpus config content).events =
      (compute corpus config).events ++ records.flatMap DispatchRecord.events) :
    (run runId memo generator corpus config content).events.filter Event.isGap =
      records.flatMap DispatchRecord.events := by
  have hcompute : (compute corpus config).events.filter Event.isGap = [] :=
    List.filter_eq_nil_iff.mpr fun event h => by simp [not_isGap_compute h]
  have hall : ∀ event ∈ records.flatMap DispatchRecord.events, event.isGap = true := by
    intro event hevent
    obtain ⟨record, -, kind, reason, -, rfl⟩ :=
      exists_of_forall₂ (DispatchRecord.forall₂_events records).flip hevent
    rfl
  rw [events_run, h, List.filter_append, List.filter_cons_of_neg (by simp [Event.isGap]),
    List.filter_append, hcompute, List.filter_eq_self.mpr hall, List.nil_append,
    List.filter_cons_of_neg (by simp [Event.isGap_closing]), List.filter_nil, List.append_nil]

end

/-- A run over a table tells that it starts, that the corpus is reduced and what comes of it, and
then, for each slot up to the first that shows the corpus to be broken, that it is grouped and what
comes of it. One event for each gap of the report follows, in the order of the records. The last
event tells how the run ends, with the code of the error if it fails. -/
theorem run_traced (runId : String)
    (answer? : Option (GenerationRequest → Except ErrorReport String)) (corpus : Corpus)
    (config : SlotConfig) (table : ArtifactTable) :
    let outcome := run runId ArtifactTable.memo (answer?.map .ofFunction) corpus config table
    ∃ gaps : List Event,
      outcome.events =
        .started .run [("version_count", corpus.size), ("slot_count", config.registry.size)] ::
          (reductionEvents corpus config.range ++ groupingTrace corpus config ++ gaps) ++
        [.closing .run RunOutcome.counts ErrorReport.kind outcome.result] ∧
      Event.Nested outcome.events ∧
      outcome.events.filter Event.isGap = gaps ∧
      match outcome.result with
      | .ok reported =>
          gaps.length = reported.gaps ∧
          List.Forall₂
            (fun record event => ∃ kind reason, record.outcome = .gap kind reason ∧
              event = .gap record.key.slot.label record.key.version kind reason)
            reported.gapRecords gaps
      | .error report =>
          gaps = [] ∧ outcome.events.getLast?.bind Event.code? = some report.code := by
  intro outcome
  obtain ⟨records, hsteps, hrecords, hnone⟩ :=
    events_runSteps ArtifactTable.memo (answer?.map .ofFunction) corpus config table
  have hevents : outcome.events = _ := events_run runId ArtifactTable.memo _ corpus config table
  have hgaps := DispatchRecord.forall₂_events records
  refine ⟨records.flatMap DispatchRecord.events, ?_, nested_run .., filter_isGap_run hsteps, ?_⟩
  · rw [hevents, hsteps, events_compute]
  · cases hresult : outcome.result with
    | ok reported =>
        obtain rfl := hrecords reported (result_runSteps_of_run hresult)
        refine ⟨?_, hgaps⟩
        rw [← hgaps.length_eq, RunOutcome.gaps, List.countP_eq_length_filter]
    | error report =>
        obtain rfl : records = [] := by
          cases hcompute : (compute corpus config).value with
          | error report' => exact hnone report' hcompute
          | ok computed =>
              obtain ⟨_, _, _, hok, -⟩ := run_table runId answer? table hcompute
              cases hok.symm.trans hresult
        refine ⟨rfl, ?_⟩
        rw [hevents, List.getLast?_concat, hresult]
        rfl

end VersionGroups
