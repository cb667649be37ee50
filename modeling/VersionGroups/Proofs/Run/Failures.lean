import VersionGroups.Proofs.Grouping.Leaders
import VersionGroups.Proofs.Run.Trace

/-!
# Failures of slots

There are two kinds of failures among the slots of a computation. One that shows the corpus to be
broken ends the computation: it is what the computation comes to, whatever has failed before it, and
no slot after it is grouped. All others wait until every slot has been grouped, and are then told
together.
-/
namespace VersionGroups

section
variable {corpus : Corpus} {relation relation' : Relation} {slot : Slot}
  {slots before : List Slot} {report : ErrorReport}

theorem stopsAt_eq_true : stopsAt corpus relation slot = true ↔
    ∃ report, slotFailure? corpus relation slot = some report ∧
      report.kind.isCorpusFatal = true := by
  cases hslot : groupSlot corpus relation slot with
  | ok groups => simp [stopsAt, hslot, slotFailure?_ok hslot]
  | error fault =>
      simp only [stopsAt, hslot, slotFailure?_error hslot, Option.some.injEq, exists_eq_left']
      rfl

theorem Passes.stopsAt (h : Passes corpus relation slot) :
    VersionGroups.stopsAt corpus relation slot = false := by
  refine eq_false_of_ne_true fun hstops => ?_
  obtain ⟨report, hreport, hfatal⟩ := stopsAt_eq_true.mp hstops
  cases hfatal.symm.trans (h report hreport)

theorem attempted_of_passes (h : ∀ slot ∈ slots, Passes corpus relation slot) :
    attempted corpus relation slots = slots := by
  induction slots with
  | nil => rfl
  | cons slot rest ih =>
      obtain ⟨hslot, hrest⟩ := List.forall_mem_cons.mp h
      rw [attempted_of_goes hslot.stopsAt, ih hrest]

theorem FirstFatal.attempted_eq (h : FirstFatal corpus relation slots before slot report) :
    attempted corpus relation slots = before ++ [slot] := by
  obtain ⟨⟨later, rfl⟩, hpassed, hfailed, hfatal⟩ := h
  induction before with
  | nil => exact attempted_of_stops (stopsAt_eq_true.mpr ⟨report, hfailed, hfatal⟩)
  | cons first others ih =>
      obtain ⟨hfirst, hothers⟩ := List.forall_mem_cons.mp hpassed
      rw [List.cons_append, attempted_of_goes hfirst.stopsAt, ih hothers, List.cons_append]

/-- Which slot is the first to show the corpus to be broken depends on the relation as far as it is
asked about that slot and those before it. -/
theorem FirstFatal.congr (h : FirstFatal corpus relation slots before slot report)
    (hsame : ∀ s ∈ before ++ [slot], groupSlot corpus relation s = groupSlot corpus relation' s) :
    FirstFatal corpus relation' slots before slot report := by
  have hfailure : ∀ s ∈ before ++ [slot],
      slotFailure? corpus relation s = slotFailure? corpus relation' s := by
    intro s hs
    rw [slotFailure?, slotFailure?, hsame s hs]
  refine ⟨h.split, fun s hs r hr => h.passed s hs r ?_, ?_, h.fatal⟩
  · rwa [hfailure s (List.mem_append_left _ hs)]
  · rw [← hfailure slot (by simp), h.failed]

theorem flatMap_groupingEvents_congr
    (hsame : ∀ s ∈ slots, groupSlot corpus relation s = groupSlot corpus relation' s) :
    slots.flatMap (groupingEvents corpus relation) =
      slots.flatMap (groupingEvents corpus relation') := by
  refine List.flatMap_congr fun s hs => ?_
  rw [groupingEvents, groupingEvents, hsame s hs]

end

section
variable {relation : Corpus → Relation} {corpus : Corpus} {config : SlotConfig}
  {reduction : Reduction} {before : List Slot} {slot : Slot} {report : ErrorReport}

section
variable (hreduce : reduce corpus config.range = .ok reduction)
include hreduce

theorem computeWith_value_of_reduce :
    (computeWith relation corpus config).value =
      (groupSlots reduction.kept (relation reduction.kept) config.registry.slots).value
        >>= Computed.ofGroups reduction := by
  rw [computeWith_value, hreduce]
  rfl

theorem events_computeWith_of_reduce :
    (computeWith relation corpus config).events =
      reductionEvents corpus config.range ++
        (attempted reduction.kept (relation reduction.kept) config.registry.slots).flatMap
          (groupingEvents reduction.kept (relation reduction.kept)) := by
  rw [events_computeWith, hreduce]

theorem FirstFatal.computeWith_eq
    (h : FirstFatal reduction.kept (relation reduction.kept) config.registry.slots before slot
      report) :
    computeWith relation corpus config =
      { value := .error report
        events := reductionEvents corpus config.range ++ (before ++ [slot]).flatMap
          (groupingEvents reduction.kept (relation reduction.kept)) } := by
  have hvalue : (computeWith relation corpus config).value = .error report := by
    rw [computeWith_value_of_reduce hreduce, groupSlots_value, h.groupEach_eq]
    rfl
  have hevents : (computeWith relation corpus config).events = _ :=
    events_computeWith_of_reduce hreduce
  rw [h.attempted_eq] at hevents
  rw [← hvalue, ← hevents]

/-- Relations that are alike as far as the slots up to the first fatal one go make no difference. -/
theorem FirstFatal.computeWith_congr {relation' : Corpus → Relation}
    (h : FirstFatal reduction.kept (relation reduction.kept) config.registry.slots before slot
      report)
    (hsame : ∀ s ∈ before ++ [slot],
      (relation reduction.kept).AgreeOn (relation' reduction.kept) reduction.kept s) :
    computeWith relation' corpus config = computeWith relation corpus config := by
  have hgroups := fun s hs => groupSlot_congr (hsame s hs)
  rw [h.computeWith_eq hreduce, (h.congr hgroups).computeWith_eq hreduce,
    flatMap_groupingEvents_congr hgroups]

end

end

/-- A computation over a corpus that can be reduced, under any relation. If some slot shows the
corpus to be broken, the computation comes to the failure of the first such slot. Only the slots up
to it are grouped, and what the relation says about the definitions of other slots makes no
difference. If no slot does, every slot is grouped. The failures, if there are any, are then told
together, in the order of the slots. If there are none, the manifest is built from the groups of all
slots, and an error can only come from that. -/
theorem computeWith_collects {relation : Corpus → Relation} {corpus : Corpus} {config : SlotConfig}
    {reduction : Reduction} (hreduce : reduce corpus config.range = .ok reduction) :
    let kept := reduction.kept
    let slots := config.registry.slots
    let outcome := computeWith relation corpus config
    let tells := fun grouped : List Slot =>
      reductionEvents corpus config.range ++ grouped.flatMap (groupingEvents kept (relation kept))
    (∀ before slot report, FirstFatal kept (relation kept) slots before slot report →
      outcome.value = .error report ∧ report.slot = some slot.label ∧ report.failures = [] ∧
      outcome.events = tells (before ++ [slot]) ∧
      ∀ relation' : Corpus → Relation,
        (∀ s ∈ before ++ [slot], (relation kept).AgreeOn (relation' kept) kept s) →
          computeWith relation' corpus config = outcome) ∧
    ((∀ slot ∈ slots, Passes kept (relation kept) slot) →
      outcome.events = tells slots ∧
      match slots.filterMap (slotFailure? kept (relation kept)) with
      | [] =>
          ∃ slotGroups,
            List.Forall₂ (fun slot entry => groupSlot kept (relation kept) slot = .ok entry) slots
              slotGroups ∧
            outcome.value = Computed.ofGroups reduction slotGroups ∧
            ∀ report, outcome.value = .error report →
              report.operation = none ∧ report.failures = []
      | first :: others => outcome.value = .error (slotFailures (first :: others))) := by
  intro kept slots outcome tells
  refine ⟨?_, ?_⟩
  · intro before slot report hfirst
    have heq : outcome = _ := hfirst.computeWith_eq hreduce
    obtain ⟨fault, -, rfl⟩ := groupSlot_of_slotFailure? hfirst.failed
    refine ⟨by rw [heq], rfl, (ErrorReport.ofFault_plain fault).2, by rw [heq], ?_⟩
    exact fun relation' hsame => hfirst.computeWith_congr hreduce hsame
  · intro hpasses
    have hevents : outcome.events = _ := events_computeWith_of_reduce hreduce
    have hvalue : outcome.value = _ := computeWith_value_of_reduce hreduce
    obtain ⟨slotGroups, hgroups⟩ := groupEach_collects hpasses
    rw [attempted_of_passes hpasses] at hevents
    rw [groupSlots_value, hgroups] at hvalue
    refine ⟨hevents, ?_⟩
    split
    · rename_i hnone
      rw [hnone] at hgroups hvalue
      have hmade : outcome.value = Computed.ofGroups reduction slotGroups := hvalue
      refine ⟨slotGroups, groupEach_ok hgroups, hmade, fun report herror => ?_⟩
      obtain ⟨fault, rfl, -⟩ := Computed.ofGroups_error (hmade.symm.trans herror)
      exact ErrorReport.ofFault_plain fault
    · rename_i hsome
      rw [hsome] at hvalue
      exact hvalue

/-- A document with a packet table that can be read, one that cannot, and a type. -/
def mixedDocument (number : Int) : Document :=
  ⟨.obj
    [("login", .obj [("toServer", .obj [("types", .obj [("packet", .arr [.str "container", .arr
        [.obj [("type", .arr [.str "mapper", .obj [("mappings", .obj [("0", .str "ping")])]])],
          .obj [("type", .arr [.str "switch", .obj [("fields",
            .obj [("ping", .num (.int 0))])]])]]])])])]),
      ("number", .num (.int number)),
      ("play", .obj [("toServer", .obj [("types", .obj [("packet", .str "void")])])]),
      ("types", .obj [("item", .str "varint")])]⟩

def mixedCorpus : Corpus :=
  .ofList [(1, mixedDocument 1), (2, mixedDocument 2), (3, mixedDocument 3), (4, mixedDocument 4)]

def loginPing : Slot := .packet ⟨.toServer, "login", "ping"⟩

def playPing : Slot := .packet ⟨.toServer, "play", "ping"⟩

def mixedConfig : SlotConfig where
  range := ⟨1, none⟩
  registry :=
    { slots := [loginPing, playPing, itemSlot]
      ascending := by decide +kernel
      distinct := by decide +kernel
      filled := by decide +kernel }

/-- The packet table that cannot be read ends the computation, and the ambiguity of the slot before
it is not told. -/
theorem computeWith_collects_mixed : ∃ reduction report,
    reduce mixedCorpus mixedConfig.range = .ok reduction ∧
      slotFailure? reduction.kept distant loginPing =
        some (slotReport loginPing (.ambiguousGroup loginPing.label 4 1 2)) ∧
      (computeWith (fun _ => distant) mixedCorpus mixedConfig).value = .error report ∧
      report.kind = .corpusInconsistency ∧ report.slot = some playPing.label ∧
      report.failures = [] := by
  obtain ⟨reduction, hreduce, hkept⟩ : ∃ reduction,
      reduce mixedCorpus mixedConfig.range = .ok reduction ∧ reduction.kept = mixedCorpus :=
    ⟨_, rfl, rfl⟩
  have hlogin : slotFailure? mixedCorpus distant loginPing =
      some (slotReport loginPing (.ambiguousGroup loginPing.label 4 1 2)) := rfl
  obtain ⟨fault, hplay, hkind⟩ : ∃ fault, groupSlot mixedCorpus distant playPing = .error fault ∧
      fault.kind = .corpusInconsistency := ⟨_, rfl, rfl⟩
  have hfirst : FirstFatal reduction.kept distant mixedConfig.registry.slots [loginPing] playPing
      (slotReport playPing fault) := by
    rw [hkept]
    refine ⟨⟨[itemSlot], rfl⟩, ?_, slotFailure?_error hplay, congrArg ErrorKind.isCorpusFatal hkind⟩
    intro slot hslot report hreport
    obtain rfl := List.mem_singleton.mp hslot
    rw [hlogin] at hreport
    obtain rfl := Option.some.inj hreport
    rfl
  obtain ⟨hfatal, -⟩ := @computeWith_collects (fun _ => distant) _ _ _ hreduce
  obtain ⟨hvalue, hslot, hfailures, -⟩ := hfatal _ _ _ hfirst
  exact ⟨reduction, slotReport playPing fault, hreduce, by rw [hkept, hlogin], hvalue, hkind, hslot,
    hfailures⟩

end VersionGroups
