import Mathlib.Data.List.Forall2
import VersionGroups.Manifest.Computed
import VersionGroups.Proofs.Results

/-!
# What a computed manifest was made from

A computation that succeeds has reduced the corpus, grouped every slot over what is kept and built
the manifest of these groups. One that fails has failed in one of these steps, or in laying out the
text. Grouping comes to the first failure that shows the corpus to be broken, or else to the groups
and the failures of all slots. The events do not matter for any of this.
-/
namespace VersionGroups

theorem Logged.value_thenTry {ε α β : Type} (first : Logged (Except ε α))
    (second : α → Logged (Except ε β)) :
    (first.thenTry second).value = first.value >>= fun a => (second a).value := by
  rw [thenTry]
  cases first.value <;> rfl

/-- The failure of a slot that cannot be grouped, with the slot and without other failures. -/
def slotFailure? (corpus : Corpus) (relation : Relation) (slot : Slot) : Option ErrorReport :=
  match groupSlot corpus relation slot with
  | .ok _ => none
  | .error fault =>
      some { ErrorReport.ofFault fault with
        operation := some "group_slot", slot := some slot.label, failures := [] }

/-- Grouping a slot does not show that the corpus is broken. -/
def Passes (corpus : Corpus) (relation : Relation) (slot : Slot) : Prop :=
  ∀ report ∈ slotFailure? corpus relation slot, report.kind.isCorpusFatal = false

/-- The first of some slots that shows the corpus to be broken, and its failure. -/
structure FirstFatal (corpus : Corpus) (relation : Relation) (slots before : List Slot)
    (slot : Slot) (report : ErrorReport) : Prop where
  split : ∃ later, slots = before ++ slot :: later
  passed : ∀ s ∈ before, Passes corpus relation s
  failed : slotFailure? corpus relation slot = some report
  fatal : report.kind.isCorpusFatal = true

theorem ErrorReport.ofFault_plain (fault : Fault) :
    (ofFault fault).operation = none ∧ (ofFault fault).failures = [] := by
  cases fault <;> exact ⟨rfl, rfl⟩

section
variable {corpus : Corpus} {relation : Relation} {slot : Slot} {slots before rest : List Slot}
  {report : ErrorReport}

theorem slotFailure?_ok {groups : SlotGroups} (h : groupSlot corpus relation slot = .ok groups) :
    slotFailure? corpus relation slot = none := by
  rw [slotFailure?, h]

theorem slotFailure?_error {fault : Fault} (h : groupSlot corpus relation slot = .error fault) :
    slotFailure? corpus relation slot = some (slotReport slot fault) := by
  rw [slotFailure?, h, ← (ErrorReport.ofFault_plain fault).2]
  rfl

theorem groupSlot_of_slotFailure? (h : slotFailure? corpus relation slot = some report) :
    ∃ fault, groupSlot corpus relation slot = .error fault ∧ slotReport slot fault = report := by
  cases hslot : groupSlot corpus relation slot with
  | ok groups =>
      rw [slotFailure?_ok hslot] at h
      cases h
  | error fault =>
      rw [slotFailure?_error hslot] at h
      exact ⟨fault, rfl, Option.some.inj h⟩

theorem groupEach_cons_ok {groups : SlotGroups} (h : groupSlot corpus relation slot = .ok groups) :
    (groupEach corpus relation (slot :: rest)).value =
      (groupEach corpus relation rest).value >>= fun others =>
        .ok (groups :: others.1, others.2) := by
  have hlogged : (groupSlotLogged corpus relation slot).value = .ok groups := h
  rw [groupEach]
  simp only [Logged.next, hlogged, Logged.value_thenTry]
  rfl

theorem groupEach_cons_error {fault : Fault} (h : groupSlot corpus relation slot = .error fault) :
    (groupEach corpus relation (slot :: rest)).value =
      if (slotReport slot fault).kind.isCorpusFatal then .error (slotReport slot fault)
      else
        (groupEach corpus relation rest).value >>= fun others =>
          .ok (others.1, slotReport slot fault :: others.2) := by
  have hlogged : (groupSlotLogged corpus relation slot).value = .error fault := h
  rw [groupEach]
  simp only [Logged.next, hlogged]
  split
  · rfl
  · rw [Logged.value_thenTry]
    rfl

/-- A slot that does not end the grouping adds its groups or its failure to those of the others. -/
theorem groupEach_cons_passes (h : Passes corpus relation slot) (rest : List Slot) :
    ∃ groups : List SlotGroups, (groupEach corpus relation (slot :: rest)).value =
      (groupEach corpus relation rest).value >>= fun others =>
        .ok (groups ++ others.1, (slotFailure? corpus relation slot).toList ++ others.2) := by
  cases hslot : groupSlot corpus relation slot with
  | ok entry =>
      rw [groupEach_cons_ok hslot, slotFailure?_ok hslot]
      exact ⟨[entry], rfl⟩
  | error fault =>
      have hgoes := h _ (slotFailure?_error hslot)
      rw [groupEach_cons_error hslot, slotFailure?_error hslot, hgoes]
      exact ⟨[], rfl⟩

/-- The first failure that shows the corpus to be broken is what grouping comes to. -/
theorem FirstFatal.groupEach_eq (h : FirstFatal corpus relation slots before slot report) :
    (groupEach corpus relation slots).value = .error report := by
  obtain ⟨⟨later, rfl⟩, hpassed, hfailed, hfatal⟩ := h
  induction before with
  | nil =>
      obtain ⟨fault, hslot, rfl⟩ := groupSlot_of_slotFailure? hfailed
      rw [List.nil_append, groupEach_cons_error hslot, if_pos hfatal]
  | cons first others ih =>
      obtain ⟨hfirst, hothers⟩ := List.forall_mem_cons.mp hpassed
      obtain ⟨groups, hvalue⟩ := groupEach_cons_passes hfirst (others ++ slot :: later)
      rw [List.cons_append, hvalue, ih hothers]
      rfl

/-- If no failure shows the corpus to be broken, the failures are collected in turn. -/
theorem groupEach_collects (h : ∀ slot ∈ slots, Passes corpus relation slot) :
    ∃ groups, (groupEach corpus relation slots).value =
      .ok (groups, slots.filterMap (slotFailure? corpus relation)) := by
  induction slots with
  | nil => exact ⟨[], rfl⟩
  | cons slot rest ih =>
      obtain ⟨hslot, hrest⟩ := List.forall_mem_cons.mp h
      obtain ⟨others, hothers⟩ := ih hrest
      obtain ⟨groups, hvalue⟩ := groupEach_cons_passes hslot rest
      refine ⟨groups ++ others, ?_⟩
      rw [hvalue, hothers, List.filterMap_cons]
      cases slotFailure? corpus relation slot <;> rfl

theorem firstFatal_or_passes (corpus : Corpus) (relation : Relation) (slots : List Slot) :
    (∃ before slot report, FirstFatal corpus relation slots before slot report) ∨
      ∀ slot ∈ slots, Passes corpus relation slot := by
  induction slots with
  | nil => exact .inr (by simp)
  | cons slot rest ih =>
      by_cases hslot : Passes corpus relation slot
      · rcases ih with ⟨before, s, report, ⟨later, rfl⟩, hpassed, hfailed, hfatal⟩ | hrest
        · exact .inl ⟨slot :: before, s, report, ⟨later, rfl⟩,
            List.forall_mem_cons.mpr ⟨hslot, hpassed⟩, hfailed, hfatal⟩
        · exact .inr (List.forall_mem_cons.mpr ⟨hslot, hrest⟩)
      · rw [Passes] at hslot
        push Not at hslot
        obtain ⟨report, hfailed, hfatal⟩ := hslot
        exact .inl ⟨[], slot, report, ⟨rest, rfl⟩, by simp, hfailed, eq_true_of_ne_false hfatal⟩

/-- Without failures, every slot has its groups. -/
theorem groupEach_ok {groups : List SlotGroups}
    (h : (groupEach corpus relation slots).value = .ok (groups, [])) :
    List.Forall₂ (fun slot entry => groupSlot corpus relation slot = .ok entry) slots groups := by
  induction slots generalizing groups with
  | nil =>
      obtain rfl : [] = groups := congrArg Prod.fst (Except.ok.inj h)
      exact .nil
  | cons slot rest ih =>
      cases hslot : groupSlot corpus relation slot with
      | ok entry =>
          rw [groupEach_cons_ok hslot] at h
          obtain ⟨⟨others, failures⟩, hrest, h⟩ := bind_eq_ok.mp h
          obtain ⟨rfl, rfl⟩ := Prod.mk.inj (Except.ok.inj h)
          exact .cons hslot (ih hrest)
      | error fault =>
          rw [groupEach_cons_error hslot] at h
          split at h
          · cases h
          · obtain ⟨others, -, h⟩ := bind_eq_ok.mp h
            cases (Prod.mk.inj (Except.ok.inj h)).2

theorem groupEach_succeeds
    (h : ∀ slot ∈ slots, ∃ entry, groupSlot corpus relation slot = .ok entry) :
    ∃ groups, (groupEach corpus relation slots).value = .ok (groups, []) := by
  have hnone : ∀ slot ∈ slots, slotFailure? corpus relation slot = none := by
    intro slot hslot
    obtain ⟨entry, hentry⟩ := h slot hslot
    exact slotFailure?_ok hentry
  have hpasses : ∀ slot ∈ slots, Passes corpus relation slot := by
    intro slot hslot report hreport
    cases (hnone slot hslot).symm.trans hreport
  obtain ⟨groups, hgroups⟩ := groupEach_collects hpasses
  rw [List.filterMap_eq_nil_iff.mpr hnone] at hgroups
  exact ⟨groups, hgroups⟩

end

theorem groupSlots_value (corpus : Corpus) (relation : Relation) (slots : List Slot) :
    (groupSlots corpus relation slots).value =
      (groupEach corpus relation slots).value >>= fun outcome =>
        if outcome.2.isEmpty then .ok outcome.1 else .error (slotFailures outcome.2) := by
  rw [groupSlots, Logged.value_thenTry]
  congr 1
  funext outcome
  split <;> rfl

theorem groupSlots_ok {corpus : Corpus} {relation : Relation} {slots : List Slot}
    {groups : List SlotGroups} (h : (groupSlots corpus relation slots).value = .ok groups) :
    List.Forall₂ (fun slot entry => groupSlot corpus relation slot = .ok entry) slots groups := by
  rw [groupSlots_value] at h
  obtain ⟨⟨others, failures⟩, hothers, h⟩ := bind_eq_ok.mp h
  cases failures with
  | nil =>
      obtain rfl : others = groups := Except.ok.inj h
      exact groupEach_ok hothers
  | cons report rest => cases h

theorem groupSlots_succeeds {corpus : Corpus} {relation : Relation} {slots : List Slot}
    (h : ∀ slot ∈ slots, ∃ entry, groupSlot corpus relation slot = .ok entry) :
    ∃ groups, (groupSlots corpus relation slots).value = .ok groups := by
  obtain ⟨groups, hgroups⟩ := groupEach_succeeds h
  exact ⟨groups, by rw [groupSlots_value, hgroups]; rfl⟩

/-- The relation under which the slots of a configuration are grouped over a kept corpus. -/
def SlotConfig.relation (config : SlotConfig) (kept : Corpus) : Relation :=
  Equivalence.structural kept config.registry.types

theorem computeWith_value (relation : Corpus → Relation) (corpus : Corpus) (config : SlotConfig) :
    (computeWith relation corpus config).value =
      reported (reduce corpus config.range) >>= fun reduction =>
        (groupSlots reduction.kept (relation reduction.kept) config.registry.slots).value
          >>= Computed.ofGroups reduction := by
  have hlogged : (reduceLogged corpus config.range).value = reduce corpus config.range := rfl
  rw [computeWith]
  simp only [Logged.next, hlogged]
  cases reduce corpus config.range with
  | error fault => rfl
  | ok reduction => exact Logged.value_thenTry _ _

theorem compute_value (corpus : Corpus) (config : SlotConfig) :
    (compute corpus config).value =
      reported (reduce corpus config.range) >>= fun reduction =>
        (groupSlots reduction.kept (config.relation reduction.kept) config.registry.slots).value
          >>= Computed.ofGroups reduction :=
  computeWith_value config.relation corpus config

theorem reported_ok {α : Type} {result : Except Fault α} {a : α} (h : reported result = .ok a) :
    result = .ok a := by
  cases result with
  | ok b => exact congrArg Except.ok (Except.ok.inj h)
  | error fault => cases h

theorem reported_error {α : Type} {result : Except Fault α} {report : ErrorReport}
    (h : reported result = .error report) :
    ∃ fault, result = .error fault ∧ report = .ofFault fault := by
  cases result with
  | ok b => cases h
  | error fault => exact ⟨fault, rfl, (Except.error.inj h).symm⟩

/-- The steps from a corpus and a configuration to a manifest. -/
structure Computed.MadeFrom (computed : Computed) (corpus : Corpus) (config : SlotConfig) :
    Prop where
  reduced : reduce corpus config.range = .ok computed.reduction
  grouped : List.Forall₂
    (fun slot entry => groupSlot computed.reduction.kept (config.relation computed.reduction.kept)
      slot = .ok entry)
    config.registry.slots computed.slotGroups
  built : buildManifest computed.reduction computed.slotGroups = .ok computed.manifest

theorem madeFrom_of_compute {corpus : Corpus} {config : SlotConfig} {computed : Computed}
    (h : (compute corpus config).value = .ok computed) : computed.MadeFrom corpus config := by
  rw [compute_value] at h
  obtain ⟨reduction, hreduce, h⟩ := bind_eq_ok.mp h
  obtain ⟨slotGroups, hgroups, h⟩ := bind_eq_ok.mp h
  obtain ⟨manifest, hmanifest, h⟩ := bind_eq_ok.mp h
  obtain ⟨text, -, h⟩ := bind_eq_ok.mp h
  obtain rfl := Except.ok.inj h
  exact ⟨reported_ok hreduce, groupSlots_ok hgroups, reported_ok hmanifest⟩

/-- The steps in which a computation can fail. -/
theorem compute_eq_error {corpus : Corpus} {config : SlotConfig} {report : ErrorReport}
    (h : (compute corpus config).value = .error report) :
    (∃ fault, reduce corpus config.range = .error fault ∧ report = .ofFault fault) ∨
      ∃ reduction, reduce corpus config.range = .ok reduction ∧
        ((groupSlots reduction.kept (config.relation reduction.kept)
            config.registry.slots).value = .error report ∨
          ∃ slotGroups,
            List.Forall₂ (fun slot entry => groupSlot reduction.kept
              (config.relation reduction.kept) slot = .ok entry)
              config.registry.slots slotGroups ∧
            Computed.ofGroups reduction slotGroups = .error report) := by
  rw [compute_value] at h
  rcases bind_eq_error.mp h with hreduce | ⟨reduction, hreduce, h⟩
  · exact .inl (reported_error hreduce)
  · refine .inr ⟨reduction, reported_ok hreduce, ?_⟩
    rcases bind_eq_error.mp h with hgroups | ⟨slotGroups, hgroups, hmade⟩
    · exact .inl hgroups
    · exact .inr ⟨slotGroups, groupSlots_ok hgroups, hmade⟩

end VersionGroups
