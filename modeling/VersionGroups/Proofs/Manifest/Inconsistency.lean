import VersionGroups.Proofs.Grouping.Leaders
import VersionGroups.Proofs.Manifest.Failure

/-!
# The first inconsistency

To group a slot is to read it in every kept version, up to the first one in which this fails. A slot
that was grouped could be read everywhere, and nothing that goes wrong later looks like a failure to
read. So there is a manifest only if all slots can be read in all kept versions, and a computation
that finds an inconsistency names the first one, by slots and then by versions.
-/
namespace VersionGroups

/-- The definition of a slot and its wire id can be told from a document. -/
def View.Reads (view : View) (slot : Slot) : Prop :=
  (∃ spec?, view.slotSpec? slot = .ok spec?) ∧ ∃ id?, view.slotWireId? slot = .ok id?

/-- The definition of a slot cannot be told from a document, or the wire id of a slot that has a
definition. -/
inductive View.FailsAt (view : View) (slot : Slot) (fault : Fault) : Prop
  | spec (h : view.slotSpec? slot = .error fault)
  | wireId {spec : Json} (hspec : view.slotSpec? slot = .ok (some spec))
      (h : view.slotWireId? slot = .error fault)

/-- The first slot that cannot be read in all kept versions, with the first version in which it
cannot be read and the fault that shows there. -/
structure Corpus.FirstFailure (kept : Corpus) (slots : List Slot) (slot : Slot) (version : Version)
    (fault : Fault) : Prop where
  fails : ∃ d, kept.get? version = some d ∧ (View.mk version d).FailsAt slot fault
  slots : ∃ before later, slots = before ++ slot :: later ∧
    ∀ s ∈ before, ∀ v d, kept.get? v = some d → ∀ fault', ¬ (View.mk v d).FailsAt s fault'
  versions : ∀ v d, kept.get? v = some d → v < version →
    ∀ fault', ¬ (View.mk v d).FailsAt slot fault'

section
variable {relation : Relation} {corpus : Corpus} {slot : Slot}
  {taken : List (Version × Document)} {groups : List OpenGroup} {fault : Fault}
  {report : ErrorReport} {view : View}

/-- A slot can be read in a document unless its definition or its wire id fails there. -/
theorem View.reads_iff : view.Reads slot ↔ ∀ fault, ¬ view.FailsAt slot fault := by
  constructor
  · rintro ⟨⟨spec?, hspec⟩, id?, hid⟩ fault hfails
    cases hfails with
    | spec h => cases hspec.symm.trans h
    | wireId _ h => cases hid.symm.trans h
  · intro hnone
    cases hspec : view.slotSpec? slot with
    | error fault => exact absurd (.spec hspec) (hnone fault)
    | ok spec? =>
        refine ⟨⟨spec?, hspec⟩, ?_⟩
        cases spec? with
        | none => exact ⟨none, slotWireId?_of_undefined hspec⟩
        | some spec =>
            cases hid : view.slotWireId? slot with
            | error fault => exact absurd (.wireId hspec hid) (hnone fault)
            | ok id? => exact ⟨id?, rfl⟩

theorem View.FailsAt.tellsOf (h : view.FailsAt slot fault) : fault.TellsOf view.version := by
  cases h with
  | spec h => exact tellsOf_of_slotSpec? h
  | wireId _ h => exact tellsOf_of_slotWireId? h

theorem Partition.reads (h : Partition relation corpus slot taken groups) :
    ∀ entry ∈ taken, (viewOf entry).Reads slot := by
  intro entry hentry
  rcases h.answered entry hentry with hnone | ⟨p, hp⟩
  · exact ⟨⟨none, hnone⟩, none, View.slotWireId?_of_undefined hnone⟩
  · obtain ⟨-, ⟨spec, hspec⟩, hid⟩ := placement?_eq_some.mp hp
    exact ⟨⟨some spec, hspec⟩, p.1, hid⟩

theorem reads_of_groupSlot {out : SlotGroups} (h : groupSlot corpus relation slot = .ok out)
    {v : Version} {d : Document} (hd : corpus.get? v = some d) : (View.mk v d).Reads slot := by
  obtain ⟨groups, -, hpart⟩ := partition_of_groupSlot h
  exact hpart.reads (v, d) (Table.get?_eq_some_iff.mp hd)

end

section
variable {corpus : Corpus} {config : SlotConfig} {slot : Slot} {before : List Slot} {fault : Fault}
  {report : ErrorReport}

/-- A slot that is inconsistent somewhere stops the grouping at the first such version. -/
theorem exists_failsAt_of_groupSlot
    (h : groupSlot corpus (config.relation corpus) slot = .error fault)
    (hkind : fault.kind = .corpusInconsistency) :
    ∃ v d, corpus.get? v = some d ∧ (View.mk v d).FailsAt slot fault ∧
      ∀ u e, corpus.get? u = some e → u < v → (View.mk u e).Reads slot := by
  obtain ⟨taken, ⟨v, d⟩, rest, groups, hall, hpart, hstep⟩ := groupSlot_eq_error h
  have hd : (v, d) ∈ corpus.entries := by simp [hall]
  refine ⟨v, d, Table.get?_eq_some_iff.mpr hd, ?_, ?_⟩
  · rcases groupVersion_error hstep with hspec | ⟨spec, hspec, hwire | hmatch⟩
    · exact .spec hspec
    · exact .wireId hspec hwire
    · have hcycle := matchGroup_fault config.registry.types_distinct hpart hd hmatch
      cases hkind.symm.trans hcycle
  · intro u e he hlt
    exact hpart.reads (u, e)
      (Partition.taken_of_lt_next hall (Table.get?_eq_some_iff.mp he) hlt)

/-- The first slot to show the corpus to be inconsistent is the first that cannot be read in all of
its versions. -/
theorem FirstFatal.firstFailure
    (h : FirstFatal corpus (config.relation corpus) config.registry.slots before slot report)
    (hkind : report.kind = .corpusInconsistency) :
    ∃ v fault, corpus.FirstFailure config.registry.slots slot v fault ∧
      report = slotReport slot fault := by
  obtain ⟨⟨later, hslots⟩, hpassed, hfailed, -⟩ := h
  obtain ⟨fault, hslot, rfl⟩ := groupSlot_of_slotFailure? hfailed
  obtain ⟨v, d, hd, hfails, hversions⟩ := exists_failsAt_of_groupSlot hslot hkind
  refine ⟨v, fault, ⟨⟨d, hd, hfails⟩, ⟨before, later, hslots, ?_⟩, ?_⟩, rfl⟩
  · intro s hs u e he
    obtain ⟨entry, hentry⟩ := exists_groupSlot_of_passes (hpassed s hs)
    exact View.reads_iff.mp (reads_of_groupSlot hentry he)
  · exact fun u e he hlt => View.reads_iff.mp (hversions u e he hlt)

end

/-- If there is a manifest, then every slot can be read in every kept version. If the computation
reports an inconsistency, then it names the first slot that cannot be read in all kept versions and
the first version in which it cannot be read, in the words of the failure to read it. -/
theorem compute_names_first_inconsistency (corpus : Corpus) (config : SlotConfig) :
    match (compute corpus config).value with
    | .ok computed =>
        reduce corpus config.range = .ok computed.reduction ∧
          ∀ v d, computed.reduction.kept.get? v = some d →
            ∀ slot ∈ config.registry.slots, (View.mk v d).Reads slot
    | .error report =>
        report.kind = .corpusInconsistency → ∃ reduction slot v fault,
          reduce corpus config.range = .ok reduction ∧
          reduction.kept.FirstFailure config.registry.slots slot v fault ∧
          report.slot = some slot.label ∧ report.version = some v ∧
          report.message = fault.message := by
  cases h : (compute corpus config).value with
  | ok computed =>
      have hmade := madeFrom_of_compute h
      refine ⟨hmade.reduced, fun v d hd slot hslot => ?_⟩
      obtain ⟨entry, -, hentry⟩ := exists_of_forall₂ hmade.grouped hslot
      exact reads_of_groupSlot hentry hd
  | error report =>
      intro hkind
      rcases compute_eq_error h with
        ⟨fault, hreduce, rfl⟩ | ⟨reduction, hreduce, hgroup | ⟨slotGroups, hgroups, hmade⟩⟩
      · obtain rfl := reduce_eq_error hreduce
        cases hkind
      · obtain ⟨before, slot, hfirst⟩ := firstFatal_of_groupSlots hgroup
        obtain ⟨v, fault, hfailure, rfl⟩ := hfirst.firstFailure hkind
        obtain ⟨d, -, hfails⟩ := hfailure.fails
        have htells : ErrorReport.ofFault fault = _ := hfails.tellsOf
        exact ⟨reduction, slot, v, fault, hreduce, hfailure, rfl,
          congrArg ErrorReport.version htells, congrArg ErrorReport.message htells⟩
      · obtain ⟨fault, rfl, hstale | hinternal⟩ := Computed.ofGroups_error hmade
        · cases hkind.symm.trans hstale
        · cases hkind.symm.trans hinternal

/-- The first version has no packet table, which is not an inconsistency; that of the second cannot
be read. -/
example :
    let second : Document :=
      ⟨.obj [("play", .obj [("toServer", .obj [("types", .obj [("packet", .str "void")])])])]⟩
    let config : SlotConfig :=
      { range := ⟨1, none⟩
        registry :=
          { slots := [.packet ⟨.toServer, "play", "ping"⟩]
            ascending := by decide +kernel
            distinct := by decide +kernel
            filled := by decide +kernel } }
    ∃ report, (compute (.ofList [(1, ⟨.obj []⟩), (2, second)]) config).value = .error report ∧
      report.kind = .corpusInconsistency ∧ report.slot = some "c2s.play.ping" ∧
      report.version = some 2 :=
  ⟨_, rfl, rfl, rfl, rfl⟩

end VersionGroups
