import VersionGroups.Proofs.Config.Tracked
import VersionGroups.Proofs.Grouping.Faults
import VersionGroups.Proofs.Manifest.Layout
import VersionGroups.Proofs.Manifest.Listing

/-!
# Only a broken corpus keeps a manifest from being computed

Each step from a corpus to the text of a manifest can fail in its own way. Reducing fails without a
base version, and grouping fails on inconsistent documents and on cycles. An alias always stands for
a kept version, a bucket of a packet always has a wire id, and no common type is named like a
direction, so that building and laying out the manifest do not fail.
-/
namespace VersionGroups

theorem Reduction.Canonical.staleAlias? {corpus : Corpus} {range : VersionRange}
    {reduction : Reduction} (h : reduction.Canonical (corpus.within range)) :
    reduction.staleAlias? = none := by
  rw [Reduction.staleAlias?, List.find?_eq_none]
  rintro ⟨a, k⟩ he
  obtain ⟨-, hs⟩ := (h.aliases a k).mp he
  obtain ⟨-, d, -, hkept, -⟩ := h.same_document hs
  have hcontains : reduction.kept.contains k = true := Table.contains_iff.mpr ⟨d, hkept⟩
  simp [hcontains, h.not_contains_of_kept hkept]

theorem Reduction.Canonical.buildManifest_eq {corpus : Corpus} {range : VersionRange}
    {reduction : Reduction} (h : reduction.Canonical (corpus.within range))
    (slotGroups : List SlotGroups) :
    buildManifest reduction slotGroups =
      .ok
        { versions := reduction.considered
          aliases := reduction.aliases
          slots := Table.ofList (slotGroups.map fun entry =>
            (entry.slot, entry.groups.map (·.expand reduction.aliases))) } := by
  rw [buildManifest, h.staleAlias?]

theorem Computed.MadeFrom.versions_aliases_eq {corpus : Corpus} {config : SlotConfig}
    {computed : Computed} (h : computed.MadeFrom corpus config) :
    computed.manifest.versions = computed.reduction.considered ∧
      computed.manifest.aliases = computed.reduction.aliases := by
  have hbuilt := h.built
  rw [h.canonical.buildManifest_eq] at hbuilt
  rw [← Except.ok.inj hbuilt]
  exact ⟨rfl, rfl⟩

theorem ne_none_of_placement? {packet : PacketName} {entry : Version × Document} {p : Placement}
    (h : placement? (.packet packet) entry = some p) : p.1 ≠ none := by
  obtain ⟨-, ⟨spec, hspec⟩, hwire⟩ := placement?_eq_some.mp h
  intro hnone
  rw [hnone] at hwire
  exact View.packetWireId?_ne_none hspec hwire

theorem eq_none_of_placement? {t : TypeName} {entry : Version × Document} {p : Placement}
    (h : placement? (.type t) entry = some p) : p.1 = none :=
  (Except.ok.inj (placement?_eq_some.mp h).2.2).symm

theorem Partition.identified {relation : Relation} {corpus : Corpus} {packet : PacketName}
    {groups : List OpenGroup}
    (h : Partition relation corpus (.packet packet) corpus.entries groups) {g : OpenGroup}
    (hg : g ∈ groups) : ∀ bucket ∈ g.group.buckets.entries, bucket.1 ≠ none := by
  rintro ⟨w, versions⟩ hb
  obtain ⟨k, hk⟩ := List.exists_mem_of_ne_nil _ (h.sorted g hg _ hb).1
  obtain ⟨d, -, hplaced⟩ := h.mem_taken hg (Buckets.mem_placements.mpr ⟨versions, hb, hk⟩)
  exact ne_none_of_placement? hplaced

theorem ErrorKind.isCorpusFatal_iff {kind : ErrorKind} :
    kind.isCorpusFatal = true ↔
      kind = .corpusInconsistency ∨ kind = .missingBaseVersion ∨ kind = .cycleDetected := by
  cases kind <;> simp [isCorpusFatal]

/-- A slot that cannot be grouped shows the corpus to be broken. -/
theorem exists_groupSlot_of_passes {corpus : Corpus} {config : SlotConfig} {slot : Slot}
    (h : Passes corpus (config.relation corpus) slot) :
    ∃ entry, groupSlot corpus (config.relation corpus) slot = .ok entry := by
  cases hslot : groupSlot corpus (config.relation corpus) slot with
  | ok entry => exact ⟨entry, rfl⟩
  | error fault =>
      have hgoes : fault.kind.isCorpusFatal = false :=
        h (slotReport slot fault) (slotFailure?_error hslot)
      rcases groupSlot_fault config.registry.types_distinct hslot with hkind | hkind
      · rw [hkind] at hgoes
        cases hgoes
      · rw [hkind] at hgoes
        cases hgoes

/-- Slots are grouped unless the corpus is broken; no other failures are collected. -/
theorem firstFatal_of_groupSlots {corpus : Corpus} {config : SlotConfig} {report : ErrorReport}
    (h : (groupSlots corpus (config.relation corpus) config.registry.slots).value =
      .error report) :
    ∃ before slot,
      FirstFatal corpus (config.relation corpus) config.registry.slots before slot report := by
  rcases firstFatal_or_passes corpus (config.relation corpus) config.registry.slots with
    ⟨before, slot, report', hfirst⟩ | hpasses
  · rw [groupSlots_value, hfirst.groupEach_eq] at h
    obtain rfl := Except.error.inj h
    exact ⟨before, slot, hfirst⟩
  · obtain ⟨groups, hgroups⟩ :=
      groupSlots_succeeds fun slot hslot => exists_groupSlot_of_passes (hpasses slot hslot)
    cases hgroups.symm.trans h

/-- What can keep a manifest from being built or laid out is not told of a version's document. -/
theorem Computed.ofGroups_error {reduction : Reduction} {slotGroups : List SlotGroups}
    {report : ErrorReport} (h : ofGroups reduction slotGroups = .error report) :
    ∃ fault, report = .ofFault fault ∧ (fault.kind = .staleAlias ∨ fault.kind = .internal) := by
  rcases bind_eq_error.mp h with hbuild | ⟨manifest, -, h⟩
  · obtain ⟨fault, hfault, rfl⟩ := reported_error hbuild
    refine ⟨fault, rfl, .inl ?_⟩
    rw [buildManifest] at hfault
    split at hfault
    · exact congrArg Fault.kind (Except.error.inj hfault).symm
    · cases hfault
  · rcases bind_eq_error.mp h with hrender | ⟨text, -, h⟩
    · obtain ⟨fault, hfault, rfl⟩ := reported_error hrender
      refine ⟨fault, rfl, .inr ?_⟩
      rcases bind_eq_error.mp hfault with hlayout | ⟨layout, -, hfault⟩
      · obtain ⟨message, rfl⟩ := Manifest.layout_error hlayout
        rfl
      · cases hfault
    · cases h

section
variable {text : String} {format : ConfigFormat} {config : SlotConfig} {reduction : Reduction}
  {relation : Relation} {slotGroups : List SlotGroups}
  (hconfig : SlotConfig.ofText text format = .ok config)
  (hgroups : List.Forall₂ (fun slot entry => groupSlot reduction.kept relation slot = .ok entry)
    config.registry.slots slotGroups)
include hconfig hgroups

theorem fit_of_buildManifest {manifest : Manifest}
    (hbuild : buildManifest reduction slotGroups = .ok manifest) :
    ∀ entry ∈ manifest.slots.entries, Manifest.Fit entry := by
  intro entry hentry
  rw [buildManifest_ok hbuild] at hentry
  obtain ⟨slotEntry, hmem, rfl⟩ := List.mem_map.mp (Table.mem_of_mem_ofList hentry)
  obtain ⟨slot, hslot, hok⟩ := exists_of_forall₂ hgroups.flip hmem
  obtain ⟨groups, rfl, hpart⟩ := partition_of_groupSlot hok
  constructor
  · rintro name rfl d
    exact SlotConfig.common_ne_direction hconfig hslot d
  · rintro packet rfl g hg bucket hb
    obtain ⟨group, hgroup, rfl⟩ := List.mem_map.mp hg
    obtain ⟨openGroup, hopen, rfl⟩ := List.mem_map.mp hgroup
    obtain ⟨source, hsource, rfl⟩ := List.mem_map.mp hb
    exact hpart.identified hopen source hsource

/-- Building the manifest of grouped slots and laying it out do not fail. -/
theorem ofGroups_ok {corpus : Corpus} (hreduce : reduce corpus config.range = .ok reduction) :
    ∃ computed, Computed.ofGroups reduction slotGroups = .ok computed := by
  obtain ⟨manifest, hmanifest⟩ : ∃ manifest, buildManifest reduction slotGroups = .ok manifest :=
    ⟨_, (canonical_of_reduce hreduce).buildManifest_eq slotGroups⟩
  obtain ⟨layout, hlayout⟩ :=
    Manifest.layout_ok (fit_of_buildManifest hconfig hgroups hmanifest)
  have hrender : ∃ file, reported manifest.render = .ok file := by
    rw [Manifest.render, hlayout]
    exact ⟨_, rfl⟩
  obtain ⟨file, hfile⟩ := hrender
  refine ⟨⟨reduction, slotGroups, manifest, file, Digest.ofText file⟩, ?_⟩
  rw [Computed.ofGroups, hmanifest]
  exact bind_eq_ok.mpr ⟨manifest, rfl, bind_eq_ok.mpr ⟨file, hfile, rfl⟩⟩

end

/-- Under an accepted configuration, a manifest cannot be computed only if the corpus is
inconsistent, lacks a base version or has a cycle among the tracked types. -/
theorem compute_error_kind {text : String} {format : ConfigFormat} {config : SlotConfig}
    (hconfig : SlotConfig.ofText text format = .ok config) {corpus : Corpus}
    {report : ErrorReport} (h : (compute corpus config).value = .error report) :
    report.kind = .corpusInconsistency ∨ report.kind = .missingBaseVersion ∨
      report.kind = .cycleDetected := by
  rcases compute_eq_error h with
    ⟨fault, hreduce, rfl⟩ | ⟨reduction, hreduce, hgroup | ⟨slotGroups, hgroups, hmade⟩⟩
  · obtain rfl := reduce_eq_error hreduce
    exact .inr (.inl rfl)
  · obtain ⟨before, slot, hfirst⟩ := firstFatal_of_groupSlots hgroup
    exact ErrorKind.isCorpusFatal_iff.mp hfirst.fatal
  · obtain ⟨computed, hcomputed⟩ := ofGroups_ok hconfig hgroups hreduce
    rw [hcomputed] at hmade
    cases hmade

def packetConfigText : String := "min_version = 1\n[packets.c2s]\nplay = [\"ping\"]\n"

/-- A document whose packet table is a text. -/
def brokenDocument : Document :=
  ⟨.obj [("play", .obj [("toServer", .obj [("types", .obj [("packet", .str "void")])])])]⟩

/-- A packet table that cannot be read makes the computation fail. -/
theorem compute_error_kind_broken : ∃ config report,
    SlotConfig.ofText packetConfigText .toml = .ok config ∧
      (compute (.ofList [(1, brokenDocument)]) config).value = .error report ∧
      (report.kind = .corpusInconsistency ∨ report.kind = .missingBaseVersion ∨
        report.kind = .cycleDetected) := by
  have hfails : (SlotConfig.ofText packetConfigText .toml).toOption.map (fun config =>
      (compute (.ofList [(1, brokenDocument)]) config).value.toBool) = some false := by
    decide +kernel
  cases hconfig : SlotConfig.ofText packetConfigText .toml with
  | error report =>
      rw [hconfig] at hfails
      cases hfails
  | ok config =>
      cases h : (compute (.ofList [(1, brokenDocument)]) config).value with
      | error report => exact ⟨config, report, rfl, h, compute_error_kind hconfig h⟩
      | ok computed =>
          rw [hconfig] at hfails
          simp only [Except.toOption, Option.map_some, h] at hfails
          cases hfails

end VersionGroups
