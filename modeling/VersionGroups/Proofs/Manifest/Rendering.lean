import VersionGroups.Proofs.Manifest.Failure
import VersionGroups.Proofs.Manifest.File
import VersionGroups.Proofs.Manifest.Rows

/-!
# The text of a manifest loses nothing

The text of a manifest tells its versions, its aliases and its layout, the layout tells the rows of
every slot, and these tell its groups, since the groups of a computed manifest come in the order of
their representatives and their buckets list versions in order. A manifest on file can therefore
pass for another one only if the digests of two texts are the same.
-/
namespace VersionGroups
open Manifest

theorem Manifest.rowsOf_ok {slot : Slot} {groups : List ManifestGroup} (h : Fit (slot, groups)) :
    ∃ rows, rowsOf slot groups = .ok rows := by
  cases slot with
  | type t => exact ⟨_, rfl⟩
  | packet p =>
      obtain ⟨rows, hrows⟩ := packetRows_ok p (h.identified p rfl)
      exact ⟨.packet rows, bind_eq_ok.mpr ⟨rows, hrows, rfl⟩⟩

/-- What one manifest lists for a slot, another one with the same layout lists as well. -/
theorem Manifest.mem_slots_of_layout {manifest manifest' : Manifest} {layout : Layout}
    (hlisted : ∀ entry ∈ manifest.slots.entries, Listed entry.1 entry.2)
    (hlisted' : ∀ entry ∈ manifest'.slots.entries, Listed entry.1 entry.2)
    (h : manifest.layout = .ok layout) (h' : manifest'.layout = .ok layout) :
    ∀ entry ∈ manifest.slots.entries, entry ∈ manifest'.slots.entries := by
  rintro ⟨slot, groups⟩ hentry
  have hshows := shows_of_layout (fun e he => (hlisted e he).fit) h
  have hshows' := shows_of_layout (fun e he => (hlisted' e he).fit) h'
  obtain ⟨rows, hrows⟩ := rowsOf_ok (hlisted _ hentry).fit
  obtain ⟨groups', hentry', hrows'⟩ :=
    (hshows'.rows slot rows).mp ((hshows.rows slot rows).mpr ⟨groups, hentry, hrows⟩)
  have hgroups : groups = groups' :=
    (hlisted _ hentry).eq_of_rowsOf (hlisted' _ hentry') hrows hrows'
  exact hgroups ▸ hentry'

theorem Manifest.render_ok {manifest : Manifest} {text : String} (h : manifest.render = .ok text) :
    ∃ layout, manifest.layout = .ok layout ∧
      text = notice ++ Toml.documentText (manifest.fileFields layout) := by
  obtain ⟨layout, hlayout, h⟩ := bind_eq_ok.mp h
  exact ⟨layout, hlayout, (Except.ok.inj h).symm⟩

/-- Manifests with one text are equal, if their groups are listed in order. -/
theorem Manifest.eq_of_render {manifest manifest' : Manifest} {text : String}
    (hlisted : ∀ entry ∈ manifest.slots.entries, Listed entry.1 entry.2)
    (hlisted' : ∀ entry ∈ manifest'.slots.entries, Listed entry.1 entry.2)
    (h : manifest.render = .ok text) (h' : manifest'.render = .ok text) :
    manifest = manifest' := by
  obtain ⟨layout, hlayout, rfl⟩ := render_ok h
  obtain ⟨layout', hlayout', htext⟩ := render_ok h'
  obtain ⟨hversions, haliases, rfl⟩ :=
    fileText_injective (regular_of_layout hlayout) (regular_of_layout hlayout') htext
  have hslots : manifest.slots = manifest'.slots := Table.ext_mem fun entry =>
    ⟨mem_slots_of_layout hlisted hlisted' hlayout hlayout' entry,
      mem_slots_of_layout hlisted' hlisted hlayout' hlayout entry⟩
  cases manifest
  cases manifest'
  exact Manifest.mk.injEq .. ▸ ⟨hversions, haliases, hslots⟩

/-- Under an accepted configuration, the groups of a computed manifest are listed in order. -/
theorem Computed.MadeFrom.listed {text : String} {format : ConfigFormat} {config : SlotConfig}
    (hconfig : SlotConfig.ofText text format = .ok config) {corpus : Corpus} {computed : Computed}
    (h : computed.MadeFrom corpus config) :
    ∀ entry ∈ computed.manifest.slots.entries, Listed entry.1 entry.2 := by
  rintro ⟨slot, groups⟩ hentry
  have hfit := fit_of_buildManifest hconfig h.grouped h.built _ hentry
  obtain ⟨hslot, rfl⟩ := h.mem_slots_iff.mp hentry
  have hclass := h.classified hslot
  refine ⟨hfit, hclass.ascending, hclass.filed, ?_⟩
  rintro t rfl g hg bucket hb
  obtain ⟨e, -, v, hplaced⟩ := hclass.exists_placed hg hb
  exact eq_none_of_placement? hplaced

/-- A computed manifest comes with its text and the digest of the text. -/
theorem rendered_of_compute {corpus : Corpus} {config : SlotConfig} {computed : Computed}
    (h : (compute corpus config).value = .ok computed) :
    computed.manifest.render = .ok computed.text ∧
      computed.digest = Digest.ofText computed.text := by
  rw [compute_value] at h
  obtain ⟨reduction, -, h⟩ := bind_eq_ok.mp h
  obtain ⟨slotGroups, -, h⟩ := bind_eq_ok.mp h
  obtain ⟨manifest, -, h⟩ := bind_eq_ok.mp h
  obtain ⟨text, htext, h⟩ := bind_eq_ok.mp h
  obtain rfl := Except.ok.inj h
  exact ⟨reported_ok htext, rfl⟩

/-- A text on file is taken for that of the inputs only if its digest is the same. -/
theorem digest_of_checkManifest {corpus : Corpus} {config : SlotConfig} {file digest : String}
    (h : (checkManifest corpus config (some file)).value = .ok (.upToDate digest)) :
    ∃ computed, (compute corpus config).value = .ok computed ∧
      Digest.ofText computed.text = Digest.ofText file := by
  rw [checkManifest, Logged.value_thenTry] at h
  obtain ⟨computed, hcomputed, h⟩ := bind_eq_ok.mp h
  refine ⟨computed, hcomputed, ?_⟩
  rw [← (rendered_of_compute hcomputed).2]
  have hstatus : computed.status (some file) = .upToDate digest := Except.ok.inj h
  rw [Computed.status] at hstatus
  split at hstatus
  · rename_i hfound
    exact (Option.some.inj hfound).symm
  · cases hstatus

/-- Manifests that were computed under accepted configurations can be laid out, and two of them
have one text only if they are equal. So a check takes the text of another manifest for up to date
only if two different texts have one digest. -/
theorem compute_render_injective {text text' : String} {format format' : ConfigFormat}
    {config config' : SlotConfig} (hconfig : SlotConfig.ofText text format = .ok config)
    (hconfig' : SlotConfig.ofText text' format' = .ok config') {corpus corpus' : Corpus}
    {computed computed' : Computed} (h : (compute corpus config).value = .ok computed)
    (h' : (compute corpus' config').value = .ok computed') :
    computed.manifest.render = .ok computed.text ∧
      computed'.manifest.render = .ok computed'.text ∧
      (computed.text = computed'.text → computed.manifest = computed'.manifest) ∧
      ∀ digest, (checkManifest corpus config (some computed'.text)).value =
          .ok (.upToDate digest) →
        computed.manifest = computed'.manifest ∨
          computed.text ≠ computed'.text ∧
            Digest.ofText computed.text = Digest.ofText computed'.text := by
  have hrender := (rendered_of_compute h).1
  have hrender' := (rendered_of_compute h').1
  have hinjective : computed.text = computed'.text → computed.manifest = computed'.manifest := by
    intro htext
    rw [← htext] at hrender'
    exact Manifest.eq_of_render ((madeFrom_of_compute h).listed hconfig)
      ((madeFrom_of_compute h').listed hconfig') hrender hrender'
  refine ⟨hrender, hrender', hinjective, fun digest hcheck => ?_⟩
  obtain ⟨found, hfound, hdigest⟩ := digest_of_checkManifest hcheck
  obtain rfl := Except.ok.inj (h.symm.trans hfound)
  by_cases htext : computed.text = computed'.text
  · exact .inl (hinjective htext)
  · exact .inr ⟨htext, hdigest⟩

def bareConfig : SlotConfig where
  range := ⟨1, none⟩
  registry :=
    { slots := []
      ascending := .nil
      distinct := List.nodup_nil
      filled := fun _ h => by cases h }

def pointSlot : Slot := .packet ⟨.toServer, "play", "a.b"⟩

/-- One packet is tracked, and its name needs quotes in the file. -/
def pointConfig : SlotConfig where
  range := ⟨1, none⟩
  registry :=
    { slots := [pointSlot]
      ascending := List.pairwise_singleton ..
      distinct := List.nodup_singleton _
      filled := by decide }

def pointConfigText : String := "min_version = 1\n[packets.c2s]\nplay = [\"a.b\"]\n"

/-- A tracked packet that no version has shows in the text. -/
theorem compute_render_injective_point : ∃ computed computed',
    SlotConfig.ofText "min_version = 1\n" .toml = .ok bareConfig ∧
      SlotConfig.ofText pointConfigText .toml = .ok pointConfig ∧
      (compute pingCorpus bareConfig).value = .ok computed ∧
      (compute pingCorpus pointConfig).value = .ok computed' ∧
      computed'.manifest.groups pointSlot = [] ∧ computed.text ≠ computed'.text := by
  have hbare : SlotConfig.ofText "min_version = 1\n" .toml = .ok bareConfig :=
    SlotConfig.ofText_eq (by decide +kernel)
  have hpoint : SlotConfig.ofText pointConfigText .toml = .ok pointConfig :=
    SlotConfig.ofText_eq (by decide +kernel)
  obtain ⟨computed, h⟩ : ∃ computed, (compute pingCorpus bareConfig).value = .ok computed :=
    ⟨_, rfl⟩
  have hempty : (compute pingCorpus pointConfig).value.toOption.map (fun computed' =>
      (computed'.manifest.groups pointSlot).isEmpty) = some true := by
    decide +kernel
  cases h' : (compute pingCorpus pointConfig).value with
  | error report =>
      rw [h'] at hempty
      cases hempty
  | ok computed' =>
      rw [h'] at hempty
      have hgroups := List.isEmpty_iff.mp (Option.some.inj hempty)
      obtain ⟨-, -, hinjective, -⟩ := compute_render_injective hbare hpoint h h'
      refine ⟨computed, computed', hbare, hpoint, h, rfl, hgroups, ?_⟩
      intro htext
      have hlisted := (madeFrom_of_compute h').mem_slots_iff.mpr
        ⟨(List.mem_cons_self : pointSlot ∈ pointConfig.registry.slots), hgroups⟩
      rw [← hinjective htext] at hlisted
      cases ((madeFrom_of_compute h).mem_slots_iff.mp hlisted).1

end VersionGroups
