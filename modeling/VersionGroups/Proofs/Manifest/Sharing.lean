import VersionGroups.Proofs.Config.Tracked
import VersionGroups.Proofs.Grouping.Classes
import VersionGroups.Proofs.Grouping.Mirror
import VersionGroups.Proofs.Manifest.Coverage
import VersionGroups.Proofs.Manifest.Independence

/-!
# Versions that share a group

A listed version has the surface of the kept version that it stands for, because their documents are
the same. The kept versions are in one group exactly when they have the same surface, so this holds
of any two listed versions, although most pairs of them have never been compared.
-/
namespace VersionGroups
open VersionGroups.Equivalence

namespace Computed.MadeFrom
variable {corpus : Corpus} {config : SlotConfig} {computed : Computed} {slot : Slot}
  {groups : List OpenGroup} {g : OpenGroup} {w : Option WireId} {v k : Version}

theorem mem_versions (h : computed.MadeFrom corpus config)
    (hpart : Partition (config.relation computed.reduction.kept) computed.reduction.kept slot
      computed.reduction.kept.entries groups) (hg : g ∈ groups) :
    v ∈ (g.group.expand computed.reduction.aliases).versions ↔
      ∃ w k, (w, k) ∈ g.group.buckets.placements ∧ StandsFor (corpus.within config.range) v k := by
  rw [ManifestGroup.versions, mem_distinctVersions, Buckets.mem_versions]
  exact exists_congr fun w => h.mem_group hpart hg

/-- A version has the surface of the placed version that it stands for. -/
theorem sameSurface (h : computed.MadeFrom corpus config)
    (hpart : Partition (config.relation computed.reduction.kept) computed.reduction.kept slot
      computed.reduction.kept.entries groups) (hg : g ∈ groups)
    (hk : (w, k) ∈ g.group.buckets.placements)
    (hs : StandsFor (corpus.within config.range) v k) :
    ∃ d spec d' spec', corpus.get? v = some d ∧
      (viewOf (v, d)).slotSpec? slot = .ok (some spec) ∧
      (k, d') ∈ computed.reduction.kept.entries ∧
      (viewOf (k, d')).slotSpec? slot = .ok (some spec') ∧
      SameSurface config.registry.types (viewOf (k, d')) (viewOf (v, d)) spec' spec := by
  obtain ⟨d, d', hd, hd', same⟩ := h.canonical.same_document hs
  obtain ⟨d₁, hd₁, hplaced⟩ := hpart.mem_taken hg hk
  obtain rfl := Table.eq_of_mem hd' hd₁
  obtain ⟨-, ⟨spec', hspec'⟩, -⟩ := placement?_eq_some.mp hplaced
  obtain ⟨spec, hspec, hsame⟩ := View.slotSpec?_of_same (w := viewOf (v, d)) same hspec'
  exact ⟨d, spec, d', spec', (Corpus.mem_within.mp hd).1, hspec, hd', hspec',
    .of_document same hsame⟩

end Computed.MadeFrom

/-- Any two versions that are listed for a tracked slot, aliases included, are listed in one group
exactly when their own documents give the slot the same definition and agree on every tracked type
that this definition reaches. -/
theorem compute_classifies {corpus : Corpus} {config : SlotConfig} {computed : Computed}
    (h : (compute corpus config).value = .ok computed) {slot : Slot}
    (hslot : slot ∈ config.registry.slots) {a b : Version}
    (ha : ∃ g ∈ computed.manifest.groups slot, a ∈ g.versions)
    (hb : ∃ g ∈ computed.manifest.groups slot, b ∈ g.versions) :
    ∃ d spec d' spec',
      corpus.get? a = some d ∧ View.slotSpec? ⟨a, d⟩ slot = .ok (some spec) ∧
      corpus.get? b = some d' ∧ View.slotSpec? ⟨b, d'⟩ slot = .ok (some spec') ∧
      ((∃ g ∈ computed.manifest.groups slot, a ∈ g.versions ∧ b ∈ g.versions) ↔
        (spec == spec') = true ∧
          ∀ t, Reaches config.registry.types ⟨a, d⟩ spec t → Agree ⟨a, d⟩ ⟨b, d'⟩ t) := by
  have hmade := madeFrom_of_compute h
  obtain ⟨groups, hpart, hgroups⟩ := hmade.groups hslot
  have distinct := config.registry.types_distinct
  simp only [hgroups, List.mem_map, exists_exists_and_eq_and] at ha hb ⊢
  obtain ⟨g, hg, ha⟩ := ha
  obtain ⟨g', hg', hb⟩ := hb
  obtain ⟨w, k, hk, hak⟩ := (hmade.mem_versions hpart hg).mp ha
  obtain ⟨w', k', hk', hbk'⟩ := (hmade.mem_versions hpart hg').mp hb
  obtain ⟨d, spec, e, espec, hget, hspec, he, hespec, hsurface⟩ := hmade.sameSurface hpart hg hk hak
  obtain ⟨d', spec', e', espec', hget', hspec', he', hespec', hsurface'⟩ :=
    hmade.sameSurface hpart hg' hk' hbk'
  refine ⟨d, spec, d', spec', hget, hspec, hget', hspec', ?_, ?_⟩
  · rintro ⟨g₁, hg₁, ha₁, hb₁⟩
    obtain ⟨w₁, k₁, hk₁, hak₁⟩ := (hmade.mem_versions hpart hg₁).mp ha₁
    obtain ⟨w₁', k₁', hk₁', hbk₁'⟩ := (hmade.mem_versions hpart hg₁).mp hb₁
    obtain rfl := hak.unique hak₁
    obtain rfl := hbk'.unique hbk₁'
    have hkept := (hpart.eq_iff_sameSurface distinct hg₁ hg₁ hk₁ hk₁' he hespec he' hespec').mp rfl
    have hsame := (hsurface.symm.trans hkept).trans hsurface'
    exact ⟨hsame.same, hsame.agree⟩
  · rintro ⟨hsame, hagree⟩
    have hkept := (hsurface.trans ⟨hsame, hagree⟩).trans hsurface'.symm
    obtain rfl := (hpart.eq_iff_sameSurface distinct hg hg' hk hk' he hespec he' hespec').mpr hkept
    exact ⟨g, hg, ha, hb⟩

section
open Json

/-- A document with one packet, under a given wire id, that carries a shared type. -/
def cargoDocument (key cargo : String) : Document :=
  let mapper := obj [("mappings", obj [(key, str "ping")])]
  let switch := obj [("fields", obj [("ping", str "packet_ping")])]
  let fields := [
    obj [("name", str "name"), ("type", arr [str "mapper", mapper])],
    obj [("name", str "params"), ("type", arr [str "switch", switch])]]
  let types :=
    obj [("packet", arr [str "container", arr fields]), ("packet_ping", reference "cargo")]
  ⟨obj [("types", obj [("cargo", str cargo)]),
    ("play", obj [("toServer", obj [("types", types)])])]⟩

end

/-- What the shared type is under a version: the last version changes it. -/
def cargoOf (v : Version) : String := if v < 4 then "i32" else "i64"

/-- The first two documents differ in the wire id of the packet, and the third repeats the
second. -/
def cargoCorpus : Corpus :=
  .ofList [(1, cargoDocument "0x00" (cargoOf 1)), (2, cargoDocument "0x01" (cargoOf 2)),
    (3, cargoDocument "0x01" (cargoOf 3)), (4, cargoDocument "0x01" (cargoOf 4))]

def cargoType : TypeName := ⟨.common, "cargo"⟩

/-- All versions, with the packet and the shared type tracked. -/
def cargoConfig : SlotConfig where
  range := ⟨1, none⟩
  registry :=
    { slots := [pingSlot, .type cargoType]
      ascending := by decide
      distinct := by decide
      filled := by decide }

/-- Equivalence under the versions of that corpus, told by what the shared type is. -/
def cargoRelation : Relation := fun left spec right other =>
  .ok (spec == other && (!cargoType.isMentionedIn spec || cargoOf left == cargoOf right))

theorem structural_cargo {corpus : Corpus} {left right : View} (spec other : Json)
    (hleft : corpus.get? left.version = some left.document)
    (hright : corpus.get? right.version = some right.document)
    (hl : left.typeSpec? cargoType = some (.str (cargoOf left.version)))
    (hr : right.typeSpec? cargoType = some (.str (cargoOf right.version))) :
    structural corpus [cargoType] left.version spec right.version other =
      cargoRelation left.version spec right.version other := by
  have hagree : Agree left right cargoType ↔ cargoOf left.version = cargoOf right.version := by
    rw [agree_of_some hl hr]
    exact @beq_iff_eq String _ _ _ _
  rw [cargoRelation]
  cases hsame : spec == other with
  | false => exact structural_of_differ hsame
  | true =>
      cases hm : cargoType.isMentionedIn spec with
      | false => exact structural_of_search hleft hright hsame (.skip hm .done)
      | true =>
          by_cases heq : cargoOf left.version = cargoOf right.version
          · rw [structural_of_search hleft hright hsame (.inside hm ⟨rfl, rfl⟩ hl hr
              ((agree_of_some hl hr).mp (hagree.mpr heq)) (.skip rfl .done) .done)]
            simp [heq, Except.map]
          · rw [structural_of_search hleft hright hsame (.differ hm ⟨rfl, rfl⟩
              (mt hagree.mp heq))]
            simp [heq, Except.map]

theorem compute_cargo : ∃ computed, (compute cargoCorpus cargoConfig).value = .ok computed := by
  obtain ⟨reduction, hreduce, hentries⟩ : ∃ reduction,
      reduce cargoCorpus ⟨1, none⟩ = .ok reduction ∧
        reduction.kept.entries = [(1, cargoDocument "0x00" "i32"),
          (2, cargoDocument "0x01" "i32"), (4, cargoDocument "0x01" "i64")] := ⟨_, rfl, rfl⟩
  have htype : ∀ e ∈ reduction.kept.entries,
      (viewOf e).typeSpec? cargoType = some (.str (cargoOf e.1)) := by
    rw [hentries]
    exact List.forall_mem_cons.mpr ⟨rfl, List.forall_mem_cons.mpr
      ⟨rfl, List.forall_mem_singleton.mpr rfl⟩⟩
  have hagree (slot : Slot) :
      (cargoConfig.relation reduction.kept).AgreeOn cargoRelation reduction.kept slot :=
    fun _ head _ spec _ ⟨_, hd, _⟩ ⟨_, hd', _⟩ =>
      structural_cargo head spec (get?_viewOf hd) (get?_viewOf hd') (htype _ hd) (htype _ hd')
  have hvalue : (compute cargoCorpus cargoConfig).value =
      (computeWith (fun _ => cargoRelation) cargoCorpus cargoConfig).value := by
    rw [compute_value, computeWith_value,
      show reduce cargoCorpus cargoConfig.range = _ from hreduce]
    exact congrArg (· >>= _) (groupSlots_congr fun slot _ => groupSlot_congr (hagree slot))
  have hok : (compute cargoCorpus cargoConfig).value.toBool = true := by
    rw [hvalue]
    decide +kernel
  cases h : (compute cargoCorpus cargoConfig).value with
  | ok computed => exact ⟨computed, rfl⟩
  | error report =>
      rw [h] at hok
      cases hok

/-- The first version and an alias share a group, and the last version has another one, because the
type that the packet carries has changed. -/
theorem compute_classifies_alias : ∃ computed,
    (compute cargoCorpus cargoConfig).value = .ok computed ∧
      (∃ g ∈ computed.manifest.groups pingSlot, 1 ∈ g.versions ∧ 3 ∈ g.versions) ∧
      ¬∃ g ∈ computed.manifest.groups pingSlot, 3 ∈ g.versions ∧ 4 ∈ g.versions := by
  obtain ⟨computed, h⟩ := compute_cargo
  have hslot : pingSlot ∈ cargoConfig.registry.slots := List.mem_cons_self
  have hmade := madeFrom_of_compute h
  have hlisted : ∀ v d w, cargoCorpus.get? v = some d ∧ cargoConfig.range.contains v = true →
      placement? pingSlot (v, d) = some (w, v) →
        ∃ g ∈ computed.manifest.groups pingSlot, v ∈ g.versions :=
    fun v d w hd hplaced => Manifest.exists_placement.mp
      ⟨w, (hmade.mem_placements_iff hslot).mpr ⟨d, Corpus.mem_within.mpr hd, hplaced⟩⟩
  have hfirst := hlisted 1 (cargoDocument "0x00" "i32") (WireId.ofNat? 0) ⟨rfl, rfl⟩ rfl
  have halias := hlisted 3 (cargoDocument "0x01" "i32") (WireId.ofNat? 1) ⟨rfl, rfl⟩ rfl
  have hlast := hlisted 4 (cargoDocument "0x01" "i64") (WireId.ofNat? 1) ⟨rfl, rfl⟩ rfl
  have hmentions : Mentions cargoConfig.registry.types (reference "cargo") cargoType :=
    ⟨List.mem_singleton.mpr rfl, "cargo", List.mem_cons_self, names_reference "cargo"⟩
  refine ⟨computed, h, ?_, ?_⟩
  · obtain ⟨d, spec, d', spec', hd, hspec, hd', hspec', hshare⟩ :=
      compute_classifies h hslot hfirst halias
    obtain rfl : cargoDocument "0x00" "i32" = d := Option.some.inj hd
    obtain rfl : cargoDocument "0x01" "i32" = d' := Option.some.inj hd'
    obtain rfl : reference "cargo" = spec := Option.some.inj (Except.ok.inj hspec)
    obtain rfl : reference "cargo" = spec' := Option.some.inj (Except.ok.inj hspec')
    refine hshare.mpr ⟨rfl, fun t ht => ?_⟩
    obtain rfl := List.mem_singleton.mp ht.mem
    exact .some rfl
  · obtain ⟨d, spec, d', spec', hd, hspec, hd', -, hshare⟩ :=
      compute_classifies h hslot halias hlast
    obtain rfl : cargoDocument "0x01" "i32" = d := Option.some.inj hd
    obtain rfl : cargoDocument "0x01" "i64" = d' := Option.some.inj hd'
    obtain rfl : reference "cargo" = spec := Option.some.inj (Except.ok.inj hspec)
    intro hboth
    have hagree := (hshare.mp hboth).2 cargoType (.mention hmentions)
    cases (agree_of_some rfl rfl).mp hagree

end VersionGroups
