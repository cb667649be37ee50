import Mathlib.Data.List.Nodup
import VersionGroups.Proofs.Corpus.Faults
import VersionGroups.Proofs.Grouping.Partition

/-!
# Grouping under any relation

Nothing is assumed of the relation here: it need not be an equivalence, and it may fail. Which
versions come to represent a group is told without the groups: a version leads if it is related to
no leading version before it. Grouping succeeds if every version is related to one leading version
at most, and then every version is in the group of its leader. It stops at the first version that is
related to two of them, unless a document or the relation gives no answer before that.
-/
namespace VersionGroups

/-- A version leads if it defines the slot and is related to no leading version before it. -/
def Leads (relation : Relation) (corpus : Corpus) (slot : Slot) (v : Version) (spec : Json) :
    Prop :=
  Defines corpus slot v spec ∧
    ∀ r, r < v → ∀ head, Leads relation corpus slot r head → relation r head v spec ≠ .ok true
termination_by v

/-- A leading version before `v` to which `v` is related. -/
def Attracts (relation : Relation) (corpus : Corpus) (slot : Slot) (r v : Version) (spec : Json) :
    Prop :=
  r < v ∧ ∃ head, Leads relation corpus slot r head ∧ relation r head v spec = .ok true

/-- A version that is related to two leading versions before it. -/
def Torn (relation : Relation) (corpus : Corpus) (slot : Slot) (v : Version) : Prop :=
  ∃ spec, Defines corpus slot v spec ∧ ∃ r r', r < r' ∧
    Attracts relation corpus slot r v spec ∧ Attracts relation corpus slot r' v spec

/-- The least version that is related to two leading versions before it, with the first two. -/
structure Ambiguous (relation : Relation) (corpus : Corpus) (slot : Slot)
    (v first second : Version) : Prop where
  least : ∀ u, u < v → ¬ Torn relation corpus slot u
  earliest : ∃ spec, Defines corpus slot v spec ∧ first < second ∧
    Attracts relation corpus slot first v spec ∧ Attracts relation corpus slot second v spec ∧
      ∀ r, Attracts relation corpus slot r v spec → r = first ∨ second ≤ r

/-- A question about a version that fails, to its document or to the relation. -/
inductive Raises (relation : Relation) (corpus : Corpus) (slot : Slot) (v : Version)
    (fault : Fault) : Prop
  | spec {d : Document} (hd : (v, d) ∈ corpus.entries)
      (h : (viewOf (v, d)).slotSpec? slot = .error fault)
  | wireId {d : Document} {spec : Json} (hd : (v, d) ∈ corpus.entries)
      (hspec : (viewOf (v, d)).slotSpec? slot = .ok (some spec))
      (h : (viewOf (v, d)).slotWireId? slot = .error fault)
  | relation {r : Version} {head spec : Json} (hr : Leads relation corpus slot r head)
      (hlt : r < v) (hspec : Defines corpus slot v spec)
      (h : relation r head v spec = .error fault)

/-- What holds of the groups of a slot under any relation. -/
structure SlotGroups.Arranged (relation : Relation) (corpus : Corpus) (out : SlotGroups) :
    Prop where
  members : ∀ v, (∃ g ∈ out.groups, v ∈ g.members) ↔ ∃ spec, Defines corpus out.slot v spec
  once : ∀ g ∈ out.groups, ∀ v ∈ g.members,
    (out.groups.flatMap fun g => g.buckets.placements).countP (·.2 == v) = 1
  wireIds : ∀ g ∈ out.groups, ∀ w v, (w, v) ∈ g.buckets.placements →
    ∃ d, corpus.get? v = some d ∧ View.slotWireId? ⟨v, d⟩ out.slot = .ok w
  least : ∀ g ∈ out.groups,
    g.representative ∈ g.members ∧ ∀ v ∈ g.members, g.representative ≤ v
  leaders : ∀ v, (∃ g ∈ out.groups, g.representative = v) ↔
    ∃ spec, Leads relation corpus out.slot v spec
  groupOrder : out.groups.Pairwise fun g h => g.representative < h.representative
  bucketOrder : ∀ g ∈ out.groups, ∀ bucket ∈ g.buckets.entries, bucket.2.Pairwise (· < ·)
  joined : ∀ g ∈ out.groups, ∀ v ∈ g.members, v ≠ g.representative →
    ∀ head spec, Defines corpus out.slot g.representative head → Defines corpus out.slot v spec →
      relation g.representative head v spec = .ok true
  apart : ∀ g ∈ out.groups, ∀ v ∈ g.members, ∀ h ∈ out.groups, h.representative < v →
    h.representative ≠ g.representative →
      ∀ head spec, Defines corpus out.slot h.representative head →
        Defines corpus out.slot v spec → relation h.representative head v spec = .ok false

variable {relation : Relation} {corpus : Corpus} {slot : Slot}
  {taken rest : List (Version × Document)} {groups : List OpenGroup} {u v : Version}
  {d e : Document} {head spec : Json} {fault : Fault}

theorem Leads.defines (h : Leads relation corpus slot v spec) : Defines corpus slot v spec := by
  rw [Leads] at h
  exact h.1

theorem Leads.unrelated {r : Version} (h : Leads relation corpus slot v spec) (hlt : r < v)
    (hr : Leads relation corpus slot r head) : relation r head v spec ≠ .ok true := by
  rw [Leads] at h
  exact h.2 r hlt head hr

theorem Ambiguous.torn {first second : Version}
    (h : Ambiguous relation corpus slot v first second) : Torn relation corpus slot v := by
  obtain ⟨spec, hdef, hlt, hfirst, hsecond, -⟩ := h.earliest
  exact ⟨spec, hdef, first, second, hlt, hfirst, hsecond⟩

/-- The least torn version and its first two leaders are determined. -/
theorem Ambiguous.unique {first second first' second' : Version}
    (h : Ambiguous relation corpus slot v first second)
    (h' : Ambiguous relation corpus slot u first' second') :
    v = u ∧ first = first' ∧ second = second' := by
  rcases Nat.lt_trichotomy v u with hlt | rfl | hgt
  · exact absurd h.torn (h'.least v hlt)
  · obtain ⟨spec, hdef, hlt, hfirst, hsecond, hleast⟩ := h.earliest
    obtain ⟨spec', hdef', hlt', hfirst', hsecond', hleast'⟩ := h'.earliest
    obtain rfl := hdef.unique hdef'
    have order : ∀ a b a' b' : Nat, a < b → a' < b' → (a = a' ∨ b' ≤ a) → (b = a' ∨ b' ≤ b) →
        (a' = a ∨ b ≤ a') → (b' = a ∨ b ≤ b') → a = a' ∧ b = b' := by omega
    exact ⟨rfl, order _ _ _ _ hlt hlt' (hleast' first hfirst) (hleast' second hsecond)
      (hleast first' hfirst') (hleast second' hsecond')⟩
  · exact absurd h'.torn (h.least u hgt)

namespace Partition

theorem taken_of_lt_next (hall : corpus.entries = taken ++ (v, d) :: rest)
    (hu : (u, e) ∈ corpus.entries) (hlt : u < v) : (u, e) ∈ taken := by
  have hasc := Table.versions_ascending corpus
  rw [hall, List.pairwise_append] at hasc
  rw [hall] at hu
  rcases List.mem_append.mp hu with hu | hu
  · exact hu
  · rcases List.mem_cons.mp hu with heq | hu
    · exact absurd (congrArg Prod.fst heq) (Nat.ne_of_lt hlt)
    · exact absurd ((List.pairwise_cons.mp hasc.2.1).1 _ hu) (Nat.lt_asymm hlt)

section
variable (h : Partition relation corpus slot taken groups)
  (hall : corpus.entries = taken ++ rest)
include h hall

theorem placed_of_taken (hv : (v, d) ∈ taken) (hdef : Defines corpus slot v spec) :
    ∃ g ∈ groups, ∃ w, (w, v) ∈ g.group.buckets.placements := by
  obtain ⟨d', hd', hspec⟩ := hdef
  have hd : (v, d) ∈ corpus.entries := hall ▸ List.mem_append_left _ hv
  obtain rfl := Table.eq_of_mem hd hd'
  exact h.placed_of_defines hv hspec

/-- The representatives among the versions taken are the leading versions. -/
theorem leads_iff (hv : (v, d) ∈ taken) :
    Leads relation corpus slot v spec ↔
      ∃ g ∈ groups, g.group.representative = v ∧ g.head = spec := by
  induction v using Nat.strongRecOn generalizing d spec with
  | ind v ih =>
    constructor
    · intro hleads
      obtain ⟨g, hg, w, hw⟩ := h.placed_of_taken hall hv hleads.defines
      rcases Nat.lt_or_eq_of_le (h.least g hg _ hw) with hlt | heq
      · obtain ⟨e, he, hhead⟩ := h.headed g hg
        have hearlier := (ih _ hlt (taken_of_lt hall hv he hlt)).mpr ⟨g, hg, rfl, rfl⟩
        have hjudged := h.judged g hg _ hw spec hleads.defines g hg hlt
        rw [decide_eq_true rfl] at hjudged
        exact absurd hjudged (hleads.unrelated hlt hearlier)
      · have hhead := h.headed g hg
        rw [heq] at hhead
        exact ⟨g, hg, heq, hhead.unique hleads.defines⟩
    · rintro ⟨g, hg, rfl, rfl⟩
      rw [Leads]
      refine ⟨h.headed g hg, ?_⟩
      intro r hlt head hr htrue
      obtain ⟨e, he, -⟩ := hr.defines
      obtain ⟨g', hg', rfl, rfl⟩ := (ih r hlt (taken_of_lt hall hv he hlt)).mp hr
      obtain ⟨w, hw⟩ := h.led g hg
      have hjudged := h.judged g hg _ hw g.head (h.headed g hg) g' hg' hlt
      rw [decide_eq_false (Nat.ne_of_lt hlt), htrue] at hjudged
      cases hjudged

/-- What attracts a version that comes after those taken, or is the last of them. -/
theorem exists_of_attracts {r : Version} (hr : Attracts relation corpus slot r v spec)
    (hbefore : ∀ u e, (u, e) ∈ corpus.entries → u < v → (u, e) ∈ taken) :
    ∃ g ∈ groups, g.group.representative = r ∧ r < v ∧
      relation g.group.representative g.head v spec = .ok true := by
  obtain ⟨hlt, head, hleads, htrue⟩ := hr
  obtain ⟨e, he, -⟩ := hleads.defines
  obtain ⟨g, hg, rfl, rfl⟩ := (h.leads_iff hall (hbefore r e he hlt)).mp hleads
  exact ⟨g, hg, rfl, hlt, htrue⟩

theorem not_torn (hv : (v, d) ∈ taken) : ¬ Torn relation corpus slot v := by
  rintro ⟨spec, hdef, r, r', hlt, hr, hr'⟩
  obtain ⟨g, hg, w, hw⟩ := h.placed_of_taken hall hv hdef
  have hbefore : ∀ u e, (u, e) ∈ corpus.entries → u < v → (u, e) ∈ taken :=
    fun u e he hlt => taken_of_lt hall hv he hlt
  obtain ⟨k, hk, rfl, hkv, htrue⟩ := h.exists_of_attracts hall hr hbefore
  obtain ⟨k', hk', rfl, hkv', htrue'⟩ := h.exists_of_attracts hall hr' hbefore
  have hjudged := h.judged g hg _ hw spec hdef k hk hkv
  have hjudged' := h.judged g hg _ hw spec hdef k' hk' hkv'
  rw [htrue] at hjudged
  rw [htrue'] at hjudged'
  have heq := of_decide_eq_true (Except.ok.inj hjudged).symm
  have heq' := of_decide_eq_true (Except.ok.inj hjudged').symm
  exact Nat.ne_of_lt hlt (heq.trans heq'.symm)

end

theorem not_torn_before (h : Partition relation corpus slot taken groups)
    (hall : corpus.entries = taken ++ (v, d) :: rest) (hlt : u < v) :
    ¬ Torn relation corpus slot u := by
  intro htorn
  have hdef := htorn
  obtain ⟨spec, ⟨e, he, -⟩, -⟩ := hdef
  exact h.not_torn hall (taken_of_lt_next hall he hlt) htorn

/-- What keeps the first version after those taken from being filed. -/
theorem raises_or_ambiguous (h : Partition relation corpus slot taken groups)
    (hall : corpus.entries = taken ++ (v, d) :: rest)
    (hstep : groupVersion relation slot groups (v, d) = .error fault) :
    Raises relation corpus slot v fault ∨ ∃ first second,
      fault = .ambiguousGroup slot.label v first second ∧
        Ambiguous relation corpus slot v first second := by
  have hd : (v, d) ∈ corpus.entries := by simp [hall]
  have hbefore : ∀ u e, (u, e) ∈ corpus.entries → u < v → (u, e) ∈ taken :=
    fun u e he hlt => taken_of_lt_next hall he hlt
  have hleads : ∀ g ∈ groups, g.group.representative < v ∧
      Leads relation corpus slot g.group.representative g.head := by
    intro g hg
    obtain ⟨w, hw⟩ := h.led g hg
    obtain ⟨e, he, -⟩ := h.mem_taken hg hw
    exact ⟨lt_next hall he, (h.leads_iff hall he).mpr ⟨g, hg, rfl, rfl⟩⟩
  rcases groupVersion_error hstep with hspec | ⟨spec, hspec, hwire | hmatch⟩
  · exact .inl (.spec hd hspec)
  · exact .inl (.wireId hd hspec hwire)
  · have hdef : Defines corpus slot v spec := ⟨d, hd, hspec⟩
    rcases matchGroup_none_error h.ascending hmatch with
      ⟨g, hg, herror⟩ | ⟨g, hg, g', hg', hlt, htrue, htrue', hfault, hbetween⟩
    · exact .inl (.relation (hleads g hg).2 (hleads g hg).1 hdef herror)
    · refine .inr ⟨_, _, hfault, ?_, spec, hdef, hlt, ?_, ?_, ?_⟩
      · exact fun u hu => h.not_torn_before hall hu
      · exact ⟨(hleads g hg).1, g.head, (hleads g hg).2, htrue⟩
      · exact ⟨(hleads g' hg').1, g'.head, (hleads g' hg').2, htrue'⟩
      · intro r hr
        obtain ⟨k, hk, rfl, -, hktrue⟩ := h.exists_of_attracts hall hr hbefore
        by_cases hfirst : k.group.representative = g.group.representative
        · exact .inl hfirst
        · refine .inr (Nat.le_of_not_lt fun hkg' => ?_)
          rw [hbetween k hk hkg' hfirst] at hktrue
          cases hktrue

/-- The groups of a partition of a whole corpus are arranged. -/
theorem arranged (h : Partition relation corpus slot corpus.entries groups) :
    SlotGroups.Arranged relation corpus ⟨slot, groups.map (·.group)⟩ := by
  constructor
  · intro v
    constructor
    · rintro ⟨_, hmap, hv⟩
      obtain ⟨g, hg, rfl⟩ := List.mem_map.mp hmap
      obtain ⟨w, hw⟩ := Group.mem_members.mp hv
      obtain ⟨d, hd, hplaced⟩ := h.mem_taken hg hw
      obtain ⟨-, ⟨spec, hspec⟩, -⟩ := placement?_eq_some.mp hplaced
      exact ⟨spec, d, hd, hspec⟩
    · rintro ⟨spec, d, hd, hspec⟩
      obtain ⟨g, hg, w, hw⟩ := h.placed_of_defines hd hspec
      exact ⟨g.group, List.mem_map_of_mem hg, Group.mem_members.mpr ⟨w, hw⟩⟩
  · intro _ hmap v hv
    obtain ⟨g, hg, rfl⟩ := List.mem_map.mp hmap
    obtain ⟨w, hw⟩ := Group.mem_members.mp hv
    have hmem : (w, v) ∈ groups.flatMap fun g => g.group.buckets.placements :=
      List.mem_flatMap.mpr ⟨g, hg, hw⟩
    have honce := List.count_eq_one_of_mem h.nodup (List.mem_map_of_mem (f := Prod.snd) hmem)
    rw [List.count_eq_countP, List.countP_map] at honce
    simpa [List.flatMap_map, Function.comp_def] using honce
  · intro _ hmap w v hw
    obtain ⟨g, hg, rfl⟩ := List.mem_map.mp hmap
    obtain ⟨d, hd, hplaced⟩ := h.mem_taken hg hw
    exact ⟨d, Table.get?_eq_some_iff.mpr hd, (placement?_eq_some.mp hplaced).2.2⟩
  · intro _ hmap
    obtain ⟨g, hg, rfl⟩ := List.mem_map.mp hmap
    refine ⟨Group.mem_members.mpr (h.led g hg), fun v hv => ?_⟩
    obtain ⟨w, hw⟩ := Group.mem_members.mp hv
    exact h.least g hg _ hw
  · intro v
    have hall : corpus.entries = corpus.entries ++ [] := (List.append_nil _).symm
    constructor
    · rintro ⟨_, hmap, rfl⟩
      obtain ⟨g, hg, rfl⟩ := List.mem_map.mp hmap
      obtain ⟨d, hd, -⟩ := h.headed g hg
      exact ⟨g.head, (h.leads_iff hall hd).mpr ⟨g, hg, rfl, rfl⟩⟩
    · rintro ⟨spec, hleads⟩
      obtain ⟨d, hd, -⟩ := hleads.defines
      obtain ⟨g, hg, hrep, -⟩ := (h.leads_iff hall hd).mp hleads
      exact ⟨g.group, List.mem_map_of_mem hg, hrep⟩
  · exact List.pairwise_map.mpr h.ascending
  · intro _ hmap bucket hb
    obtain ⟨g, hg, rfl⟩ := List.mem_map.mp hmap
    exact (h.sorted g hg bucket hb).2
  · intro _ hmap v hv hne head spec hhead hspec
    obtain ⟨g, hg, rfl⟩ := List.mem_map.mp hmap
    obtain ⟨w, hw⟩ := Group.mem_members.mp hv
    obtain rfl := hhead.unique (h.headed g hg)
    have hlt := Nat.lt_of_le_of_ne (h.least g hg _ hw) (Ne.symm hne)
    simpa using h.judged g hg _ hw spec hspec g hg hlt
  · intro _ hmap v hv _ hmap' hlt hne head spec hhead hspec
    obtain ⟨g, hg, rfl⟩ := List.mem_map.mp hmap
    obtain ⟨k, hk, rfl⟩ := List.mem_map.mp hmap'
    obtain ⟨w, hw⟩ := Group.mem_members.mp hv
    obtain rfl := hhead.unique (h.headed k hk)
    simpa [hne] using h.judged g hg _ hw spec hspec k hk hlt

end Partition

/-- Grouping fails at one version, where a question fails or which is the least torn version. -/
theorem groupSlot_error_cases (h : groupSlot corpus relation slot = .error fault) :
    ∃ v, (∀ u, u < v → ¬ Torn relation corpus slot u) ∧
      (Raises relation corpus slot v fault ∨ ∃ first second,
        fault = .ambiguousGroup slot.label v first second ∧
          Ambiguous relation corpus slot v first second) := by
  obtain ⟨taken, ⟨v, d⟩, rest, groups, hall, hpart, hstep⟩ := groupSlot_eq_error h
  exact ⟨v, fun u hlt => hpart.not_torn_before hall hlt, hpart.raises_or_ambiguous hall hstep⟩

theorem not_torn_of_groupSlot {out : SlotGroups} (h : groupSlot corpus relation slot = .ok out)
    (v : Version) : ¬ Torn relation corpus slot v := by
  intro htorn
  obtain ⟨groups, -, hpart⟩ := partition_of_groupSlot h
  have hdef := htorn
  obtain ⟨spec, ⟨d, hd, -⟩, -⟩ := hdef
  exact hpart.not_torn (List.append_nil _).symm hd htorn

/-- Under any relation, the groups that are found are arranged. An ambiguity is reported only of the
least version that is related to two leading versions, and it names the first two of them, unless
the relation itself fails with that report where it compares a version with a leading one. As far as
no question fails, grouping succeeds exactly if no version is related to two leading versions, and
else it reports the ambiguity. -/
theorem groupSlot_arranges (relation : Relation) (corpus : Corpus) (slot : Slot) :
    (∀ out, groupSlot corpus relation slot = .ok out →
      out.slot = slot ∧ out.Arranged relation corpus) ∧
    (∀ label v first second,
      groupSlot corpus relation slot = .error (.ambiguousGroup label v first second) →
        (∃ r head u spec, Leads relation corpus slot r head ∧ Defines corpus slot u spec ∧ r < u ∧
          relation r head u spec = .error (.ambiguousGroup label v first second)) ∨
        label = slot.label ∧ Ambiguous relation corpus slot v first second) ∧
    ((∀ v fault, ¬ Raises relation corpus slot v fault) →
      ((∃ out, groupSlot corpus relation slot = .ok out) ↔
        ∀ v, ¬ Torn relation corpus slot v)) ∧
    (∀ v first second, (∀ u, u ≤ v → ∀ fault, ¬ Raises relation corpus slot u fault) →
      Ambiguous relation corpus slot v first second →
        groupSlot corpus relation slot =
          .error (.ambiguousGroup slot.label v first second)) := by
  refine ⟨?_, ?_, ?_, ?_⟩
  · intro out h
    obtain ⟨groups, rfl, hpart⟩ := partition_of_groupSlot h
    exact ⟨rfl, hpart.arranged⟩
  · intro label v first second h
    obtain ⟨u, -, hraises | ⟨first', second', hfault, hambiguous⟩⟩ := groupSlot_error_cases h
    · cases hraises with
      | spec hd hspec => cases View.slotSpec?_error hspec
      | wireId hd hspec hwire => cases View.slotWireId?_error hwire
      | relation hr hlt hspec herror => exact .inl ⟨_, _, _, _, hr, hspec, hlt, herror⟩
    · obtain ⟨rfl, rfl, rfl, rfl⟩ := Fault.ambiguousGroup.inj hfault
      exact .inr ⟨rfl, hambiguous⟩
  · intro hquiet
    constructor
    · rintro ⟨out, h⟩
      exact not_torn_of_groupSlot h
    · intro hnone
      cases h : groupSlot corpus relation slot with
      | ok out => exact ⟨out, rfl⟩
      | error fault =>
          obtain ⟨v, -, hraises | ⟨first, second, -, hambiguous⟩⟩ := groupSlot_error_cases h
          · exact absurd hraises (hquiet v fault)
          · exact absurd hambiguous.torn (hnone v)
  · intro v first second hquiet hambiguous
    cases h : groupSlot corpus relation slot with
    | ok out => exact absurd hambiguous.torn (not_torn_of_groupSlot h v)
    | error fault =>
        obtain ⟨u, hleast, hcases⟩ := groupSlot_error_cases h
        have hle : u ≤ v := Nat.le_of_not_lt fun hlt => hleast v hlt hambiguous.torn
        rcases hcases with hraises | ⟨first', second', rfl, hambiguous'⟩
        · exact absurd hraises (hquiet u hle fault)
        · obtain ⟨rfl, rfl, rfl⟩ := hambiguous'.unique hambiguous
          rfl

def itemDocument : Document := ⟨.obj [("types", .obj [("item", .str "varint")])]⟩

def itemSlot : Slot := .type ⟨.common, "item"⟩

def itemCorpus : Corpus :=
  .ofList [(1, itemDocument), (2, itemDocument), (3, itemDocument), (4, itemDocument)]

/-- A version is related to those that lie two or more before it, which is not transitive. -/
def distant : Relation := fun left _ right _ => .ok (decide (left + 2 ≤ right))

/-- The third version joins the first; the fourth is the first to be related to two leaders. -/
theorem groupSlot_arranges_distant :
    groupSlot itemCorpus distant itemSlot = .error (.ambiguousGroup itemSlot.label 4 1 2) ∧
      Ambiguous distant itemCorpus itemSlot 4 1 2 := by
  have hgroup : groupSlot itemCorpus distant itemSlot =
      .error (.ambiguousGroup itemSlot.label 4 1 2) := rfl
  refine ⟨hgroup, ?_⟩
  obtain ⟨-, hreported, -⟩ := groupSlot_arranges distant itemCorpus itemSlot
  rcases hreported _ _ _ _ hgroup with
    ⟨r, head, u, spec, -, -, -, herror⟩ | ⟨-, hambiguous⟩
  · cases herror
  · exact hambiguous

end VersionGroups
