import VersionGroups.Proofs.Grouping.Placement

/-!
# The groups of a slot

The invariant of grouping, for a relation of which nothing is assumed. The versions taken so far
that define the slot are placed once each, under their wire ids. Every group is headed by the
definition of its least version, and of the groups with an earlier representative the relation has
affirmed to a version its own group and no other. One step preserves this, and so grouping a whole
corpus ends in a partition or at the first version that cannot be filed.
-/
namespace VersionGroups

/-- The view of an entry of a corpus. -/
abbrev viewOf (entry : Version × Document) : View := ⟨entry.1, entry.2⟩

theorem get?_viewOf {corpus : Corpus} {v : Version} {d : Document}
    (h : (v, d) ∈ corpus.entries) :
    corpus.get? (viewOf (v, d)).version = some (viewOf (v, d)).document :=
  Table.get?_eq_some_iff.mpr h

/-- A version defines a slot as `spec` in a corpus. -/
def Defines (corpus : Corpus) (slot : Slot) (v : Version) (spec : Json) : Prop :=
  ∃ d, (v, d) ∈ corpus.entries ∧ (viewOf (v, d)).slotSpec? slot = .ok (some spec)

/-- Where an entry belongs, if its document defines the slot. -/
def placement? (slot : Slot) (entry : Version × Document) : Option Placement :=
  match (viewOf entry).slotSpec? slot, (viewOf entry).slotWireId? slot with
  | .ok (some _), .ok w => some (w, entry.1)
  | _, _ => none

/-- What grouping has established when it has taken the entries `taken` of a corpus. -/
structure Partition (relation : Relation) (corpus : Corpus) (slot : Slot)
    (taken : List (Version × Document)) (groups : List OpenGroup) : Prop where
  ascending : groups.Pairwise fun g h => g.group.representative < h.group.representative
  placed : (groups.flatMap fun g => g.group.buckets.placements).Perm
    (taken.filterMap (placement? slot))
  answered : ∀ e ∈ taken,
    (viewOf e).slotSpec? slot = .ok none ∨ ∃ p, placement? slot e = some p
  headed : ∀ g ∈ groups, Defines corpus slot g.group.representative g.head
  led : ∀ g ∈ groups, ∃ w, (w, g.group.representative) ∈ g.group.buckets.placements
  least : ∀ g ∈ groups, ∀ p ∈ g.group.buckets.placements, g.group.representative ≤ p.2
  sorted : ∀ g ∈ groups, ∀ bucket ∈ g.group.buckets.entries,
    bucket.2 ≠ [] ∧ bucket.2.Pairwise (· < ·)
  judged : ∀ g ∈ groups, ∀ p ∈ g.group.buckets.placements, ∀ spec, Defines corpus slot p.2 spec →
    ∀ h ∈ groups, h.group.representative < p.2 →
      relation h.group.representative h.head p.2 spec =
        .ok (decide (h.group.representative = g.group.representative))

variable {relation : Relation} {corpus : Corpus} {slot : Slot}
  {taken : List (Version × Document)} {groups : List OpenGroup} {v : Version} {d : Document}
  {spec : Json} {w : Option WireId}

theorem Defines.unique {spec' : Json} (h : Defines corpus slot v spec)
    (h' : Defines corpus slot v spec') : spec = spec' := by
  obtain ⟨d, hd, hspec⟩ := h
  obtain ⟨d', hd', hspec'⟩ := h'
  obtain rfl := Table.eq_of_mem hd hd'
  rw [hspec] at hspec'
  simpa using hspec'

theorem placement?_eq_some {entry : Version × Document} {p : Placement} :
    placement? slot entry = some p ↔ p.2 = entry.1 ∧
      (∃ spec, (viewOf entry).slotSpec? slot = .ok (some spec)) ∧
        (viewOf entry).slotWireId? slot = .ok p.1 := by
  obtain ⟨w, v⟩ := p
  rw [placement?]
  split
  · rename_i spec w' hspec hw
    simp only [hspec, hw, Option.some.injEq, Prod.mk.injEq, Except.ok.injEq]
    constructor
    · rintro ⟨rfl, rfl⟩
      exact ⟨rfl, ⟨spec, rfl⟩, rfl⟩
    · rintro ⟨rfl, -, rfl⟩
      exact ⟨rfl, rfl⟩
  · rename_i hno
    constructor
    · intro h
      cases h
    · rintro ⟨-, ⟨spec, hspec⟩, hw⟩
      exact absurd hw (hno spec w hspec)

/-- The group with one more version, if it has the given representative. -/
def joinGroup (r v : Version) (w : Option WireId) (g : OpenGroup) : OpenGroup :=
  if g.group.representative = r then { g with group := g.group.add v w } else g

@[simp] theorem joinGroup_representative (r v : Version) (w : Option WireId) (g : OpenGroup) :
    (joinGroup r v w g).group.representative = g.group.representative := by
  rw [joinGroup]
  split <;> rfl

@[simp] theorem joinGroup_head (r v : Version) (w : Option WireId) (g : OpenGroup) :
    (joinGroup r v w g).head = g.head := by
  rw [joinGroup]
  split <;> rfl

theorem mem_placements_joinGroup {r : Version} {g : OpenGroup} {p : Placement} :
    p ∈ (joinGroup r v w g).group.buckets.placements ↔
      g.group.representative = r ∧ p = (w, v) ∨ p ∈ g.group.buckets.placements := by
  by_cases h : g.group.representative = r
  · simp [joinGroup, h, Group.mem_placements_add]
  · simp [joinGroup, h]

/-- Joining one of some groups with distinct representatives adds one placement. -/
theorem placements_joinGroup {r : Version}
    (ascending : groups.Pairwise fun g h => g.group.representative < h.group.representative)
    (hr : ∃ g ∈ groups, g.group.representative = r) :
    ((groups.map (joinGroup r v w)).flatMap fun g => g.group.buckets.placements).Perm
      ((w, v) :: groups.flatMap fun g => g.group.buckets.placements) := by
  induction groups with
  | nil =>
      obtain ⟨g, hg, -⟩ := hr
      cases hg
  | cons g rest ih =>
      obtain ⟨hfirst, hrest⟩ := List.pairwise_cons.mp ascending
      rw [List.map_cons, List.flatMap_cons, List.flatMap_cons]
      by_cases hg : g.group.representative = r
      · have hsame : rest.map (joinGroup r v w) = rest := by
          refine (List.map_congr_left fun g' hg' => ?_).trans (List.map_id _)
          rw [joinGroup, if_neg (hg ▸ (Nat.ne_of_gt (hfirst g' hg')))]
          rfl
        rw [hsame, joinGroup, if_pos hg]
        exact (g.group.placements_add v w).append_right _
      · rw [joinGroup, if_neg hg]
        have hr' : ∃ g' ∈ rest, g'.group.representative = r := by
          obtain ⟨g', hg', hr⟩ := hr
          rcases List.mem_cons.mp hg' with rfl | hg'
          · exact absurd hr hg
          · exact ⟨g', hg', hr⟩
        exact ((ih hrest hr').append_left _).trans List.perm_middle

namespace Partition

theorem nil : Partition relation corpus slot [] [] := by
  constructor <;> simp

/-- A placed version was taken, and it is placed under its own wire id. -/
theorem mem_taken (h : Partition relation corpus slot taken groups) {g : OpenGroup}
    (hg : g ∈ groups) {p : Placement} (hp : p ∈ g.group.buckets.placements) :
    ∃ d, (p.2, d) ∈ taken ∧ placement? slot (p.2, d) = some p := by
  have hmem := h.placed.mem_iff.mp (List.mem_flatMap.mpr ⟨g, hg, hp⟩)
  obtain ⟨⟨v, d⟩, hd, hplaced⟩ := List.mem_filterMap.mp hmem
  obtain ⟨rfl, -⟩ := placement?_eq_some.mp hplaced
  exact ⟨d, hd, hplaced⟩

theorem lt_of_taken (h : Partition relation corpus slot taken groups)
    (hlast : ∀ e ∈ taken, e.1 < v) {g : OpenGroup} (hg : g ∈ groups) {p : Placement}
    (hp : p ∈ g.group.buckets.placements) : p.2 < v := by
  obtain ⟨d, hd, -⟩ := h.mem_taken hg hp
  exact hlast _ hd

theorem representative_lt (h : Partition relation corpus slot taken groups)
    (hlast : ∀ e ∈ taken, e.1 < v) {g : OpenGroup} (hg : g ∈ groups) :
    g.group.representative < v := by
  obtain ⟨w, hw⟩ := h.led g hg
  exact h.lt_of_taken hlast hg hw

/-- An entry that does not define the slot changes nothing. -/
theorem skip (h : Partition relation corpus slot taken groups)
    (hnone : (viewOf (v, d)).slotSpec? slot = .ok none) :
    Partition relation corpus slot (taken ++ [(v, d)]) groups := by
  have hno : placement? slot (v, d) = none := by
    rw [placement?, hnone]
  refine { h with placed := ?_, answered := ?_ }
  · rw [List.filterMap_append]
    simpa [hno] using h.placed
  · intro e he
    rcases List.mem_append.mp he with he | he
    · exact h.answered e he
    · exact .inl (List.mem_singleton.mp he ▸ hnone)

theorem answered_append (h : Partition relation corpus slot taken groups) {p : Placement}
    (hplaced : placement? slot (v, d) = some p) :
    ∀ e ∈ taken ++ [(v, d)],
      (viewOf e).slotSpec? slot = .ok none ∨ ∃ p, placement? slot e = some p := by
  intro e he
  rcases List.mem_append.mp he with he | he
  · exact h.answered e he
  · exact .inr ⟨p, List.mem_singleton.mp he ▸ hplaced⟩

theorem sorted_add (h : Partition relation corpus slot taken groups)
    (hlast : ∀ e ∈ taken, e.1 < v) {g : OpenGroup} (hg : g ∈ groups) (w : Option WireId) :
    ∀ bucket ∈ (g.group.add v w).buckets.entries, bucket.2 ≠ [] ∧ bucket.2.Pairwise (· < ·) := by
  intro bucket hb
  rcases Table.mem_place hb with rfl | hb
  · refine ⟨by simp, ?_⟩
    rw [List.pairwise_append]
    cases hget : g.group.buckets.get? w with
    | none => simp
    | some versions =>
        have hmem := Table.get?_eq_some_iff.mp hget
        refine ⟨(h.sorted g hg _ hmem).2, List.pairwise_singleton .., ?_⟩
        intro a ha b hb
        obtain rfl := List.mem_singleton.mp hb
        exact h.lt_of_taken hlast hg (Buckets.mem_placements.mpr ⟨versions, hmem, ha⟩)
  · exact h.sorted g hg bucket hb

section
variable (hmem : (v, d) ∈ corpus.entries) (hlast : ∀ e ∈ taken, e.1 < v)
  (hspec : (viewOf (v, d)).slotSpec? slot = .ok (some spec))
  (hw : (viewOf (v, d)).slotWireId? slot = .ok w)
include hmem hlast hspec hw

/-- A version that is related to one representative alone joins its group. -/
theorem join (h : Partition relation corpus slot taken groups) {r : Version}
    (hr : ∃ g ∈ groups, g.group.representative = r)
    (hjudged : ∀ g ∈ groups, relation g.group.representative g.head v spec =
      .ok (decide (some r = some g.group.representative))) :
    Partition relation corpus slot (taken ++ [(v, d)]) (groups.map (joinGroup r v w)) := by
  have hplaced : placement? slot (v, d) = some (w, v) :=
    placement?_eq_some.mpr ⟨rfl, ⟨spec, hspec⟩, hw⟩
  constructor
  · rw [List.pairwise_map]
    simpa using h.ascending
  · refine (placements_joinGroup h.ascending hr).trans ?_
    rw [List.filterMap_append]
    simp only [List.filterMap_cons, hplaced, List.filterMap_nil]
    exact ((h.placed.cons _).trans (List.perm_append_singleton _ _).symm)
  · exact h.answered_append hplaced
  · simpa using h.headed
  · intro g' hg'
    obtain ⟨g, hg, rfl⟩ := List.mem_map.mp hg'
    obtain ⟨w', hw'⟩ := h.led g hg
    exact ⟨w', by simpa [mem_placements_joinGroup] using .inr hw'⟩
  · intro g' hg' p hp
    obtain ⟨g, hg, rfl⟩ := List.mem_map.mp hg'
    rw [joinGroup_representative]
    rcases mem_placements_joinGroup.mp hp with ⟨-, rfl⟩ | hp
    · exact Nat.le_of_lt (h.representative_lt hlast hg)
    · exact h.least g hg p hp
  · intro g' hg'
    obtain ⟨g, hg, rfl⟩ := List.mem_map.mp hg'
    rw [joinGroup]
    split
    · exact h.sorted_add hlast hg w
    · exact h.sorted g hg
  · intro g' hg' p hp spec' hdef h' hh' hlt
    obtain ⟨g, hg, rfl⟩ := List.mem_map.mp hg'
    obtain ⟨k, hk, rfl⟩ := List.mem_map.mp hh'
    simp only [joinGroup_representative, joinGroup_head] at hlt ⊢
    rcases mem_placements_joinGroup.mp hp with ⟨rfl, rfl⟩ | hp
    · obtain rfl := hdef.unique ⟨d, hmem, hspec⟩
      simpa [eq_comm] using hjudged k hk
    · exact h.judged g hg p hp spec' hdef k hk hlt

/-- A version that is related to no representative opens a group. -/
theorem start (h : Partition relation corpus slot taken groups)
    (hjudged : ∀ g ∈ groups, relation g.group.representative g.head v spec = .ok false) :
    Partition relation corpus slot (taken ++ [(v, d)]) (groups ++ [⟨Group.single v w, spec⟩]) := by
  have hplaced : placement? slot (v, d) = some (w, v) :=
    placement?_eq_some.mpr ⟨rfl, ⟨spec, hspec⟩, hw⟩
  have hp_single : ∀ p, p ∈ (Group.single v w).buckets.placements ↔ p = (w, v) := by
    simp [Group.placements_single]
  have hrep : (Group.single v w).representative = v := rfl
  constructor
  · rw [List.pairwise_append]
    refine ⟨h.ascending, List.pairwise_singleton .., ?_⟩
    intro g hg g' hg'
    obtain rfl := List.mem_singleton.mp hg'
    exact h.representative_lt hlast hg
  · rw [List.filterMap_append, List.flatMap_append]
    simp only [List.filterMap_cons, hplaced, List.filterMap_nil, List.flatMap_cons,
      List.flatMap_nil, List.append_nil, Group.placements_single]
    exact h.placed.append_right _
  · exact h.answered_append hplaced
  · intro g hg
    rcases List.mem_append.mp hg with hg | hg
    · exact h.headed g hg
    · obtain rfl := List.mem_singleton.mp hg
      exact ⟨d, hmem, hspec⟩
  · intro g hg
    rcases List.mem_append.mp hg with hg | hg
    · exact h.led g hg
    · obtain rfl := List.mem_singleton.mp hg
      exact ⟨w, (hp_single _).mpr rfl⟩
  · intro g hg p hp
    rcases List.mem_append.mp hg with hg | hg
    · exact h.least g hg p hp
    · obtain rfl := List.mem_singleton.mp hg
      obtain rfl := (hp_single p).mp hp
      exact Nat.le_refl v
  · intro g hg bucket hb
    rcases List.mem_append.mp hg with hg | hg
    · exact h.sorted g hg bucket hb
    · obtain rfl := List.mem_singleton.mp hg
      obtain rfl := List.mem_singleton.mp hb
      exact ⟨by simp, List.pairwise_singleton ..⟩
  · intro g hg p hp spec' hdef k hk hlt
    have hle : p.2 ≤ v := by
      rcases List.mem_append.mp hg with hg | hg
      · exact Nat.le_of_lt (h.lt_of_taken hlast hg hp)
      · obtain rfl := List.mem_singleton.mp hg
        obtain rfl := (hp_single p).mp hp
        exact Nat.le_refl v
    rcases List.mem_append.mp hk with hold | hnew
    · rcases List.mem_append.mp hg with hg | hg
      · exact h.judged g hg p hp spec' hdef k hold hlt
      · obtain rfl := List.mem_singleton.mp hg
        obtain rfl := (hp_single p).mp hp
        obtain rfl := hdef.unique ⟨d, hmem, hspec⟩
        have hne : k.group.representative ≠ v := Nat.ne_of_lt hlt
        simpa [hrep, hne] using hjudged k hold
    · obtain rfl := List.mem_singleton.mp hnew
      exact absurd hle (Nat.not_le_of_lt hlt)

end

end Partition

theorem fileVersion_ok {groups' : List OpenGroup}
    (h : fileVersion relation slot v spec w groups = .ok groups') :
    (∃ r, matchGroup relation slot v spec none groups = .ok (some r) ∧
        groups' = groups.map (joinGroup r v w)) ∨
      matchGroup relation slot v spec none groups = .ok none ∧
        groups' = groups ++ [⟨Group.single v w, spec⟩] := by
  obtain ⟨m, hm, h⟩ := bind_eq_ok.mp h
  cases m with
  | some r => exact .inl ⟨r, hm, (Except.ok.inj h).symm⟩
  | none => exact .inr ⟨hm, (Except.ok.inj h).symm⟩

/-- A version cannot be filed because its document or the search for its group fails. -/
theorem groupVersion_error {fault : Fault}
    (h : groupVersion relation slot groups (v, d) = .error fault) :
    (viewOf (v, d)).slotSpec? slot = .error fault ∨
      ∃ spec, (viewOf (v, d)).slotSpec? slot = .ok (some spec) ∧
        ((viewOf (v, d)).slotWireId? slot = .error fault ∨
          matchGroup relation slot v spec none groups = .error fault) := by
  rcases bind_eq_error.mp h with hspec | ⟨found, hspec, h⟩
  · exact .inl hspec
  cases found with
  | none => cases h
  | some spec =>
      refine .inr ⟨spec, hspec, ?_⟩
      rcases bind_eq_error.mp h with hwire | ⟨w, -, h⟩
      · exact .inl hwire
      · rcases bind_eq_error.mp h with hmatch | ⟨m, -, h⟩
        · exact .inr hmatch
        · cases m <;> cases h

/-- One more version of the corpus keeps the invariant. -/
theorem Partition.step {rest : List (Version × Document)} {groups' : List OpenGroup}
    (hall : corpus.entries = taken ++ (v, d) :: rest)
    (h : Partition relation corpus slot taken groups)
    (hstep : groupVersion relation slot groups (v, d) = .ok groups') :
    Partition relation corpus slot (taken ++ [(v, d)]) groups' := by
  have hmem : (v, d) ∈ corpus.entries := by simp [hall]
  have hlast : ∀ e ∈ taken, e.1 < v := by
    intro e he
    have hasc := Table.versions_ascending corpus
    rw [hall, List.pairwise_append] at hasc
    exact hasc.2.2 e he _ List.mem_cons_self
  obtain ⟨found, hfound, hstep⟩ := bind_eq_ok.mp hstep
  cases found with
  | none =>
      obtain rfl := Except.ok.inj hstep
      exact h.skip hfound
  | some spec =>
      obtain ⟨w, hw, hfile⟩ := bind_eq_ok.mp hstep
      rcases fileVersion_ok hfile with ⟨r, hmatch, rfl⟩ | ⟨hmatch, rfl⟩
      · obtain ⟨hr, hjudged⟩ := matchGroup_none h.ascending hmatch
        exact h.join hmem hlast hfound hw (hr r rfl) hjudged
      · obtain ⟨-, hjudged⟩ := matchGroup_none h.ascending hmatch
        exact h.start hmem hlast hfound hw (by simpa using hjudged)

/-- The groups of a slot over a corpus partition the versions that define it. -/
theorem partition_of_groupSlot {slotGroups : SlotGroups}
    (h : groupSlot corpus relation slot = .ok slotGroups) :
    ∃ groups, slotGroups = ⟨slot, groups.map (·.group)⟩ ∧
      Partition relation corpus slot corpus.entries groups := by
  obtain ⟨groups, hfold, h⟩ := bind_eq_ok.mp h
  refine ⟨groups, (Except.ok.inj h).symm, ?_⟩
  exact foldlM_keeps (fun _ _ _ _ _ hall hs hstep => hs.step hall hstep)
    (List.nil_append _).symm Partition.nil hfold

namespace Partition

/-- Entries before one that was taken were taken too. -/
theorem taken_of_lt {rest : List (Version × Document)} {u : Version} {e : Document}
    (hall : corpus.entries = taken ++ rest) (hv : (v, d) ∈ taken)
    (hu : (u, e) ∈ corpus.entries) (hlt : u < v) : (u, e) ∈ taken := by
  have hasc := Table.versions_ascending corpus
  rw [hall, List.pairwise_append] at hasc
  rw [hall] at hu
  rcases List.mem_append.mp hu with hu | hu
  · exact hu
  · exact absurd hlt (Nat.lt_asymm (hasc.2.2 _ hv _ hu))

theorem lt_next {rest : List (Version × Document)} {u : Version} {e : Document}
    (hall : corpus.entries = taken ++ (v, d) :: rest) (hu : (u, e) ∈ taken) : u < v := by
  have hasc := Table.versions_ascending corpus
  rw [hall, List.pairwise_append] at hasc
  exact hasc.2.2 _ hu _ List.mem_cons_self

theorem mem_corpus (h : Partition relation corpus slot corpus.entries groups) {g : OpenGroup}
    (hg : g ∈ groups) {p : Placement} (hp : p ∈ g.group.buckets.placements) :
    ∃ d, (p.2, d) ∈ corpus.entries := by
  obtain ⟨d, hd, -⟩ := h.mem_taken hg hp
  exact ⟨d, hd⟩

theorem placed_of_defines (h : Partition relation corpus slot taken groups) (hv : (v, d) ∈ taken)
    (hspec : (viewOf (v, d)).slotSpec? slot = .ok (some spec)) :
    ∃ g ∈ groups, ∃ w, (w, v) ∈ g.group.buckets.placements := by
  rcases h.answered _ hv with hnone | ⟨⟨w, v'⟩, hplaced⟩
  · rw [hnone] at hspec
    cases hspec
  · obtain rfl : v' = v := (placement?_eq_some.mp hplaced).1
    have hmem := h.placed.mem_iff.mpr (List.mem_filterMap.mpr ⟨_, hv, hplaced⟩)
    obtain ⟨g, hg, hp⟩ := List.mem_flatMap.mp hmem
    exact ⟨g, hg, w, hp⟩

/-- A partition of a corpus places every version at most once. -/
theorem nodup (h : Partition relation corpus slot corpus.entries groups) :
    ((groups.flatMap fun g => g.group.buckets.placements).map (·.2)).Nodup := by
  rw [(h.placed.map (·.2)).nodup_iff]
  have hlt : (corpus.entries.filterMap (placement? slot)).Pairwise (fun p q => p.2 < q.2) := by
    refine List.Pairwise.filterMap _ ?_ (Table.versions_ascending corpus)
    intro e e' hlt p hp q hq
    rw [(placement?_eq_some.mp hp).1, (placement?_eq_some.mp hq).1]
    exact hlt
  exact List.pairwise_map.mpr (hlt.imp Nat.ne_of_lt)

end Partition

/-- If a slot cannot be grouped, there is a first version that could not be filed. -/
theorem groupSlot_eq_error {fault : Fault} (h : groupSlot corpus relation slot = .error fault) :
    ∃ taken entry rest groups, corpus.entries = taken ++ entry :: rest ∧
      Partition relation corpus slot taken groups ∧
        groupVersion relation slot groups entry = .error fault := by
  rcases bind_eq_error.mp h with hfold | ⟨groups, -, h⟩
  · exact foldlM_fails (fun _ _ _ _ _ hall hs hstep => hs.step hall hstep)
      (List.nil_append _).symm Partition.nil hfold
  · cases h

/-- Relations that answer alike about any two definitions of a slot, the earlier one first. -/
def Relation.AgreeOn (relation relation' : Relation) (corpus : Corpus) (slot : Slot) : Prop :=
  ∀ r head v spec, r < v → Defines corpus slot r head → Defines corpus slot v spec →
    relation r head v spec = relation' r head v spec

section
variable {relation' : Relation} (h : Relation.AgreeOn relation relation' corpus slot)
include h

/-- A version is compared only with representatives before it. -/
theorem Partition.groupVersion_congr {rest : List (Version × Document)}
    (hall : corpus.entries = taken ++ (v, d) :: rest)
    (hpart : Partition relation corpus slot taken groups) :
    groupVersion relation slot groups (v, d) = groupVersion relation' slot groups (v, d) := by
  have hd : (v, d) ∈ corpus.entries := by simp [hall]
  cases hfound : (viewOf (v, d)).slotSpec? slot with
  | error fault =>
      simp only [groupVersion, hfound]
      rfl
  | ok found =>
      cases found with
      | none =>
          simp only [groupVersion, hfound]
          rfl
      | some spec =>
          have hsame : ∀ g ∈ groups, relation g.group.representative g.head v spec =
              relation' g.group.representative g.head v spec := by
            intro g hg
            have hlt := hpart.representative_lt (fun e he => lt_next hall he) hg
            exact h _ _ _ _ hlt (hpart.headed g hg) ⟨d, hd, hfound⟩
          have hfile : ∀ w, fileVersion relation slot v spec w groups =
              fileVersion relation' slot v spec w groups := by
            intro w
            rw [fileVersion, fileVersion, matchGroup_congr hsame]
          simp only [groupVersion, hfound]
          exact congrArg ((viewOf (v, d)).slotWireId? slot >>= ·) (funext hfile)

/-- The groups of a slot depend on the relation as far as it is asked about the slot. -/
theorem groupSlot_congr : groupSlot corpus relation slot = groupSlot corpus relation' slot := by
  have hfold : corpus.entries.foldlM (groupVersion relation slot) [] =
      corpus.entries.foldlM (groupVersion relation' slot) [] :=
    foldlM_congr_of_keeps (fun _ _ _ _ _ hall hs hstep => hs.step hall hstep)
      (fun _ _ _ _ hall hs => hs.groupVersion_congr h hall) (List.nil_append _).symm Partition.nil
  rw [groupSlot, groupSlot, hfold]

end

end VersionGroups
