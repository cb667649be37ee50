import Mathlib.Data.List.Basic
import VersionGroups.Grouping.Basic
import VersionGroups.Proofs.Results
import VersionGroups.Proofs.Table

/-!
# Where versions are filed

A placement is a version with the wire id under which it is filed. The placements of buckets list
every version once for each time it occurs, and filing a version adds its placement and nothing
else. The search for the group of a version is told by the verdicts of the relation on the groups.
-/
namespace VersionGroups

/-- A version and the wire id under which it is filed. -/
abbrev Placement := Option WireId × Version

/-- The versions of all buckets, each with its wire id. -/
def Buckets.placements (buckets : Buckets) : List Placement :=
  buckets.entries.flatMap fun bucket => bucket.2.map fun v => (bucket.1, v)

theorem Buckets.mem_placements {buckets : Buckets} {w : Option WireId} {v : Version} :
    (w, v) ∈ buckets.placements ↔ ∃ versions, (w, versions) ∈ buckets.entries ∧ v ∈ versions := by
  simp only [Buckets.placements, List.mem_flatMap, List.mem_map]
  constructor
  · rintro ⟨⟨w', versions⟩, hb, v', hv, heq⟩
    obtain ⟨rfl, rfl⟩ := Prod.mk.inj heq
    exact ⟨versions, hb, hv⟩
  · rintro ⟨versions, hb, hv⟩
    exact ⟨(w, versions), hb, v, hv, rfl⟩

theorem Buckets.mem_versions {buckets : Buckets} {v : Version} :
    v ∈ buckets.versions ↔ ∃ w, (w, v) ∈ buckets.placements := by
  simp only [Buckets.versions, Table.values, List.mem_flatten, List.mem_map, mem_placements]
  constructor
  · rintro ⟨_, ⟨bucket, hb, rfl⟩, hv⟩
    exact ⟨bucket.1, bucket.2, hb, hv⟩
  · rintro ⟨w, versions, hb, hv⟩
    exact ⟨versions, ⟨_, hb, rfl⟩, hv⟩

theorem mem_ascendingVersions {v : Version} {l : List Version} :
    v ∈ ascendingVersions l ↔ v ∈ l :=
  (List.mergeSort_perm ..).mem_iff

theorem ascendingVersions_sorted (l : List Version) : (ascendingVersions l).Pairwise (· ≤ ·) := by
  have h : (ascendingVersions l).Pairwise (fun a b => decide (a ≤ b) = true) :=
    List.pairwise_mergeSort (fun a b c => by simpa using Nat.le_trans)
      (fun a b => by simpa using Nat.le_total a b) l
  exact h.imp fun h => by simpa using h

/-- Adding a version at the end of its bucket adds one placement. -/
theorem placements_place (w : Option WireId) (v : Version)
    {l : List (Option WireId × List Version)}
    (h : l.Pairwise (fun a b => compare a.1 b.1 = .lt)) :
    ((Table.place w ((Table.search w l).getD [] ++ [v]) l).flatMap
        fun bucket => bucket.2.map fun v => (bucket.1, v)).Perm
      ((w, v) :: l.flatMap fun bucket => bucket.2.map fun v => (bucket.1, v)) := by
  induction l with
  | nil => exact .refl _
  | cons e rest ih =>
      obtain ⟨j, versions⟩ := e
      obtain ⟨hfirst, hrest⟩ := List.pairwise_cons.mp h
      rw [Table.place]
      split
      · rename_i hlt
        have hnone : Table.search w ((j, versions) :: rest) = none := by
          refine Table.search_eq_none fun e he => ?_
          rcases List.mem_cons.mp he with rfl | he
          · exact hlt
          · exact Std.TransCmp.lt_trans hlt (hfirst e he)
        rw [hnone]
        exact .refl _
      · rename_i heq
        obtain rfl := Std.LawfulEqCmp.eq_of_compare heq
        rw [Table.search, if_pos heq]
        simp only [Option.getD_some, List.flatMap_cons, List.map_append, List.map_cons,
          List.map_nil, List.append_assoc, List.singleton_append]
        exact List.perm_middle
      · rename_i hgt
        rw [Table.search, if_neg (by simp [hgt])]
        simp only [List.flatMap_cons]
        exact ((ih hrest).append_left _).trans List.perm_middle

namespace Group

theorem mem_members {group : Group} {v : Version} :
    v ∈ group.members ↔ ∃ w, (w, v) ∈ group.buckets.placements := by
  rw [members, mem_ascendingVersions, Buckets.mem_versions]

theorem placements_single (v : Version) (w : Option WireId) :
    (single v w).buckets.placements = [(w, v)] := rfl

theorem placements_add (group : Group) (v : Version) (w : Option WireId) :
    (group.add v w).buckets.placements.Perm ((w, v) :: group.buckets.placements) :=
  placements_place w v group.buckets.ascending

theorem mem_placements_add {group : Group} {v : Version} {w : Option WireId} {p : Placement} :
    p ∈ (group.add v w).buckets.placements ↔ p = (w, v) ∨ p ∈ group.buckets.placements := by
  rw [(group.placements_add v w).mem_iff, List.mem_cons]

end Group

section
variable {relation : Relation} {slot : Slot} {v : Version} {spec : Json} {groups : List OpenGroup}

/-- A search depends on what the relation answers about the groups and the one version. -/
theorem matchGroup_congr {relation' : Relation}
    (h : ∀ g ∈ groups, relation g.group.representative g.head v spec =
      relation' g.group.representative g.head v spec) (matched : Option Version) :
    matchGroup relation slot v spec matched groups =
      matchGroup relation' slot v spec matched groups := by
  induction groups generalizing matched with
  | nil => rfl
  | cons g rest ih =>
      obtain ⟨hg, hrest⟩ := List.forall_mem_cons.mp h
      simp only [matchGroup, hg, ih hrest]

theorem matchGroup_some {r : Version} {m : Option Version}
    (h : matchGroup relation slot v spec (some r) groups = .ok m) :
    m = some r ∧ ∀ g ∈ groups, relation g.group.representative g.head v spec = .ok false := by
  induction groups with
  | nil =>
      obtain rfl := Except.ok.inj h
      exact ⟨rfl, fun g hg => by cases hg⟩
  | cons g rest ih =>
      rw [matchGroup] at h
      obtain ⟨verdict, hverdict, h⟩ := bind_eq_ok.mp h
      cases verdict with
      | true => cases h
      | false =>
          obtain ⟨hm, hrest⟩ := ih h
          exact ⟨hm, List.forall_mem_cons.mpr ⟨hverdict, hrest⟩⟩

/-- A search that ends well has judged every group, and affirmed exactly the one that it found. -/
theorem matchGroup_none {m : Option Version}
    (ascending : groups.Pairwise fun g h => g.group.representative < h.group.representative)
    (h : matchGroup relation slot v spec none groups = .ok m) :
    (∀ r, m = some r → ∃ g ∈ groups, g.group.representative = r) ∧
      ∀ g ∈ groups, relation g.group.representative g.head v spec =
        .ok (decide (m = some g.group.representative)) := by
  induction groups with
  | nil =>
      obtain rfl := Except.ok.inj h
      refine ⟨?_, ?_⟩
      · intro r hr
        cases hr
      · intro g hg
        cases hg
  | cons g rest ih =>
      obtain ⟨hfirst, hrest⟩ := List.pairwise_cons.mp ascending
      rw [matchGroup] at h
      obtain ⟨verdict, hverdict, h⟩ := bind_eq_ok.mp h
      cases verdict with
      | true =>
          obtain ⟨rfl, hfalse⟩ := matchGroup_some h
          refine ⟨fun r hr => ⟨g, List.mem_cons_self, Option.some.inj hr⟩, ?_⟩
          intro g' hg'
          rcases List.mem_cons.mp hg' with rfl | hg'
          · simpa using hverdict
          · have hne := Nat.ne_of_lt (hfirst g' hg')
            simpa [hne] using hfalse g' hg'
      | false =>
          obtain ⟨hfound, hjudged⟩ := ih hrest h
          refine ⟨fun r hr => ?_, ?_⟩
          · obtain ⟨g', hg', hr⟩ := hfound r hr
            exact ⟨g', List.mem_cons_of_mem _ hg', hr⟩
          · intro g' hg'
            rcases List.mem_cons.mp hg' with rfl | hg'
            · have hne : m ≠ some g'.group.representative := by
                intro hm
                obtain ⟨h', hh', hr⟩ := hfound _ hm
                exact Nat.ne_of_lt (hfirst h' hh') hr.symm
              simpa [hne] using hverdict
            · exact hjudged g' hg'

theorem matchGroup_some_error {r : Version} {fault : Fault}
    (ascending : groups.Pairwise fun g h => g.group.representative < h.group.representative)
    (h : matchGroup relation slot v spec (some r) groups = .error fault) :
    ∃ g ∈ groups, relation g.group.representative g.head v spec = .error fault ∨
      relation g.group.representative g.head v spec = .ok true ∧
        fault = .ambiguousGroup slot.label v r g.group.representative ∧
        ∀ h ∈ groups, h.group.representative < g.group.representative →
          relation h.group.representative h.head v spec = .ok false := by
  induction groups with
  | nil => cases h
  | cons g rest ih =>
      obtain ⟨hfirst, hrest⟩ := List.pairwise_cons.mp ascending
      rw [matchGroup] at h
      rcases bind_eq_error.mp h with hg | ⟨verdict, hverdict, h⟩
      · exact ⟨g, List.mem_cons_self, .inl hg⟩
      · cases verdict with
        | true =>
            refine ⟨g, List.mem_cons_self, .inr ⟨hverdict, (Except.error.inj h).symm, ?_⟩⟩
            intro g' hg' hlt
            rcases List.mem_cons.mp hg' with rfl | hg'
            · exact absurd hlt (Nat.lt_irrefl _)
            · exact absurd hlt (Nat.lt_asymm (hfirst g' hg'))
        | false =>
            obtain ⟨g', hg', herror | ⟨htrue, hfault, hbefore⟩⟩ := ih hrest h
            · exact ⟨g', List.mem_cons_of_mem _ hg', .inl herror⟩
            · refine ⟨g', List.mem_cons_of_mem _ hg', .inr ⟨htrue, hfault, ?_⟩⟩
              exact List.forall_mem_cons.mpr ⟨fun _ => hverdict, hbefore⟩

/-- A search fails because the relation fails, or because it affirms two groups, of which it names
the first two. -/
theorem matchGroup_none_error {fault : Fault}
    (ascending : groups.Pairwise fun g h => g.group.representative < h.group.representative)
    (h : matchGroup relation slot v spec none groups = .error fault) :
    (∃ g ∈ groups, relation g.group.representative g.head v spec = .error fault) ∨
      ∃ g ∈ groups, ∃ g' ∈ groups, g.group.representative < g'.group.representative ∧
        relation g.group.representative g.head v spec = .ok true ∧
        relation g'.group.representative g'.head v spec = .ok true ∧
        fault = .ambiguousGroup slot.label v g.group.representative
          g'.group.representative ∧
        ∀ h ∈ groups, h.group.representative < g'.group.representative →
          h.group.representative ≠ g.group.representative →
            relation h.group.representative h.head v spec = .ok false := by
  induction groups with
  | nil => cases h
  | cons g rest ih =>
      obtain ⟨hfirst, hrest⟩ := List.pairwise_cons.mp ascending
      rw [matchGroup] at h
      rcases bind_eq_error.mp h with hg | ⟨verdict, hverdict, h⟩
      · exact .inl ⟨g, List.mem_cons_self, hg⟩
      · cases verdict with
        | true =>
            obtain ⟨g', hg', herror | ⟨htrue, hfault, hbefore⟩⟩ := matchGroup_some_error hrest h
            · exact .inl ⟨g', List.mem_cons_of_mem _ hg', herror⟩
            · refine .inr ⟨g, List.mem_cons_self, g', List.mem_cons_of_mem _ hg', hfirst g' hg',
                hverdict, htrue, hfault, ?_⟩
              exact List.forall_mem_cons.mpr
                ⟨fun _ hne => absurd rfl hne, fun h hh hlt _ => hbefore h hh hlt⟩
        | false =>
            rcases ih hrest h with
              ⟨g', hg', herror⟩ | ⟨g', hg', g'', hg'', hlt, htrue, htrue', hfault, hbefore⟩
            · exact .inl ⟨g', List.mem_cons_of_mem _ hg', herror⟩
            · refine .inr ⟨g', List.mem_cons_of_mem _ hg', g'', List.mem_cons_of_mem _ hg'', hlt,
                htrue, htrue', hfault, ?_⟩
              exact List.forall_mem_cons.mpr ⟨fun _ _ => hverdict, hbefore⟩

end

end VersionGroups
