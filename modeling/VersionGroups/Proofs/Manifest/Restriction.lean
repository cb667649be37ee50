import VersionGroups.Proofs.Manifest.Classification

/-!
# What a manifest says about some versions

A manifest is restricted to some of its versions by dropping the groups with another representative,
the other versions from the buckets that are left, and buckets that are empty after that. If the
versions that are dropped are the last ones, then what is left of a classification is the
classification of the entries that are left: the representative of a group is its least version, so
a group that has any of these versions is not dropped.
-/
namespace VersionGroups

/-- The buckets with the versions that pass a test; a bucket without any is dropped. -/
def Buckets.restrict (buckets : Buckets) (p : Version → Bool) : Buckets :=
  (buckets.mapValues fun _ versions => versions.filter p).filter
    fun _ versions => !versions.isEmpty

def ManifestGroup.restrict (group : ManifestGroup) (p : Version → Bool) : ManifestGroup :=
  ⟨group.representative, group.buckets.restrict p⟩

/-- The groups whose representative passes a test, with the versions that do. -/
def restrictGroups (p : Version → Bool) (groups : List ManifestGroup) : List ManifestGroup :=
  (groups.filter fun g => p g.representative).map (·.restrict p)

/-- What a manifest says about the versions that pass a test. -/
def Manifest.restrict (manifest : Manifest) (p : Version → Bool) : Manifest where
  versions := manifest.versions.filter p
  aliases := manifest.aliases.filter fun v _ => p v
  slots := manifest.slots.mapValues fun _ groups => restrictGroups p groups

section
variable {p : Version → Bool}

theorem Buckets.mem_restrict {buckets : Buckets} {bucket : Option WireId × List Version} :
    bucket ∈ (buckets.restrict p).entries ↔ bucket.2 ≠ [] ∧
      ∃ versions, (bucket.1, versions) ∈ buckets.entries ∧ bucket.2 = versions.filter p := by
  obtain ⟨w, kept⟩ := bucket
  simp only [restrict, Table.entries_filter, Table.mapValues, List.mem_filter, List.mem_map,
    Bool.not_eq_true', List.isEmpty_eq_false_iff]
  constructor
  · rintro ⟨⟨⟨w', versions⟩, hb, heq⟩, hne⟩
    obtain ⟨rfl, rfl⟩ := Prod.mk.inj heq
    exact ⟨hne, versions, hb, rfl⟩
  · rintro ⟨hne, versions, hb, rfl⟩
    exact ⟨⟨(w, versions), hb, rfl⟩, hne⟩

theorem Buckets.mem_placements_restrict {buckets : Buckets} {q : Placement} :
    q ∈ (buckets.restrict p).placements ↔ q ∈ buckets.placements ∧ p q.2 = true := by
  obtain ⟨w, v⟩ := q
  rw [Buckets.mem_placements, Buckets.mem_placements]
  constructor
  · rintro ⟨kept, hb, hv⟩
    obtain ⟨-, versions, hb, rfl⟩ := Buckets.mem_restrict.mp hb
    obtain ⟨hv, hp⟩ := List.mem_filter.mp hv
    exact ⟨⟨versions, hb, hv⟩, hp⟩
  · rintro ⟨⟨versions, hb, hv⟩, hp⟩
    have hv' : v ∈ versions.filter p := List.mem_filter.mpr ⟨hv, hp⟩
    exact ⟨_, Buckets.mem_restrict.mpr ⟨List.ne_nil_of_mem hv', versions, hb, rfl⟩, hv'⟩

theorem Buckets.Filed.restrict {buckets : Buckets} (h : buckets.Filed) :
    (buckets.restrict p).Filed := by
  intro bucket hb
  obtain ⟨hne, versions, hb, heq⟩ := Buckets.mem_restrict.mp hb
  refine ⟨hne, ?_⟩
  rw [heq]
  exact (h _ hb).2.filter p

variable {types : List TypeName} {slot : Slot} {entries later : List (Version × Document)}
  {groups : List ManifestGroup}

/-- A classification of old and later entries, restricted to the old versions, is one of the old
entries. -/
theorem Classified.restrict (h : Classified types slot (entries ++ later) groups)
    (hasc : (entries ++ later).Pairwise fun a b => a.1 < b.1)
    (hin : ∀ e ∈ entries, p e.1 = true) (hout : ∀ e ∈ later, p e.1 = false) :
    Classified types slot entries (restrictGroups p groups) := by
  have hold : ∀ e ∈ entries ++ later, p e.1 = true → e ∈ entries := by
    intro e he hp
    rcases List.mem_append.mp he with he | he
    · exact he
    · rw [hout e he] at hp
      cases hp
  have hgroups : ∀ {P : ManifestGroup → Prop},
      (∀ g ∈ groups, p g.representative = true → P (g.restrict p)) →
        ∀ g ∈ restrictGroups p groups, P g := by
    intro P hP
    refine List.forall_mem_map.mpr fun g hg => ?_
    obtain ⟨hg, hp⟩ := List.mem_filter.mp hg
    exact hP g hg hp
  constructor
  · exact List.pairwise_map.mpr (h.ascending.filter _)
  · exact hgroups fun g hg _ => (h.filed g hg).restrict
  · refine hgroups fun g hg _ q hq => ?_
    exact h.least g hg q (Buckets.mem_placements_restrict.mp hq).1
  · intro e he q hplaced
    obtain ⟨g, hg, hq⟩ := h.covers e (List.mem_append_left _ he) q hplaced
    obtain ⟨d, -, hd, -⟩ := h.gathered g hg
    have hv := (placement?_eq_some.mp hplaced).1
    -- The representative does not come after the old version, and so it is old itself.
    have hrep : p g.representative = true := by
      rcases List.mem_append.mp hd with hd | hd
      · exact hin _ hd
      · have hlt := (List.pairwise_append.mp hasc).2.2 e he _ hd
        exact absurd (h.least g hg q hq) (Nat.not_le_of_lt (hv ▸ hlt))
    refine ⟨g.restrict p, List.mem_map_of_mem (List.mem_filter.mpr ⟨hg, hrep⟩), ?_⟩
    exact Buckets.mem_placements_restrict.mpr ⟨hq, hv ▸ hin e he⟩
  · refine hgroups fun g hg hrep => ?_
    obtain ⟨d, w, hd, hled, hmem⟩ := h.gathered g hg
    refine ⟨d, w, hold _ hd hrep, hled, fun q => ?_⟩
    rw [ManifestGroup.restrict, Buckets.mem_placements_restrict, hmem]
    constructor
    · rintro ⟨⟨e, he, hplaced, hakin⟩, hq⟩
      have hv := (placement?_eq_some.mp hplaced).1
      exact ⟨e, hold e he (hv ▸ hq), hplaced, hakin⟩
    · rintro ⟨e, he, hplaced, hakin⟩
      have hv := (placement?_eq_some.mp hplaced).1
      exact ⟨⟨e, List.mem_append_left _ he, hplaced, hakin⟩, hv ▸ hin e he⟩

end

end VersionGroups
