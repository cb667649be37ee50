import VersionGroups.Manifest.Render
import VersionGroups.Proofs.Results
import VersionGroups.Proofs.Table

/-!
# Every slot finds its place in the file

Laying out a manifest can fail in two ways: a bucket of a packet may have no wire id, and a common
type may have taken the table of a direction. Neither happens if the entries are fit. The fold keeps
the tables of the directions free of common types.
-/
namespace VersionGroups.Manifest

/-- A slot that has a place in the file, with groups that can be written there. -/
structure Fit (entry : Slot × List ManifestGroup) : Prop where
  named : ∀ name, entry.1 = .type ⟨.common, name⟩ → ∀ d : Direction, name ≠ d.name
  identified : ∀ packet, entry.1 = .packet packet → ∀ g ∈ entry.2,
    ∀ bucket ∈ g.buckets.entries, bucket.1 ≠ none

/-- No common type has taken the table of a direction. -/
def Layout.Open (layout : Layout) : Prop :=
  ∀ (d : Direction) rows, layout.types.get? d.name ≠ some (.rows rows)

theorem wireRows_ok (packet : PacketName) {buckets : List (Option WireId × List Version)}
    (h : ∀ bucket ∈ buckets, bucket.1 ≠ none) : ∃ rows, wireRows packet buckets = .ok rows := by
  induction buckets with
  | nil => exact ⟨_, rfl⟩
  | cons bucket rest ih =>
      obtain ⟨hfirst, hrest⟩ := List.forall_mem_cons.mp h
      obtain ⟨rows, hrows⟩ := ih hrest
      obtain ⟨_ | id, versions⟩ := bucket
      · exact absurd rfl hfirst
      · exact ⟨rows.insert id.value versions, by rw [wireRows, hrows]; rfl⟩

theorem wireRows_error {packet : PacketName} {buckets : List (Option WireId × List Version)}
    {fault : Fault} (h : wireRows packet buckets = .error fault) :
    ∃ message, fault = .internal message := by
  induction buckets with
  | nil => cases h
  | cons bucket rest ih =>
      obtain ⟨_ | id, versions⟩ := bucket
      · exact ⟨_, (Except.error.inj h).symm⟩
      · rcases bind_eq_error.mp h with hrest | ⟨rows, -, h⟩
        · exact ih hrest
        · cases h

theorem packetRows_ok (packet : PacketName) {groups : List ManifestGroup}
    (h : ∀ g ∈ groups, ∀ bucket ∈ g.buckets.entries, bucket.1 ≠ none) :
    ∃ rows, packetRows packet groups = .ok rows := by
  refine foldlM_succeeds (fun _ => True) trivial ?_
  intro g hg rows _
  obtain ⟨wires, hwires⟩ := wireRows_ok packet (h g hg)
  exact ⟨rows.insert g.representative wires, by rw [hwires]; rfl, trivial⟩

theorem packetRows_error {packet : PacketName} {groups : List ManifestGroup} {fault : Fault}
    (h : packetRows packet groups = .error fault) : ∃ message, fault = .internal message := by
  obtain ⟨g, rows, hstep⟩ := exists_error_of_foldlM h
  rcases bind_eq_error.mp hstep with hwires | ⟨wires, -, hstep⟩
  · exact wireRows_error hwires
  · cases hstep

theorem Layout.open_addScoped {layout : Layout} (h : layout.Open) (direction : Direction)
    (states : Table String (Table String TypeRows)) (state name : String)
    (groups : List ManifestGroup) :
    (layout.addScoped direction states state name groups).Open := by
  intro d rows hrows
  rw [addScoped, Table.get?_insert] at hrows
  split at hrows
  · cases Option.some.inj hrows
  · exact h d rows hrows

/-- A fit entry is added, and the tables of the directions stay open. -/
theorem Layout.add_ok {layout : Layout} {entry : Slot × List ManifestGroup} (hfit : Fit entry)
    (h : layout.Open) : ∃ layout', layout.add entry = .ok layout' ∧ layout'.Open := by
  obtain ⟨slot, groups⟩ := entry
  match slot with
  | .type ⟨.common, name⟩ =>
      refine ⟨_, rfl, ?_⟩
      intro d rows hrows
      rw [Table.get?_insert] at hrows
      split at hrows
      · rename_i heq
        exact hfit.named name rfl d (Std.LawfulEqCmp.eq_of_compare heq).symm
      · exact h d rows hrows
  | .type ⟨.scoped direction state, name⟩ =>
      cases hget : layout.types.get? direction.name with
      | none =>
          have hopen := open_addScoped h direction Table.empty state name groups
          exact ⟨_, by simp only [Layout.add, hget], hopen⟩
      | some found =>
          cases found with
          | rows rows => exact absurd hget (h direction rows)
          | scope states =>
              have hopen := open_addScoped h direction states state name groups
              exact ⟨_, by simp only [Layout.add, hget], hopen⟩
  | .packet packet =>
      obtain ⟨rows, hrows⟩ := packetRows_ok packet (hfit.identified packet rfl)
      have hadd : ∃ packets,
          layout.add (.packet packet, groups) = .ok { layout with packets := packets } := by
        dsimp only at hrows
        simp only [Layout.add, hrows]
        exact ⟨_, rfl⟩
      obtain ⟨packets, hadd⟩ := hadd
      exact ⟨_, hadd, h⟩

theorem Layout.add_error {layout : Layout} {entry : Slot × List ManifestGroup} {fault : Fault}
    (h : layout.add entry = .error fault) : ∃ message, fault = .internal message := by
  obtain ⟨slot, groups⟩ := entry
  match slot with
  | .type ⟨.common, name⟩ => cases h
  | .type ⟨.scoped direction state, name⟩ =>
      simp only [Layout.add] at h
      split at h
      · exact ⟨_, (Except.error.inj h).symm⟩
      · cases h
      · cases h
  | .packet packet =>
      rcases bind_eq_error.mp h with hrows | ⟨rows, -, h⟩
      · exact packetRows_error hrows
      · cases h

theorem layout_ok {manifest : Manifest} (h : ∀ entry ∈ manifest.slots.entries, Fit entry) :
    ∃ layout, manifest.layout = .ok layout := by
  refine foldlM_succeeds Layout.Open ?_ fun entry hentry layout => Layout.add_ok (h entry hentry)
  intro d rows hrows
  cases hrows

theorem layout_error {manifest : Manifest} {fault : Fault} (h : manifest.layout = .error fault) :
    ∃ message, fault = .internal message := by
  obtain ⟨entry, layout, hstep⟩ := exists_error_of_foldlM h
  exact Layout.add_error hstep

end VersionGroups.Manifest
