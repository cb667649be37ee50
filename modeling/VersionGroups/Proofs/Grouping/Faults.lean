import VersionGroups.Proofs.Corpus.Faults
import VersionGroups.Proofs.Grouping.Classes

/-!
# Why a slot cannot be grouped

Under structural equivalence a version is related to one representative at most: two representatives
of one surface would have been put into one group. So grouping fails only because a document is
inconsistent or because the references of tracked types are cyclic.
-/
namespace VersionGroups
open VersionGroups.Equivalence

variable {corpus : Corpus} {types : List TypeName} {slot : Slot}
  {taken : List (Version × Document)} {groups : List OpenGroup} {v : Version} {d : Document}
  {spec : Json} {fault : Fault}

section
variable (distinct : (types.map TypeName.path).Nodup)
  (h : Partition (structural corpus types) corpus slot taken groups)
include distinct h

theorem Partition.unambiguous {g g' : OpenGroup} (hg : g ∈ groups) (hg' : g' ∈ groups)
    (hlt : g.group.representative < g'.group.representative) (hd : (v, d) ∈ corpus.entries)
    (htrue : structural corpus types g.group.representative g.head v spec = .ok true)
    (htrue' : structural corpus types g'.group.representative g'.head v spec = .ok true) :
    False := by
  obtain ⟨e, he, hespec⟩ := h.headed g hg
  obtain ⟨e', he', hespec'⟩ := h.headed g' hg'
  obtain ⟨w, hw⟩ := h.led g' hg'
  have hsame := sameSurface_of_structural distinct (get?_viewOf he) (get?_viewOf hd) htrue
  have hsame' := sameSurface_of_structural distinct (get?_viewOf he') (get?_viewOf hd) htrue'
  exact h.not_sameSurface_head distinct hg hg' hlt hw he' hespec' he (hsame.trans hsame'.symm)

theorem matchGroup_fault (hd : (v, d) ∈ corpus.entries)
    (hmatch : matchGroup (structural corpus types) slot v spec none groups = .error fault) :
    fault.kind = .cycleDetected := by
  rcases matchGroup_none_error h.ascending hmatch with
    ⟨g, hg, herror⟩ | ⟨g, hg, g', hg', hlt, htrue, htrue', -⟩
  · obtain ⟨e, he, -⟩ := h.headed g hg
    rcases structural_cases distinct (get?_viewOf he) (get?_viewOf hd) g.head spec with
      ⟨hok, -⟩ | ⟨hok, -⟩ | ⟨path, hcycle, -⟩
    · rw [hok] at herror
      cases herror
    · rw [hok] at herror
      cases herror
    · rw [hcycle] at herror
      obtain rfl := Except.error.inj herror
      rfl
  · exact (h.unambiguous distinct hg hg' hlt hd htrue htrue').elim

end

theorem groupSlot_fault (distinct : (types.map TypeName.path).Nodup)
    (h : groupSlot corpus (structural corpus types) slot = .error fault) :
    fault.kind = .corpusInconsistency ∨ fault.kind = .cycleDetected := by
  obtain ⟨taken, ⟨v, d⟩, rest, groups, hall, hpart, h⟩ := groupSlot_eq_error h
  have hd : (v, d) ∈ corpus.entries := by simp [hall]
  rcases groupVersion_error h with hspec | ⟨spec, -, hwire | hmatch⟩
  · exact .inl (View.slotSpec?_error hspec)
  · exact .inl (View.slotWireId?_error hwire)
  · exact .inr (matchGroup_fault distinct hpart hd hmatch)

end VersionGroups
