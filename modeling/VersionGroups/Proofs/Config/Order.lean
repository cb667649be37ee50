import VersionGroups.Proofs.Table
import VersionGroups.Slot.Registry

/-!
# The order of declared slots

Slots can be registered exactly if none has a blank segment and no two have one key. The order in
which they are declared does not enter into that, only into which fault is reported, and the
registry lists them in an order of its own.
-/
namespace VersionGroups.Registry

variable {seen : List String} {slots slots' : List Slot}

/-- No slot has a blank segment, and no two slots have one key. -/
def Registrable (slots : List Slot) : Prop :=
  (∀ s ∈ slots, s.hasBlankSegment = false) ∧ (slots.map Slot.key).Nodup

theorem firstFault?_eq_none (filled : ∀ s ∈ slots, s.hasBlankSegment = false)
    (distinct : (slots.map Slot.key).Nodup) (fresh : ∀ s ∈ slots, s.key ∉ seen) :
    firstFault? seen slots = none := by
  induction slots generalizing seen with
  | nil => rfl
  | cons s rest ih =>
      obtain ⟨hfilled, hrest⟩ := List.forall_mem_cons.mp filled
      obtain ⟨hfresh, hrestFresh⟩ := List.forall_mem_cons.mp fresh
      rw [List.map_cons, List.nodup_cons] at distinct
      rw [firstFault?, if_neg (by simp [hfilled]), if_neg hfresh]
      refine ih hrest distinct.2 fun t ht hseen => ?_
      rcases List.mem_cons.mp hseen with heq | hseen
      · exact distinct.1 (heq ▸ List.mem_map_of_mem ht)
      · exact hrestFresh t ht hseen

theorem firstFault?_eq_none_iff : firstFault? [] slots = none ↔ Registrable slots :=
  ⟨fun h => ⟨filled_of_firstFault? h, (distinct_of_firstFault? h).1⟩,
    fun h => firstFault?_eq_none h.1 h.2 fun _ _ => List.not_mem_nil⟩

/-- Slots that can be registered are listed in their own order. -/
theorem ofList_of_registrable (h : Registrable slots) :
    ∃ registry, ofList slots = .ok registry ∧ registry.slots = sorted slots := by
  have hnone := firstFault?_eq_none_iff.mpr h
  rw [ofList]
  split
  · rename_i fault hfault
    rw [hnone] at hfault
    cases hfault
  · exact ⟨_, rfl, rfl⟩

theorem ofList_of_not_registrable (h : ¬ Registrable slots) :
    ∃ fault, ofList slots = .error fault := by
  rw [ofList]
  split
  · exact ⟨_, rfl⟩
  · rename_i hnone
    exact absurd (firstFault?_eq_none_iff.mp hnone) h

theorem ofList_eq_ok {registry : Registry} (h : ofList slots = .ok registry) :
    Registrable slots ∧ registry.slots = sorted slots := by
  rw [ofList] at h
  split at h
  · cases h
  · rename_i hnone
    obtain rfl := Except.ok.inj h
    exact ⟨firstFault?_eq_none_iff.mp hnone, rfl⟩

theorem Registrable.perm (h : Registrable slots) (hperm : slots.Perm slots') :
    Registrable slots' :=
  ⟨fun s hs => h.1 s (hperm.mem_iff.mpr hs), (hperm.map Slot.key).nodup_iff.mp h.2⟩

theorem sorted_eq_of_perm (h : Registrable slots) (hperm : slots.Perm slots') :
    sorted slots = sorted slots' := by
  have hsorted := ascending_sorted h.2
  have hsorted' := ascending_sorted (h.perm hperm).2
  refine Table.eq_of_compare_lt (f := id) hsorted hsorted' fun s => ?_
  rw [(sorted_perm slots).mem_iff, (sorted_perm slots').mem_iff, hperm.mem_iff]

theorem ext_slots {registry registry' : Registry} (h : registry.slots = registry'.slots) :
    registry = registry' := by
  cases registry
  cases registry'
  cases h
  rfl

theorem ofList_slots (registry : Registry) : ofList registry.slots = .ok registry := by
  obtain ⟨found, hfound, hslots⟩ := ofList_of_registrable ⟨registry.filled, registry.distinct⟩
  have hsorted : sorted registry.slots = registry.slots := by
    refine List.mergeSort_of_pairwise (registry.ascending.imp ?_)
    intro s t hlt
    rw [hlt]
    rfl
  rw [hfound, ext_slots (hslots.trans hsorted)]

/-- Slots in two orders are both rejected or give one registry. -/
theorem ofList_perm (hperm : slots.Perm slots') :
    (∃ fault fault', ofList slots = .error fault ∧ ofList slots' = .error fault') ∨
      ∃ registry, ofList slots = .ok registry ∧ ofList slots' = .ok registry := by
  by_cases h : Registrable slots
  · obtain ⟨registry, hofList, hslots⟩ := ofList_of_registrable h
    obtain ⟨registry', hofList', hslots'⟩ := ofList_of_registrable (h.perm hperm)
    obtain rfl : registry = registry' :=
      ext_slots (hslots.trans ((sorted_eq_of_perm h hperm).trans hslots'.symm))
    exact .inr ⟨registry, hofList, hofList'⟩
  · have h' : ¬ Registrable slots' := fun h' => h (h'.perm hperm.symm)
    obtain ⟨fault, hfault⟩ := ofList_of_not_registrable h
    obtain ⟨fault', hfault'⟩ := ofList_of_not_registrable h'
    exact .inl ⟨fault, fault', hfault, hfault'⟩

end VersionGroups.Registry
