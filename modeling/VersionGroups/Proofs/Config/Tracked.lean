import VersionGroups.Config.Reader
import VersionGroups.Proofs.Config.Validation

/-!
# The tracked types of a configuration

In a configuration that was read from a text, every tracked type was read from a path, so no common
type is named like a direction.
-/
namespace VersionGroups

theorem Direction.parse_name (d : Direction) : Direction.parse d.name = .ok d := by
  cases d <;> rfl

/-- The path of a common type is never the name of a direction. -/
theorem TypeName.parse_common {path name : String} (h : TypeName.parse path = .ok ⟨.common, name⟩)
    (d : Direction) : name ≠ d.name := by
  rintro rfl
  rw [TypeName.parse] at h
  split at h
  · cases h
  · split at h
    · split at h
      · cases h
      · rename_i hparse
        obtain rfl := (TypeName.mk.inj (Except.ok.inj h)).2
        rw [Direction.parse_name] at hparse
        cases hparse
    · obtain ⟨direction, -, h⟩ := bind_eq_ok.mp h
      cases (TypeName.mk.inj (Except.ok.inj h)).1
    · cases h

/-- A type among the declared slots was read from a path. -/
theorem Declarations.parsed_of_slots {declarations : Declarations} {slots : List Slot}
    (h : declarations.slots = .ok slots) {t : TypeName} (ht : .type t ∈ slots) :
    ∃ path, TypeName.parse path = .ok t := by
  obtain ⟨entry, -, hentry⟩ := mem_of_map_eq_ok (slots_eq_ok.mp h).2 ht
  cases entry with
  | type path =>
      obtain ⟨t', hpath, heq⟩ := bind_eq_ok.mp hentry
      obtain rfl := Slot.type.inj (Except.ok.inj heq)
      exact ⟨path, hpath⟩
  | packet direction state name =>
      obtain ⟨d, -, heq⟩ := bind_eq_ok.mp hentry
      cases heq

theorem Registry.mem_of_ofList {slots : List Slot} {registry : Registry}
    (h : Registry.ofList slots = .ok registry) {s : Slot} (hs : s ∈ registry.slots) :
    s ∈ slots := by
  rw [(ofList_eq_ok h).2] at hs
  exact (sorted_perm slots).mem_iff.mp hs

/-- In a configuration that was read from a text, no common type is named like a direction. -/
theorem SlotConfig.common_ne_direction {text : String} {format : ConfigFormat}
    {config : SlotConfig} (h : SlotConfig.ofText text format = .ok config) {name : String}
    (ht : .type ⟨.common, name⟩ ∈ config.registry.slots) (d : Direction) : name ≠ d.name := by
  obtain ⟨declarations, -, h⟩ := bind_eq_ok.mp h
  obtain ⟨-, slots, registry, hslots, hofList, rfl⟩ := Declarations.validate_eq_ok.mp h
  obtain ⟨path, hpath⟩ := Declarations.parsed_of_slots hslots
    (Registry.mem_of_ofList hofList ht)
  exact TypeName.parse_common hpath d

theorem SlotConfig.ofText_eq {text : String} {format : ConfigFormat} {config : SlotConfig}
    (h : (SlotConfig.ofText text format).toOption.map (fun found =>
      (found.range, found.registry.slots)) = some (config.range, config.registry.slots)) :
    SlotConfig.ofText text format = .ok config := by
  cases hfound : SlotConfig.ofText text format with
  | error report =>
      rw [hfound] at h
      cases h
  | ok found =>
      rw [hfound] at h
      obtain ⟨range, slots, _, _, _⟩ := found
      obtain ⟨range', slots', _, _, _⟩ := config
      obtain ⟨rfl, rfl⟩ := Prod.mk.inj (Option.some.inj h)
      rfl

/-- A text that declares the slots of a configuration in their order declares the configuration. -/
theorem SlotConfig.ofText_declared {text : String} {format : ConfigFormat} {config : SlotConfig}
    (h : (Declarations.ofText text format).toOption.map (fun found =>
      (found.invertedEnd?, VersionRange.mk found.minimum found.maximum, found.slots.toOption)) =
        some (none, config.range, some config.registry.slots)) :
    SlotConfig.ofText text format = .ok config := by
  cases hfound : Declarations.ofText text format with
  | error report =>
      rw [hfound] at h
      cases h
  | ok found =>
      rw [hfound] at h
      obtain ⟨hend, hrange, hslots⟩ :
          found.invertedEnd? = none ∧ ⟨found.minimum, found.maximum⟩ = config.range ∧
            found.slots.toOption = some config.registry.slots := by
        simpa [Except.toOption] using h
      exact bind_eq_ok.mpr ⟨found, hfound, Declarations.validate_eq_ok.mpr
        ⟨hend, _, config.registry, eq_ok_of_toOption hslots, Registry.ofList_slots _,
          by rw [hrange]⟩⟩

end VersionGroups
