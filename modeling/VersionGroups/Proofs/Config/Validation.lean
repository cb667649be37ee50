import VersionGroups.Config.Basic
import VersionGroups.Proofs.Results
import VersionGroups.Proofs.Slot.Registry

/-!
# The declarations that are accepted

What a configuration declares is a list of entries, each a type or a packet. Every entry names a
slot if its path or its direction can be read, and a direction has to be readable even if it has no
packets. The declarations are accepted exactly if the range of versions is not inverted and the
slots that the entries name can be registered; then the registry holds one slot for each entry.
-/
namespace VersionGroups.Declarations

/-- One type or packet that is declared. -/
inductive Entry where
  | type (path : String)
  | packet (direction state name : String)
  deriving DecidableEq, Repr

def Entry.slot : Entry → Except Fault Slot
  | .type path => do return .type (← TypeName.parse path)
  | .packet direction state name => do
      return .packet ⟨← Direction.parse direction, state, name⟩

def packetEntries (entry : String × Table String (List String)) : List Entry :=
  entry.2.entries.flatMap fun state => state.2.map fun name => .packet entry.1 state.1 name

/-- All that is declared: one entry for each type, and one for each packet of each state of each
direction. -/
def entries (declarations : Declarations) : List Entry :=
  declarations.types.map .type ++ declarations.packets.entries.flatMap packetEntries

/-- What a declared configuration has to be. A state without packets declares no slot and may have
any name. -/
structure IsValid (declarations : Declarations) : Prop where
  range : ∀ maximum, declarations.maximum = some maximum → declarations.minimum ≤ maximum
  types : ∀ path ∈ declarations.types, ∃ t, TypeName.parse path = .ok t
  directions : ∀ text ∈ declarations.packets.keys, ∃ d, Direction.parse text = .ok d
  filled : ∀ entry ∈ declarations.entries, ∀ s, entry.slot = .ok s →
    ∀ segment ∈ s.segments, trimmed segment ≠ ""
  distinct : declarations.entries.Pairwise fun entry entry' => ∀ s s',
    entry.slot = .ok s → entry'.slot = .ok s' → normalized s.label ≠ normalized s'.label

variable {declarations : Declarations} {slots : List Slot}

theorem packetSlots_eq_ok {entry : String × Table String (List String)} :
    packetSlots entry = .ok slots ↔ (∃ d, Direction.parse entry.1 = .ok d) ∧
      (packetEntries entry).map Entry.slot = slots.map .ok := by
  cases hparse : Direction.parse entry.1 with
  | error fault => simp [packetSlots, hparse, bind, Except.bind]
  | ok d =>
      -- With the direction at hand, no entry can fail, and the slots are written down at once.
      have hslots : ∃ found, packetSlots entry = .ok found ∧
          (packetEntries entry).map Entry.slot = found.map .ok := by
        refine ⟨_, by rw [packetSlots, hparse]; rfl, ?_⟩
        simp only [packetEntries, List.map_flatMap, List.map_map]
        simp only [Function.comp_def, Entry.slot, hparse]
        rfl
      obtain ⟨found, hfound, hentries⟩ := hslots
      rw [hfound, hentries, List.map_inj_right fun _ _ => Except.ok.inj, Except.ok.injEq]
      exact ⟨fun h => ⟨⟨d, rfl⟩, h⟩, And.right⟩

/-- The packets of all directions are found exactly if every direction can be read. -/
theorem mapM_packetSlots {packets : List (String × Table String (List String))} :
    (∃ groups, packets.mapM packetSlots = .ok groups ∧ groups.flatten = slots) ↔
      (∀ entry ∈ packets, ∃ d, Direction.parse entry.1 = .ok d) ∧
        (packets.flatMap packetEntries).map Entry.slot = slots.map .ok := by
  induction packets generalizing slots with
  | nil => simp [pure, Except.pure, eq_comm]
  | cons entry rest ih =>
      rw [List.forall_mem_cons, List.flatMap_cons, List.map_append]
      constructor
      · rintro ⟨groups, hgroups, rfl⟩
        rw [mapM_eq_ok] at hgroups
        obtain ⟨group, others, rfl, hgroup, hothers⟩ := List.map_eq_cons_iff.mp hgroups.symm
        obtain ⟨hdirection, hslots⟩ := packetSlots_eq_ok.mp hgroup.symm
        obtain ⟨hdirections, hrest⟩ := ih.mp ⟨others, mapM_eq_ok.mpr hothers.symm, rfl⟩
        exact ⟨⟨hdirection, hdirections⟩,
          by rw [hslots, hrest, List.flatten_cons, List.map_append]⟩
      · rintro ⟨⟨hdirection, hdirections⟩, h⟩
        obtain ⟨here, others, rfl, hhere, hrest⟩ := List.map_eq_append_iff.mp h.symm
        obtain ⟨groups, hgroups, rfl⟩ := ih.mpr ⟨hdirections, hrest.symm⟩
        refine ⟨here :: groups, mapM_eq_ok.mpr ?_, List.flatten_cons⟩
        rw [List.map_cons, List.map_cons, packetSlots_eq_ok.mpr ⟨hdirection, hhere.symm⟩,
          mapM_eq_ok.mp hgroups]

/-- The declared slots are those of the entries, one for each, and are found exactly if all paths
and all directions can be read. -/
theorem slots_eq_ok : declarations.slots = .ok slots ↔
    (∀ text ∈ declarations.packets.keys, ∃ d, Direction.parse text = .ok d) ∧
      declarations.entries.map Entry.slot = slots.map .ok := by
  have htypes (types : List Slot) : typeSlots declarations.types = .ok types ↔
      (declarations.types.map Entry.type).map Entry.slot = types.map .ok := by
    rw [typeSlots, mapM_eq_ok, List.map_map]
    rfl
  rw [Declarations.slots, bind_eq_ok, entries, List.map_append, Table.keys, List.forall_mem_map]
  constructor
  · rintro ⟨types, ht, h⟩
    obtain ⟨groups, hgroups, h⟩ := bind_eq_ok.mp h
    obtain rfl := Except.ok.inj h
    obtain ⟨hdirections, hpackets⟩ := mapM_packetSlots.mp ⟨groups, hgroups, rfl⟩
    exact ⟨hdirections, by rw [(htypes types).mp ht, hpackets, List.map_append]⟩
  · rintro ⟨hdirections, h⟩
    obtain ⟨types, packets, rfl, ht, hpackets⟩ := List.map_eq_append_iff.mp h.symm
    obtain ⟨groups, hgroups, rfl⟩ := mapM_packetSlots.mpr ⟨hdirections, hpackets.symm⟩
    exact ⟨types, (htypes types).mpr ht.symm, bind_eq_ok.mpr ⟨groups, hgroups, rfl⟩⟩

/-- What is accepted has its slots registered and keeps its range. -/
theorem validate_eq_ok {config : SlotConfig} : declarations.validate = .ok config ↔
    declarations.invertedEnd? = none ∧ ∃ slots registry, declarations.slots = .ok slots ∧
      Registry.ofList slots = .ok registry ∧
      config = ⟨⟨declarations.minimum, declarations.maximum⟩, registry⟩ := by
  rw [validate]
  cases declarations.invertedEnd? with
  | some maximum => simp
  | none =>
      cases hslots : declarations.slots with
      | error fault => simp [Except.bind]
      | ok slots =>
          cases hregistry : Registry.ofList slots with
          | error fault => simp [Except.bind, hregistry]
          | ok registry => simp [Except.bind, hregistry, eq_comm]

theorem invertedEnd?_eq_none : declarations.invertedEnd? = none ↔
    ∀ maximum, declarations.maximum = some maximum → declarations.minimum ≤ maximum := by
  simp [invertedEnd?, Option.filter_eq_none_iff]

/-- The slots that entries name can be registered exactly if none has a blank segment and no two
have one key. -/
theorem registrable_iff (h : declarations.entries.map Entry.slot = slots.map .ok) :
    Registry.Registrable slots ↔
      (∀ entry ∈ declarations.entries, ∀ s, entry.slot = .ok s →
        ∀ segment ∈ s.segments, trimmed segment ≠ "") ∧
      declarations.entries.Pairwise fun entry entry' => ∀ s s',
        entry.slot = .ok s → entry'.slot = .ok s' → normalized s.label ≠ normalized s'.label := by
  have hfilled : (∀ s ∈ slots, s.hasBlankSegment = false) ↔
      ∀ found ∈ declarations.entries.map Entry.slot, ∀ s, found = .ok s →
        ∀ segment ∈ s.segments, trimmed segment ≠ "" := by
    simp [h, Slot.hasBlankSegment_eq_false_iff]
  have hdistinct : (slots.map Slot.key).Nodup ↔
      (declarations.entries.map Entry.slot).Pairwise fun found found' => ∀ s s',
        found = .ok s → found' = .ok s' → normalized s.label ≠ normalized s'.label := by
    rw [h, List.pairwise_map, List.Nodup, List.pairwise_map]
    simp [Slot.key]
  rw [Registry.Registrable, hfilled, hdistinct, List.forall_mem_map, List.pairwise_map]

/-- An entry names a slot if its path or its direction can be read. -/
theorem exists_slot (types : ∀ path ∈ declarations.types, ∃ t, TypeName.parse path = .ok t)
    (directions : ∀ text ∈ declarations.packets.keys, ∃ d, Direction.parse text = .ok d) :
    ∀ entry ∈ declarations.entries, ∃ s, entry.slot = .ok s := by
  intro entry hentry
  rcases List.mem_append.mp hentry with hentry | hentry
  · obtain ⟨path, hpath, rfl⟩ := List.mem_map.mp hentry
    obtain ⟨t, ht⟩ := types path hpath
    exact ⟨.type t, bind_eq_ok.mpr ⟨t, ht, rfl⟩⟩
  · obtain ⟨direction, hdirection, hentry⟩ := List.mem_flatMap.mp hentry
    obtain ⟨state, -, hentry⟩ := List.mem_flatMap.mp hentry
    obtain ⟨name, -, rfl⟩ := List.mem_map.mp hentry
    obtain ⟨d, hd⟩ := directions direction.1 (List.mem_map_of_mem hdirection)
    exact ⟨.packet ⟨d, state.1, name⟩, bind_eq_ok.mpr ⟨d, hd, rfl⟩⟩

theorem isValid_iff : declarations.IsValid ↔
    declarations.invertedEnd? = none ∧ ∃ slots, declarations.slots = .ok slots ∧
      Registry.Registrable slots := by
  constructor
  · intro h
    obtain ⟨slots, hslots⟩ := exists_map_eq_ok (exists_slot h.types h.directions)
    exact ⟨invertedEnd?_eq_none.mpr h.range, slots, slots_eq_ok.mpr ⟨h.directions, hslots⟩,
      (registrable_iff hslots).mpr ⟨h.filled, h.distinct⟩⟩
  · rintro ⟨hrange, slots, hslots, hregistrable⟩
    obtain ⟨hdirections, hentries⟩ := slots_eq_ok.mp hslots
    obtain ⟨hfilled, hdistinct⟩ := (registrable_iff hentries).mp hregistrable
    refine ⟨invertedEnd?_eq_none.mp hrange, ?_, hdirections, hfilled, hdistinct⟩
    intro path hpath
    have hmem : (Entry.type path).slot ∈ declarations.entries.map Entry.slot :=
      List.mem_map_of_mem (List.mem_append_left _ (List.mem_map_of_mem hpath))
    rw [hentries] at hmem
    obtain ⟨s, -, hs⟩ := List.mem_map.mp hmem
    obtain ⟨t, ht, -⟩ := bind_eq_ok.mp hs.symm
    exact ⟨t, ht⟩

/-- Exactly the valid declarations are accepted. The configuration then has the declared range, and
its slots are those that the entries name, one for each entry, in the order of slots. -/
theorem validate_accepts (declarations : Declarations) :
    ((∃ config, declarations.validate = .ok config) ↔ declarations.IsValid) ∧
      ∀ config, declarations.validate = .ok config →
        config.range = ⟨declarations.minimum, declarations.maximum⟩ ∧
        config.registry.slots.Pairwise Slot.Precedes ∧
        ∃ slots, declarations.entries.map Entry.slot = slots.map .ok ∧
          config.registry.slots.Perm slots := by
  constructor
  · rw [isValid_iff]
    constructor
    · rintro ⟨config, h⟩
      obtain ⟨hrange, slots, registry, hslots, hregistry, -⟩ := validate_eq_ok.mp h
      exact ⟨hrange, slots, hslots, (Registry.ofList_eq_ok hregistry).1⟩
    · rintro ⟨hrange, slots, hslots, hregistrable⟩
      obtain ⟨registry, hregistry, -⟩ := Registry.ofList_of_registrable hregistrable
      exact ⟨_, validate_eq_ok.mpr ⟨hrange, slots, registry, hslots, hregistry, rfl⟩⟩
  · intro config h
    obtain ⟨-, slots, registry, hslots, hregistry, rfl⟩ := validate_eq_ok.mp h
    refine ⟨rfl, registry.precedes, slots, (slots_eq_ok.mp hslots).2, ?_⟩
    rw [(Registry.ofList_eq_ok hregistry).2]
    exact Registry.sorted_perm slots

/-- A packet in the state `play`, and a state without packets whose name is blank. -/
def blankState : Declarations :=
  { minimum := 1
    maximum := none
    types := []
    packets := Table.ofList [("c2s", Table.ofList [(" ", []), ("play", ["chat"])])] }

/-- A blank state is accepted if it has no packets, because it declares no slot. -/
theorem validate_blankState : (∃ config, blankState.validate = .ok config) ∧
    ∃ states ∈ blankState.packets.values, ∃ state ∈ states.keys, trimmed state = "" :=
  ⟨exists_ok_of_toBool (by decide +kernel), by decide +kernel⟩

/-- One direction may be written in two ways, if no slot is declared under both. -/
example : (⟨1, none, [], Table.ofList [("C2S", Table.ofList [("play", ["chat"])]),
    ("c2s", Table.ofList [("play", ["ping"])])]⟩ : Declarations).validate.toBool = true := by
  decide +kernel

end VersionGroups.Declarations
