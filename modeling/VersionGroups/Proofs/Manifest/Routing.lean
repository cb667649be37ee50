import VersionGroups.Proofs.Manifest.Accounting

/-!
# Routing by wire ids

A reader of the manifest tells the packets of one version, direction and state apart by their wire
ids. The wire id of a packet is the number of its keys in the id mapping, and keys are texts: `0x1`
and `0x01` are two keys of one number. Two packets of a mapping share a wire id exactly if the
mapping has such a pair of keys for them, and nothing else makes two packets alike to the reader.
-/
namespace VersionGroups

/-- Two entries of an id mapping name two packets under keys of one number. -/
def PacketTable.Collides (table : PacketTable) (name name' : String) : Prop :=
  ∃ x ∈ table.mappings, ∃ y ∈ table.mappings, x ≠ y ∧ x.2.asString? = some name ∧
    y.2.asString? = some name' ∧ WireId.ofKey? x.1 = WireId.ofKey? y.1

/-- Two packets of one mapping have one wire id exactly if the mapping has two keys of one number
for them. -/
theorem View.wireId_eq_iff_collides {view : View} {direction : Direction}
    {state name name' : String} (hne : name ≠ name') {a b : WireId}
    (ha : view.packetWireId? ⟨direction, state, name⟩ = .ok (some a))
    (hb : view.packetWireId? ⟨direction, state, name'⟩ = .ok (some b)) :
    a = b ↔ ∃ table, view.HasTable direction state table ∧
      table.Collides name name' := by
  obtain ⟨⟨key, table, htable, value, hmem, hnamed⟩, hkeys⟩ := packetWireId?_ok ha
  obtain ⟨⟨key', table', htable', value', hmem', hnamed'⟩, hkeys'⟩ := packetWireId?_ok hb
  obtain rfl : table = table' := htable.unique htable'
  have hfirst {e : String × Json} (he : e ∈ table.mappings) (hname : e.2.asString? = some name) :
      WireId.ofKey? e.1 = some a := hkeys e.1 ⟨table, htable, e.2, he, hname⟩
  have hsecond {e : String × Json} (he : e ∈ table.mappings) (hname : e.2.asString? = some name') :
      WireId.ofKey? e.1 = some b := hkeys' e.1 ⟨table, htable, e.2, he, hname⟩
  constructor
  · intro hab
    refine ⟨table, htable, (key, value), hmem, (key', value'), hmem', ?_, hnamed, hnamed', ?_⟩
    · intro heq
      obtain ⟨-, rfl⟩ := Prod.mk.inj heq
      exact hne (Option.some.inj (hnamed.symm.trans hnamed'))
    · rw [hfirst hmem hnamed, hsecond hmem' hnamed', hab]
  · rintro ⟨table', htable', x, hx, y, hy, -, hxname, hyname, hxy⟩
    obtain rfl : table = table' := htable.unique htable'
    have hsome : some a = some b := by
      calc
        some a = WireId.ofKey? x.1 := (hfirst hx hxname).symm
        _ = WireId.ofKey? y.1 := hxy
        _ = some b := hsecond hy hyname
    exact Option.some.inj hsome

theorem Computed.MadeFrom.wireId_of_listed {corpus : Corpus} {config : SlotConfig}
    {computed : Computed} (h : computed.MadeFrom corpus config) {p : PacketName} {v : Version}
    {w : Option WireId} (hw : (w, v) ∈ computed.manifest.placements (.packet p)) :
    ∃ d id, corpus.get? v = some d ∧ w = some id ∧
      (View.mk v d).packetWireId? p = .ok (some id) := by
  obtain ⟨g, hg, -⟩ := Manifest.exists_placement.mp ⟨w, hw⟩
  obtain ⟨d, hd, hplaced⟩ := (h.mem_placements_iff (h.mem_slots_of_group hg)).mp hw
  obtain ⟨-, ⟨spec, hspec⟩, hwire⟩ := placement?_eq_some.mp hplaced
  cases w with
  | none => exact absurd hwire (View.packetWireId?_ne_none hspec)
  | some id => exact ⟨d, id, (Corpus.mem_within.mp hd).1, rfl, hwire⟩

/-- Two packets of one direction and state are listed under one wire id for a version exactly if
the id mapping of the version has two keys of one number for them. -/
theorem compute_routes {corpus : Corpus} {config : SlotConfig} {computed : Computed}
    (hcompute : (compute corpus config).value = .ok computed) {p q : PacketName} (hne : p ≠ q)
    (hdirection : p.direction = q.direction) (hstate : p.state = q.state) {v : Version}
    {i j : Option WireId} (hi : (i, v) ∈ computed.manifest.placements (.packet p))
    (hj : (j, v) ∈ computed.manifest.placements (.packet q)) :
    i = j ↔ ∃ d table, corpus.get? v = some d ∧
      (View.mk v d).HasTable p.direction p.state table ∧
      table.Collides p.name q.name := by
  obtain ⟨direction, state, name⟩ := p
  obtain ⟨direction', state', name'⟩ := q
  obtain rfl : direction = direction' := hdirection
  obtain rfl : state = state' := hstate
  have hnames : name ≠ name' := by
    rintro rfl
    exact hne rfl
  have hmade := madeFrom_of_compute hcompute
  obtain ⟨d, a, hd, rfl, ha⟩ := hmade.wireId_of_listed hi
  obtain ⟨d', b, hd', rfl, hb⟩ := hmade.wireId_of_listed hj
  obtain rfl := Option.some.inj (hd.symm.trans hd')
  rw [Option.some.injEq, View.wireId_eq_iff_collides hnames ha hb]
  constructor
  · rintro ⟨table, htable, hcollides⟩
    exact ⟨d, table, hd, htable, hcollides⟩
  · rintro ⟨d', table, hd', htable, hcollides⟩
    obtain rfl := Option.some.inj (hd.symm.trans hd')
    exact ⟨table, htable, hcollides⟩

/-- Three packets of one state, two of them under keys of one number. -/
def sharedIdDocument : Document :=
  ⟨.obj [("play", .obj [("toServer",
    packetSection [("0x00", "ping"), ("0x01", "chat"), ("0x1", "look")])])]⟩

def sharedIdCorpus : Corpus := .ofList [(1, sharedIdDocument)]

def chatPacket : PacketName := ⟨.toServer, "play", "chat"⟩

def lookPacket : PacketName := ⟨.toServer, "play", "look"⟩

def sharedIdConfig : SlotConfig where
  range := ⟨1, none⟩
  registry :=
    { slots := [.packet chatPacket, .packet lookPacket, pingSlot]
      ascending := by decide
      distinct := by decide
      filled := by decide }

theorem compute_sharedId : ∃ computed,
    (compute sharedIdCorpus sharedIdConfig).value = .ok computed ∧
      (some ⟨0, by decide⟩, 1) ∈ computed.manifest.placements pingSlot ∧
      (some ⟨1, by decide⟩, 1) ∈ computed.manifest.placements (.packet chatPacket) ∧
      (some ⟨1, by decide⟩, 1) ∈ computed.manifest.placements (.packet lookPacket) := by
  have hrelation : ∀ kept,
      sharedIdConfig.relation kept = fun _ spec _ other => .ok (spec == other) :=
    structural_nil
  have hok : (compute sharedIdCorpus sharedIdConfig).value.toBool = true := by
    simp only [compute_value, hrelation]
    decide +kernel
  obtain ⟨computed, hvalue⟩ := exists_ok_of_toBool hok
  have hmade := madeFrom_of_compute hvalue
  have hplaced {slot : Slot} {w : Option WireId} (hslot : slot ∈ sharedIdConfig.registry.slots)
      (h : placement? slot (1, sharedIdDocument) = some (w, 1)) :
      (w, 1) ∈ computed.manifest.placements slot :=
    (hmade.mem_placements_iff hslot).mpr ⟨_, Corpus.mem_within.mpr ⟨rfl, rfl⟩, h⟩
  exact ⟨computed, hvalue, hplaced (by decide) rfl, hplaced (by decide) rfl,
    hplaced (by decide) rfl⟩

/-- Packets under keys of different numbers are told apart, those under keys of one are not. -/
theorem compute_routes_sharedId : ∃ computed,
    (compute sharedIdCorpus sharedIdConfig).value = .ok computed ∧
      (∃ d table, sharedIdCorpus.get? 1 = some d ∧
        (View.mk 1 d).HasTable .toServer "play" table ∧
        table.Collides "chat" "look") ∧
      ¬∃ d table, sharedIdCorpus.get? 1 = some d ∧
        (View.mk 1 d).HasTable .toServer "play" table ∧
        table.Collides "ping" "look" := by
  obtain ⟨computed, h, hping, hchat, hlook⟩ := compute_sharedId
  have hshared := compute_routes h (p := chatPacket) (q := lookPacket) (by decide) rfl rfl
    hchat hlook
  have hapart := compute_routes h (p := ⟨.toServer, "play", "ping"⟩) (q := lookPacket)
    (by decide) rfl rfl hping hlook
  exact ⟨computed, h, hshared.mp rfl, fun hcollides => absurd (hapart.mpr hcollides) (by decide)⟩

/-- Two tracked packets of one direction and state are listed for a version under one wire id. -/
theorem sharedId_unroutable : ∃ computed,
    (compute sharedIdCorpus sharedIdConfig).value = .ok computed ∧
      chatPacket ≠ lookPacket ∧ chatPacket.direction = lookPacket.direction ∧
      chatPacket.state = lookPacket.state ∧
      ∃ w, (w, 1) ∈ computed.manifest.placements (.packet chatPacket) ∧
        (w, 1) ∈ computed.manifest.placements (.packet lookPacket) := by
  obtain ⟨computed, h, -, hchat, hlook⟩ := compute_sharedId
  exact ⟨computed, h, by decide, rfl, rfl, _, hchat, hlook⟩

end VersionGroups
