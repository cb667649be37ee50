import VersionGroups.Proofs.Corpus.Tables

/-!
# What an id mapping assigns

The mapping of a direction and a state assigns packets to keys. Whether a packet has a definition,
which wire id it has and whether it is among the listed names are three scans of one mapping, and
they agree: a packet that is assigned to some key is not absent, a wire id that is found is the
number of every key of the packet, and the listed names are the assigned packets, each under the
numbers of its keys.
-/
namespace VersionGroups.View

/-- The id mapping of a packet's direction and state assigns the packet to a key. -/
def Assigns (view : View) (key : String) (packet : PacketName) : Prop :=
  ∃ table, view.HasTable packet.direction packet.state table ∧
    ∃ value, (key, value) ∈ table.mappings ∧ value.asString? = some packet.name

variable {view : View} {packet : PacketName} {key : String}

/-- A packet that has a key in the mapping is not absent from the document. -/
theorem Assigns.packetSpec?_ne_none (h : view.Assigns key packet) :
    view.packetSpec? packet ≠ .ok none := by
  obtain ⟨table, htable, value, hmem, hname⟩ := h
  intro hspec
  obtain ⟨table', htable', hspec⟩ := bind_eq_ok.mp hspec
  obtain rfl := Except.ok.inj (htable.read.symm.trans htable')
  have hnamed : table.mappings.any (fun e => names packet.name e.2) = true :=
    List.any_eq_true.mpr ⟨_, hmem, names_iff.mpr hname⟩
  simp only [hnamed, if_true] at hspec
  split at hspec
  · split at hspec <;> cases hspec
  · cases hspec
  · cases hspec

/-- The key of a packet lies in the section of the packet's state. -/
theorem Assigns.mem_states (h : view.Assigns key packet)
    (hstate : packet.state ≠ Document.typesKey) : packet.state ∈ view.document.states := by
  obtain ⟨table, htable, -⟩ := h
  have hlocal : view.localTypes? packet.direction packet.state ≠ none := by
    intro hnone
    have htable := htable.read
    rw [packetTable?, hnone] at htable
    cases htable
  obtain ⟨types, htypes⟩ := Option.ne_none_iff_exists'.mp hlocal
  obtain ⟨section', hsection, -⟩ := Option.bind_eq_some_iff.mp htypes
  obtain ⟨fields, hfields, hlookup⟩ := Option.bind_eq_some_iff.mp hsection
  obtain ⟨field, hfield, -⟩ := Option.map_eq_some_iff.mp hlookup
  have hkey : field.1 = packet.state := by simpa using List.find?_some hfield
  rw [Document.states, hfields]
  refine List.mem_filter.mpr ⟨?_, by simpa using hstate⟩
  exact hkey ▸ List.mem_map_of_mem (List.mem_of_find?_eq_some hfield)

/-- A wire id that is found is the number of every key of the packet. It is the one that was found
before, and otherwise the packet has a key. -/
theorem findWireId_ok {found : Option WireId} {mappings : List (String × Json)} {id : WireId}
    (h : view.findWireId packet found mappings = .ok (some id)) :
    (∀ e ∈ mappings, e.2.asString? = some packet.name → WireId.ofKey? e.1 = some id) ∧
      (∀ first, found = some first → first = id) ∧
      (found = none → ∃ e ∈ mappings, e.2.asString? = some packet.name) := by
  induction mappings generalizing found with
  | nil =>
      obtain rfl : found = some id := Except.ok.inj h
      exact ⟨by simp, fun _ hfound => (Option.some.inj hfound).symm, fun hnone => by cases hnone⟩
  | cons e rest ih =>
      obtain ⟨key, value⟩ := e
      rw [findWireId] at h
      by_cases hname : names packet.name value = true
      · simp only [hname, if_true] at h
        obtain ⟨here, hhere, h⟩ := bind_eq_ok.mp h
        have hkey := keyId_ok hhere
        have hnamed := names_iff.mp hname
        cases found with
        | none =>
            obtain ⟨hrest, hfirst, -⟩ := ih h
            obtain rfl := hfirst here rfl
            refine ⟨List.forall_mem_cons.mpr ⟨fun _ => hkey, hrest⟩, by simp, fun _ => ?_⟩
            exact ⟨(key, value), List.mem_cons_self, hnamed⟩
        | some first =>
            dsimp only at h
            split at h
            · rename_i heq
              obtain ⟨hrest, hfirst, -⟩ := ih h
              obtain rfl := hfirst first rfl
              refine ⟨List.forall_mem_cons.mpr ⟨fun _ => ?_, hrest⟩, hfirst, by simp⟩
              rw [hkey, heq]
            · split at h <;> cases h
      · rw [if_neg hname] at h
        obtain ⟨hrest, hfirst, hsome⟩ := ih h
        refine ⟨List.forall_mem_cons.mpr ⟨fun hnamed => ?_, hrest⟩, hfirst, fun hnone => ?_⟩
        · exact absurd (names_iff.mpr hnamed) hname
        · obtain ⟨e, he, hnamed⟩ := hsome hnone
          exact ⟨e, List.mem_cons_of_mem _ he, hnamed⟩

/-- A packet's wire id is the number of each of its keys, and it has a key. -/
theorem packetWireId?_ok {id : WireId} (h : view.packetWireId? packet = .ok (some id)) :
    (∃ key, view.Assigns key packet) ∧
      ∀ key, view.Assigns key packet → WireId.ofKey? key = some id := by
  obtain ⟨table?, htable, h⟩ := bind_eq_ok.mp h
  cases table? with
  | none => cases h
  | some table =>
      obtain ⟨hevery, -, hsome⟩ := findWireId_ok h
      refine ⟨?_, ?_⟩
      · obtain ⟨e, he, hnamed⟩ := hsome rfl
        exact ⟨e.1, table, packetTable?_eq_some.mp htable, e.2, he, hnamed⟩
      · rintro key ⟨table', htable', value, hmem, hnamed⟩
        obtain rfl := Option.some.inj (Except.ok.inj (htable.symm.trans htable'.read))
        exact hevery (key, value) hmem hnamed

theorem mem_listedNames {direction : Direction} {state : String}
    {mappings : List (String × Json)} {listed : List (WireId × String)}
    (h : view.listedNames direction state mappings = .ok listed) {id : WireId} {name : String} :
    (id, name) ∈ listed ↔
      ∃ e ∈ mappings, e.2.asString? = some name ∧ WireId.ofKey? e.1 = some id := by
  induction mappings generalizing listed with
  | nil =>
      obtain rfl := Except.ok.inj h
      simp
  | cons e rest ih =>
      obtain ⟨key, value⟩ := e
      rw [listedNames] at h
      obtain ⟨here, hhere, h⟩ := bind_eq_ok.mp h
      obtain ⟨others, hothers, h⟩ := bind_eq_ok.mp h
      have hkey := keyId_ok hhere
      have hrest := ih hothers
      cases hvalue : value.asString? with
      | none =>
          simp only [hvalue] at h
          obtain rfl := Except.ok.inj h
          simp [hrest, hvalue]
      | some found =>
          simp only [hvalue] at h
          obtain rfl := Except.ok.inj h
          simp [hrest, hvalue, hkey, and_comm, eq_comm]

theorem ofKey?_of_listedNames {direction : Direction} {state : String}
    {mappings : List (String × Json)} {listed : List (WireId × String)}
    (h : view.listedNames direction state mappings = .ok listed) {e : String × Json}
    (he : e ∈ mappings) : ∃ id, WireId.ofKey? e.1 = some id := by
  induction mappings generalizing listed with
  | nil => cases he
  | cons first rest ih =>
      obtain ⟨key, value⟩ := first
      rw [listedNames] at h
      obtain ⟨here, hhere, h⟩ := bind_eq_ok.mp h
      obtain ⟨others, hothers, -⟩ := bind_eq_ok.mp h
      rcases List.mem_cons.mp he with rfl | he
      · exact ⟨here, keyId_ok hhere⟩
      · exact ih hothers he

/-- The listed names are the packets that have a key. -/
theorem mem_packetNames {direction : Direction} {state name : String}
    {listed : List (WireId × String)} (h : view.packetNames direction state = .ok listed) :
    (∃ id, (id, name) ∈ listed) ↔ ∃ key, view.Assigns key ⟨direction, state, name⟩ := by
  obtain ⟨table?, htable, h⟩ := bind_eq_ok.mp h
  cases table? with
  | none =>
      obtain rfl := Except.ok.inj h
      constructor
      · rintro ⟨id, hid⟩
        cases hid
      · rintro ⟨key, table, htable', -⟩
        cases htable.symm.trans htable'.read
  | some table =>
      obtain ⟨names, hnames, h⟩ := bind_eq_ok.mp h
      obtain rfl := Except.ok.inj h
      simp only [List.mem_mergeSort, mem_listedNames hnames]
      constructor
      · rintro ⟨id, e, he, hnamed, -⟩
        exact ⟨e.1, table, packetTable?_eq_some.mp htable, e.2, he, hnamed⟩
      · rintro ⟨key, table', htable', value, hmem, hnamed⟩
        obtain rfl := Option.some.inj (Except.ok.inj (htable.symm.trans htable'.read))
        obtain ⟨id, hid⟩ := ofKey?_of_listedNames hnames hmem
        exact ⟨id, (key, value), hmem, hnamed, hid⟩

end VersionGroups.View
