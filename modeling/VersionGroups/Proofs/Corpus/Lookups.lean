import VersionGroups.Proofs.Corpus.Mapping

/-!
# Three lookups of one packet

The definition of a packet, its wire id and the names that are listed for its state come from three
scans of one table, which stop early for different reasons. They tell one story. A table that cannot
be read fails all three in the same words. Otherwise a packet without a definition is one without a
wire id, the wire id is the one number of all keys of the packet, and the listed names tell whether
the packet has none, one or several.
-/
namespace VersionGroups

/-- The fault tells that a packet table cannot be read. -/
def Fault.TellsOfTable (fault : Fault) : Prop :=
  ∃ version direction state reason,
    fault = .malformedPacketTable version direction state reason

namespace View
variable {view : View} {packet : PacketName} {direction : Direction} {state : String}
  {fault : Fault} {mappings : List (String × Json)} {id : WireId}

theorem listedNames_error (h : view.listedNames direction state mappings = .error fault) :
    ∃ e ∈ mappings, WireId.ofKey? e.1 = none ∧
      fault = .malformedWireId view.version direction state e.1 := by
  induction mappings with
  | nil => cases h
  | cons e rest ih =>
      obtain ⟨key, value⟩ := e
      rw [listedNames] at h
      rcases bind_eq_error.mp h with hkey | ⟨here, -, h⟩
      · exact ⟨_, List.mem_cons_self, keyId_error hkey⟩
      · rcases bind_eq_error.mp h with hrest | ⟨others, -, h⟩
        · obtain ⟨e, he, hfault⟩ := ih hrest
          exact ⟨e, List.mem_cons_of_mem _ he, hfault⟩
        · split at h <;> cases h

/-- If all keys of a packet are one number, the search finds no other. -/
theorem findWireId_of_same {found : Option WireId}
    (hfound : ∀ first, found = some first → first = id)
    (h : ∀ e ∈ mappings, e.2.asString? = some packet.name → WireId.ofKey? e.1 = some id) :
    view.findWireId packet found mappings = .ok none ∨
      view.findWireId packet found mappings = .ok (some id) := by
  induction mappings generalizing found with
  | nil =>
      cases found with
      | none => exact .inl rfl
      | some first => exact .inr (by rw [findWireId, hfound first rfl])
  | cons e rest ih =>
      obtain ⟨key, value⟩ := e
      obtain ⟨hhere, hrest⟩ := List.forall_mem_cons.mp h
      rw [findWireId]
      by_cases hname : names packet.name value = true
      · have hkey : view.keyId packet.direction packet.state key = .ok id := by
          rw [keyId, hhere (names_iff.mp hname)]
        rw [if_pos hname, hkey]
        cases found with
        | none => exact ih (fun first heq => (Option.some.inj heq).symm) hrest
        | some first =>
            obtain rfl := hfound first rfl
            simpa [bind, Except.bind] using ih hfound hrest
      · rw [if_neg hname]
        exact ih hfound hrest

theorem lookups_of_packetTable?_error
    (h : view.packetTable? packet.direction packet.state = .error fault) :
    view.packetSpec? packet = .error fault ∧ view.packetWireId? packet = .error fault ∧
      view.packetNames packet.direction packet.state = .error fault :=
  ⟨bind_eq_error.mpr (.inl h), bind_eq_error.mpr (.inl h), bind_eq_error.mpr (.inl h)⟩

/-- No lookup blames a table that can be read, or that is not there. -/
theorem not_tellsOfTable {table? : Option PacketTable}
    (htable : view.packetTable? packet.direction packet.state = .ok table?)
    (htells : fault.TellsOfTable) :
    view.packetSpec? packet ≠ .error fault ∧ view.packetWireId? packet ≠ .error fault ∧
      view.packetNames packet.direction packet.state ≠ .error fault := by
  obtain ⟨version, direction, state, reason, rfl⟩ := htells
  refine ⟨fun h => ?_, fun h => ?_, fun h => ?_⟩
  · cases packetSpec?_error htable h
  · rcases bind_eq_error.mp h with hmalformed | ⟨found, -, h⟩
    · cases htable.symm.trans hmalformed
    · cases found with
      | none => cases h
      | some table => cases findWireId_error h
  · rcases bind_eq_error.mp h with hmalformed | ⟨found, -, h⟩
    · cases htable.symm.trans hmalformed
    · cases found with
      | none => cases h
      | some table =>
          rcases bind_eq_error.mp h with hlisted | ⟨listed, -, h⟩
          · obtain ⟨e, -, -, hfault⟩ := listedNames_error hlisted
            cases hfault
          · cases h

theorem unnamed_of_unassigned {table : PacketTable}
    (htable : view.packetTable? packet.direction packet.state = .ok (some table))
    (h : ∀ key, ¬ view.Assigns key packet) :
    table.mappings.any (fun e => names packet.name e.2) = false := by
  refine List.any_eq_false.mpr fun e he hname => ?_
  exact h e.1 ⟨table, packetTable?_eq_some.mp htable, e.2, he, names_iff.mp hname⟩

/-- A packet has no definition exactly if it has no key, in a table that can be read. -/
theorem packetSpec?_eq_none : view.packetSpec? packet = .ok none ↔
    (∃ table?, view.packetTable? packet.direction packet.state = .ok table?) ∧
      ∀ key, ¬ view.Assigns key packet := by
  constructor
  · intro h
    obtain ⟨table?, htable, -⟩ := bind_eq_ok.mp h
    exact ⟨⟨table?, htable⟩, fun key hkey => hkey.packetSpec?_ne_none h⟩
  · rintro ⟨⟨table?, htable⟩, hunassigned⟩
    refine bind_eq_ok.mpr ⟨table?, htable, ?_⟩
    cases table? with
    | none => rfl
    | some table =>
        dsimp only
        rw [unnamed_of_unassigned htable hunassigned]
        rfl

/-- A packet has no wire id exactly if it has no key, in a table that can be read. -/
theorem packetWireId?_eq_none : view.packetWireId? packet = .ok none ↔
    (∃ table?, view.packetTable? packet.direction packet.state = .ok table?) ∧
      ∀ key, ¬ view.Assigns key packet := by
  constructor
  · intro h
    obtain ⟨table?, htable, h⟩ := bind_eq_ok.mp h
    refine ⟨⟨table?, htable⟩, ?_⟩
    rintro key ⟨table, htable', value, hmem, hname⟩
    obtain rfl := Except.ok.inj (htable.symm.trans htable'.read)
    have hunnamed := List.any_eq_false.mp (findWireId_eq_none h).2 _ hmem
    exact hunnamed (names_iff.mpr hname)
  · rintro ⟨⟨table?, htable⟩, hunassigned⟩
    refine bind_eq_ok.mpr ⟨table?, htable, ?_⟩
    cases table? with
    | none => rfl
    | some table => exact findWireId_of_unnamed none (unnamed_of_unassigned htable hunassigned)

/-- A packet has a wire id exactly if it has a key and all its keys are that one number. -/
theorem packetWireId?_eq_some : view.packetWireId? packet = .ok (some id) ↔
    (∃ key, view.Assigns key packet) ∧
      ∀ key, view.Assigns key packet → WireId.ofKey? key = some id := by
  refine ⟨packetWireId?_ok, ?_⟩
  rintro ⟨⟨key, hkey⟩, hevery⟩
  have hassigns := hkey
  obtain ⟨table, htable, -⟩ := hassigns
  have hsame : view.findWireId packet none table.mappings = .ok none ∨
      view.findWireId packet none table.mappings = .ok (some id) :=
    findWireId_of_same (by simp) fun e he hname => hevery e.1 ⟨table, htable, e.2, he, hname⟩
  rcases hsame with hnone | hsome
  · have hno : view.packetWireId? packet = .ok none := bind_eq_ok.mpr ⟨_, htable.read, hnone⟩
    exact absurd hkey ((packetWireId?_eq_none.mp hno).2 key)
  · exact bind_eq_ok.mpr ⟨_, htable.read, hsome⟩

/-- The smaller wire id comes first, and of equal ones the smaller name. -/
theorem namesOrder_iff {a b : WireId × String} : namesOrder a b = true ↔
    a.1.value < b.1.value ∨ a.1 = b.1 ∧ a.2 ≤ b.2 := by
  have hname : (compare a.2 b.2).isLE = true ↔ a.2 ≤ b.2 :=
    isLE_compareOfLessAndEq String.le_antisymm String.not_le (fun a b => String.le_total a b)
  rw [namesOrder, Ordering.isLE_then_iff_or, hname, Std.compare_eq_iff_eq, WireId.compare_def,
    Nat.compare_eq_lt]

section
variable {listed : List (WireId × String)} (h : view.packetNames direction state = .ok listed)
include h

/-- Names are listed without a table, or in order from a table whose keys are all numbers. -/
theorem packetNames_ok :
    view.packetTable? direction state = .ok none ∧ listed = [] ∨
      ∃ table names, view.packetTable? direction state = .ok (some table) ∧
        view.listedNames direction state table.mappings = .ok names ∧
        listed = names.mergeSort namesOrder := by
  obtain ⟨table?, htable, h⟩ := bind_eq_ok.mp h
  cases table? with
  | none => exact .inl ⟨htable, (Except.ok.inj h).symm⟩
  | some table =>
      obtain ⟨names, hnames, h⟩ := bind_eq_ok.mp h
      exact .inr ⟨table, names, htable, hnames, (Except.ok.inj h).symm⟩

theorem packetNames_sorted :
    listed.Pairwise fun a b => a.1.value < b.1.value ∨ a.1 = b.1 ∧ a.2 ≤ b.2 := by
  rcases packetNames_ok h with ⟨-, rfl⟩ | ⟨table, names, -, -, rfl⟩
  · exact .nil
  · refine (List.pairwise_mergeSort ?_ ?_ names).imp namesOrder_iff.mp
    · intro a b c hab hbc
      rw [namesOrder_iff] at hab hbc ⊢
      rcases hab with hab | ⟨hab, hname⟩
      · rcases hbc with hbc | ⟨hbc, -⟩
        · exact .inl (Nat.lt_trans hab hbc)
        · exact .inl (hbc ▸ hab)
      · rcases hbc with hbc | ⟨hbc, hname'⟩
        · exact .inl (hab ▸ hbc)
        · exact .inr ⟨hab.trans hbc, String.le_trans hname hname'⟩
    · intro a b
      rw [Bool.or_eq_true, namesOrder_iff, namesOrder_iff]
      rcases Nat.lt_trichotomy a.1.value b.1.value with hlt | heq | hgt
      · exact .inl (.inl hlt)
      · have hid : a.1 = b.1 := WireId.ext heq
        rcases String.le_total a.2 b.2 with hname | hname
        · exact .inl (.inr ⟨hid, hname⟩)
        · exact .inr (.inr ⟨hid.symm, hname⟩)
      · exact .inr (.inl hgt)

theorem mem_packetNames_iff {name : String} : (id, name) ∈ listed ↔
    ∃ key, view.Assigns key ⟨direction, state, name⟩ ∧ WireId.ofKey? key = some id := by
  rcases packetNames_ok h with ⟨htable, rfl⟩ | ⟨table, names, htable, hnames, rfl⟩
  · simp [Assigns, ← packetTable?_eq_some, htable]
  · rw [List.mem_mergeSort, mem_listedNames hnames]
    constructor
    · rintro ⟨e, he, hname, hid⟩
      exact ⟨e.1, ⟨table, packetTable?_eq_some.mp htable, e.2, he, hname⟩, hid⟩
    · rintro ⟨key, ⟨table', htable', value, hmem, hname⟩, hid⟩
      obtain rfl := Option.some.inj (Except.ok.inj (htable.symm.trans htable'.read))
      exact ⟨(key, value), hmem, hname, hid⟩

end

section
variable {listed : List (WireId × String)}
  (h : view.packetNames packet.direction packet.state = .ok listed)
include h

/-- Where names are listed, a wire id is missing only if the packet is listed under two. -/
theorem conflict_of_packetWireId? (hfault : view.packetWireId? packet = .error fault) :
    ∃ first second, fault = .conflictingWireId view.version packet first second ∧
      first.value < second.value ∧ (first, packet.name) ∈ listed ∧
      (second, packet.name) ∈ listed := by
  rcases packetNames_ok h with ⟨htable, rfl⟩ | ⟨table, names, htable, hnames, rfl⟩
  · rw [packetWireId?, htable] at hfault
    cases hfault
  · have hsearch : view.findWireId packet none table.mappings = .error fault := by
      rw [packetWireId?, htable] at hfault
      exact hfault
    have hlisted : ∀ id, none = some id ∨ Gives table.mappings packet.name id →
        (id, packet.name) ∈ names.mergeSort namesOrder := by
      rintro id (hnone | hgives)
      · cases hnone
      · exact List.mem_mergeSort.mpr ((mem_listedNames hnames).mpr hgives)
    cases findWireId_error hsearch with
    | unreadable hmem hkey =>
        obtain ⟨e, he, rfl⟩ := List.mem_map.mp hmem
        obtain ⟨id, hid⟩ := ofKey?_of_listedNames hnames he
        cases hkey.symm.trans hid
    | conflict hlt hfirst hsecond =>
        exact ⟨_, _, rfl, hlt, hlisted _ hfirst, hlisted _ hsecond⟩

/-- A packet has no wire id exactly if it is not listed. -/
theorem packetWireId?_eq_none_iff_not_mem :
    view.packetWireId? packet = .ok none ↔ ∀ id, (id, packet.name) ∉ listed := by
  have hlisted : (∃ id, (id, packet.name) ∈ listed) ↔ ∃ key, view.Assigns key packet :=
    mem_packetNames h
  constructor
  · intro hnone id hmem
    obtain ⟨key, hkey⟩ := hlisted.mp ⟨id, hmem⟩
    exact (packetWireId?_eq_none.mp hnone).2 key hkey
  · intro hunlisted
    refine packetWireId?_eq_none.mpr ⟨?_, fun key hkey => ?_⟩
    · obtain ⟨table?, htable, -⟩ := bind_eq_ok.mp h
      exact ⟨table?, htable⟩
    · obtain ⟨id, hmem⟩ := hlisted.mpr ⟨key, hkey⟩
      exact hunlisted id hmem

/-- A packet has conflicting wire ids exactly if it is listed under two. -/
theorem packetWireId?_conflict_iff :
    (∃ first second, view.packetWireId? packet =
        .error (.conflictingWireId view.version packet first second)) ↔
      ∃ first second, first ≠ second ∧ (first, packet.name) ∈ listed ∧
        (second, packet.name) ∈ listed := by
  constructor
  · rintro ⟨first, second, hfault⟩
    obtain ⟨_, _, -, hlt, hfirst, hsecond⟩ := conflict_of_packetWireId? h hfault
    exact ⟨_, _, fun heq => Nat.lt_irrefl _ (heq ▸ hlt), hfirst, hsecond⟩
  · rintro ⟨first, second, hne, hfirst, hsecond⟩
    cases hid : view.packetWireId? packet with
    | error fault =>
        obtain ⟨_, _, rfl, -⟩ := conflict_of_packetWireId? h hid
        exact ⟨_, _, rfl⟩
    | ok id? =>
        cases id? with
        | none => exact absurd hfirst ((packetWireId?_eq_none_iff_not_mem h).mp hid first)
        | some id =>
            -- All keys of the packet are one number, so the two are the same.
            have hsame : ∀ other, (other, packet.name) ∈ listed → other = id := by
              intro other hother
              obtain ⟨key, hkey, hread⟩ := (mem_packetNames_iff h).mp hother
              have hthis := (packetWireId?_eq_some.mp hid).2 key hkey
              exact Option.some.inj (hread.symm.trans hthis)
            exact absurd ((hsame first hfirst).trans (hsame second hsecond).symm) hne

end

/-- The three lookups of a packet agree. Either all fail at a table that cannot be read, with one
fault, or none of them blames the table. A packet has no definition exactly if it has no wire id,
and its wire id is the one number of all its keys. Where the names are listed, they are in order,
a packet has no wire id exactly if it is not listed, and it has conflicting ones exactly if it is
listed under two, and then the two that are named are listed. -/
theorem packet_lookups_agree (view : View) (packet : PacketName) :
    ((∃ fault reason,
        fault = .malformedPacketTable view.version packet.direction packet.state reason ∧
        view.packetSpec? packet = .error fault ∧ view.packetWireId? packet = .error fault ∧
        view.packetNames packet.direction packet.state = .error fault) ∨
      ∀ fault : Fault, fault.TellsOfTable →
        view.packetSpec? packet ≠ .error fault ∧ view.packetWireId? packet ≠ .error fault ∧
        view.packetNames packet.direction packet.state ≠ .error fault) ∧
    (view.packetSpec? packet = .ok none ↔ view.packetWireId? packet = .ok none) ∧
    (∀ id, view.packetWireId? packet = .ok (some id) ↔
      (∃ key, view.Assigns key packet) ∧
        ∀ key, view.Assigns key packet → WireId.ofKey? key = some id) ∧
    ∀ listed, view.packetNames packet.direction packet.state = .ok listed →
      (listed.Pairwise fun a b => a.1.value < b.1.value ∨ a.1 = b.1 ∧ a.2 ≤ b.2) ∧
      (view.packetWireId? packet = .ok none ↔ ∀ id, (id, packet.name) ∉ listed) ∧
      (∀ first second, view.packetWireId? packet =
          .error (.conflictingWireId view.version packet first second) →
        first.value < second.value ∧ (first, packet.name) ∈ listed ∧
          (second, packet.name) ∈ listed) ∧
      ((∃ first second, view.packetWireId? packet =
          .error (.conflictingWireId view.version packet first second)) ↔
        ∃ first second, first ≠ second ∧ (first, packet.name) ∈ listed ∧
          (second, packet.name) ∈ listed) := by
  refine ⟨?_, packetSpec?_eq_none.trans packetWireId?_eq_none.symm,
    fun id => packetWireId?_eq_some, fun listed h => ⟨packetNames_sorted h,
      packetWireId?_eq_none_iff_not_mem h, ?_, packetWireId?_conflict_iff h⟩⟩
  · cases htable : view.packetTable? packet.direction packet.state with
    | error fault =>
        obtain ⟨reason, hfault⟩ := packetTable?_error htable
        exact .inl ⟨fault, reason, hfault, lookups_of_packetTable?_error htable⟩
    | ok table? => exact .inr fun fault => not_tellsOfTable htable
  · intro first second hfault
    obtain ⟨_, _, heq, hlt, hfirst, hsecond⟩ := conflict_of_packetWireId? h hfault
    obtain ⟨-, -, rfl, rfl⟩ := Fault.conflictingWireId.inj heq
    exact ⟨hlt, hfirst, hsecond⟩

end View

end VersionGroups
