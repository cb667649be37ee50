import VersionGroups.Proofs.Corpus.Lookups
import VersionGroups.Proofs.Slot.Order
import VersionGroups.Proofs.Table
import VersionGroups.Untracked

/-!
# Which packets are reported

The search for untracked packets goes through the versions, their states and directions, and the
names listed there, and sees the packets in that order. The index keeps the first sighting of every
packet that no slot tracks. Versions and the names of a scope are visited in ascending order, so the
report names the least version that assigns the packet and its least wire id there. The search fails
exactly if some scope cannot be listed.
-/
namespace VersionGroups

theorem PacketName.rank_injective {p q : PacketName} (h : p.rank = q.rank) : p = q := by
  obtain ⟨d, state, name⟩ := p
  obtain ⟨d', state', name'⟩ := q
  simp only [rank, List.cons.injEq, and_true] at h
  obtain ⟨hdirection, rfl, rfl⟩ := h
  rw [Direction.name_injective hdirection]

theorem Document.mem_scopes {document : Document} {direction : Direction} {state : String} :
    (direction, state) ∈ document.scopes ↔ state ∈ document.states := by
  simp only [scopes, List.mem_flatMap, List.mem_map, Prod.mk.injEq]
  constructor
  · rintro ⟨state', hstate, direction', -, -, rfl⟩
    exact hstate
  · intro hstate
    exact ⟨state, hstate, direction, by cases direction <;> decide, rfl, rfl⟩

theorem Document.ne_typesKey_of_mem_states {document : Document} {state : String}
    (h : state ∈ document.states) : state ≠ typesKey := by
  rw [states] at h
  split at h
  · simpa using (List.mem_filter.mp h).2
  · cases h

namespace View
variable {view : View} {direction : Direction} {state : String}

/-- The names of a scope cannot be listed: its packet table is malformed, or a key of the id mapping
is no number. -/
def Unlistable (view : View) (direction : Direction) (state : String) : Prop :=
  view.packetType? direction state ≠ none ∧ (∀ table, ¬view.HasTable direction state table) ∨
    ∃ table, view.HasTable direction state table ∧
      ∃ e ∈ table.mappings, WireId.ofKey? e.1 = none

theorem listedNames_isError_iff {mappings : List (String × Json)} :
    (∃ fault, view.listedNames direction state mappings = .error fault) ↔
      ∃ e ∈ mappings, WireId.ofKey? e.1 = none := by
  constructor
  · rintro ⟨fault, h⟩
    obtain ⟨e, he, hunread, -⟩ := listedNames_error h
    exact ⟨e, he, hunread⟩
  · rintro ⟨e, he, hunread⟩
    cases hlisted : view.listedNames direction state mappings with
    | error fault => exact ⟨fault, rfl⟩
    | ok listed =>
        obtain ⟨id, hid⟩ := ofKey?_of_listedNames hlisted he
        cases hunread.symm.trans hid

/-- Listing the names of a scope fails exactly if they cannot be listed. -/
theorem packetNames_isError_iff :
    (∃ fault, view.packetNames direction state = .error fault) ↔
      view.Unlistable direction state := by
  rw [Unlistable, ← packetTable?_isError_iff]
  constructor
  · rintro ⟨fault, h⟩
    rcases bind_eq_error.mp h with htable | ⟨table?, htable, h⟩
    · exact .inl ⟨fault, htable⟩
    · cases table? with
      | none => cases h
      | some table =>
          rcases bind_eq_error.mp h with hlisted | ⟨names, -, h⟩
          · exact .inr ⟨table, packetTable?_eq_some.mp htable,
              listedNames_isError_iff.mp ⟨fault, hlisted⟩⟩
          · cases h
  · rintro (⟨fault, htable⟩ | ⟨table, htable, hkey⟩)
    · exact ⟨fault, bind_eq_error.mpr (.inl htable)⟩
    · obtain ⟨fault, hlisted⟩ := listedNames_isError_iff.mpr hkey
      exact ⟨fault, bind_eq_error.mpr (.inr ⟨_, htable.read, bind_eq_error.mpr (.inl hlisted)⟩)⟩

theorem Assigns.exists_id {key : String} {p : PacketName} (h : view.Assigns key p)
    (hlistable : ¬view.Unlistable p.direction p.state) : ∃ id, WireId.ofKey? key = some id := by
  obtain ⟨table, htable, value, hmem, -⟩ := h
  refine Option.ne_none_iff_exists'.mp fun hnone => hlistable ?_
  exact .inr ⟨table, htable, _, hmem, hnone⟩

/-- The names listed in a scope, each as it would be reported. -/
def sightingsIn (view : View) (scope : Direction × String) : List UntrackedPacket :=
  match view.packetNames scope.1 scope.2 with
  | .ok names => names.map fun entry => ⟨⟨scope.1, scope.2, entry.2⟩, view.version, entry.1⟩
  | .error _ => []

/-- The names listed in all scopes, in the order of the search. -/
def sightings (view : View) : List UntrackedPacket :=
  view.document.scopes.flatMap view.sightingsIn

section
variable {scope : Direction × String} {names : List (WireId × String)}
  (hnames : view.packetNames scope.1 scope.2 = .ok names)
include hnames

/-- A scope shows the packets that it assigns, each under the numbers of its keys. -/
theorem mem_sightingsIn {u : UntrackedPacket} : u ∈ view.sightingsIn scope ↔
    (u.packet.direction, u.packet.state) = scope ∧ u.firstVersion = view.version ∧
      ∃ key, view.Assigns key u.packet ∧ WireId.ofKey? key = some u.wireId := by
  obtain ⟨direction, state⟩ := scope
  obtain ⟨⟨d, s, name⟩, version, id⟩ := u
  simp only [sightingsIn, hnames, List.mem_map, UntrackedPacket.mk.injEq, PacketName.mk.injEq,
    Prod.mk.injEq]
  constructor
  · rintro ⟨e, he, ⟨rfl, rfl, rfl⟩, rfl, rfl⟩
    exact ⟨⟨rfl, rfl⟩, rfl, (mem_packetNames_iff hnames).mp he⟩
  · rintro ⟨⟨rfl, rfl⟩, rfl, hkey⟩
    have he := (mem_packetNames_iff hnames).mpr hkey
    exact ⟨_, he, ⟨rfl, rfl, rfl⟩, rfl, rfl⟩

/-- The first sighting of a packet in a scope is that under its least wire id. -/
theorem wireId_le_of_sightingsIn {p : PacketName} {u w : UntrackedPacket}
    (hu : (view.sightingsIn scope).find? (·.packet == p) = some u)
    (hw : w ∈ view.sightingsIn scope) (hp : w.packet = p) : u.wireId.value ≤ w.wireId.value := by
  have hsorted : (view.sightingsIn scope).Pairwise fun a b => a.wireId.value ≤ b.wireId.value := by
    rw [sightingsIn, hnames]
    refine List.pairwise_map.mpr ?_
    refine (packetNames_sorted hnames).imp ?_
    rintro a b (hlt | ⟨heq, -⟩)
    · exact Nat.le_of_lt hlt
    · exact Nat.le_of_eq (congrArg WireId.value heq)
  rcases rel_of_find? hsorted hu hw (by simpa using hp) with rfl | hle
  · exact Nat.le_refl _
  · exact hle

end

section
variable (hlistable : ∀ scope ∈ view.document.scopes, ¬view.Unlistable scope.1 scope.2)
include hlistable

theorem packetNames_of_mem_scopes {scope : Direction × String}
    (hscope : scope ∈ view.document.scopes) :
    ∃ names, view.packetNames scope.1 scope.2 = .ok names := by
  cases hnames : view.packetNames scope.1 scope.2 with
  | ok names => exact ⟨names, rfl⟩
  | error fault =>
      exact absurd (packetNames_isError_iff.mp ⟨fault, hnames⟩) (hlistable scope hscope)

/-- The scopes of a document are all that assign packets, but for the section of types. -/
theorem mem_sightings {u : UntrackedPacket} : u ∈ view.sightings ↔
    u.packet.state ≠ Document.typesKey ∧ u.firstVersion = view.version ∧
      ∃ key, view.Assigns key u.packet ∧ WireId.ofKey? key = some u.wireId := by
  rw [sightings, List.mem_flatMap]
  constructor
  · rintro ⟨scope, hscope, hu⟩
    obtain ⟨names, hnames⟩ := packetNames_of_mem_scopes hlistable hscope
    obtain ⟨rfl, hsight⟩ := (mem_sightingsIn hnames).mp hu
    exact ⟨Document.ne_typesKey_of_mem_states (Document.mem_scopes.mp hscope), hsight⟩
  · rintro ⟨hstate, hversion, key, hkey, hid⟩
    have hscope : (u.packet.direction, u.packet.state) ∈ view.document.scopes :=
      Document.mem_scopes.mpr (hkey.mem_states hstate)
    obtain ⟨names, hnames⟩ := packetNames_of_mem_scopes hlistable hscope
    exact ⟨_, hscope, (mem_sightingsIn hnames).mpr ⟨rfl, hversion, key, hkey, hid⟩⟩

/-- The first sighting of a packet in a document is that under its least wire id. -/
theorem wireId_le_of_sightings {p : PacketName} {u w : UntrackedPacket}
    (hu : view.sightings.find? (·.packet == p) = some u) (hw : w ∈ view.sightings)
    (hp : w.packet = p) : u.wireId.value ≤ w.wireId.value := by
  rw [sightings, List.find?_flatMap] at hu
  obtain ⟨scope, hscope, hfind⟩ := List.exists_of_findSome?_eq_some hu
  obtain ⟨scope', hscope', hw⟩ := List.mem_flatMap.mp hw
  obtain ⟨names, hnames⟩ := packetNames_of_mem_scopes hlistable hscope
  obtain ⟨names', hnames'⟩ := packetNames_of_mem_scopes hlistable hscope'
  -- A packet is seen in the scope of its own direction and state only.
  have hup : u.packet = p := by simpa using List.find?_some hfind
  obtain ⟨rfl, -⟩ := (mem_sightingsIn hnames).mp (List.mem_of_find?_eq_some hfind)
  obtain ⟨rfl, -⟩ := (mem_sightingsIn hnames').mp hw
  rw [hp, ← hup] at hw
  exact wireId_le_of_sightingsIn hnames hfind hw hp

end

end View

/-- An index holds the first sightings of the packets that no slot tracks. -/
structure PacketIndex.Records (index : PacketIndex) (registry : Registry)
    (seen : List UntrackedPacket) : Prop where
  keyed : ∀ e ∈ index.entries, e.1 = e.2.packet.rank
  first : ∀ p, index.get? p.rank =
    if registry.tracks p then none else seen.find? (·.packet == p)

namespace PacketIndex
variable {index index' : PacketIndex} {registry : Registry} {seen : List UntrackedPacket}

theorem records_empty : Records (Table.empty : PacketIndex) registry [] :=
  ⟨by simp, fun p => by simp⟩

theorem Records.mem_values (h : index.Records registry seen) {u : UntrackedPacket} :
    u ∈ index.values ↔
      registry.tracks u.packet = false ∧ seen.find? (·.packet == u.packet) = some u := by
  have hentry : u ∈ index.values ↔ (u.packet.rank, u) ∈ index.entries := by
    rw [Table.values, List.mem_map]
    constructor
    · rintro ⟨e, he, rfl⟩
      exact h.keyed e he ▸ he
    · exact fun he => ⟨_, he, rfl⟩
  rw [hentry, ← Table.get?_eq_some_iff, h.first]
  cases registry.tracks u.packet <;> simp

/-- A sighting is skipped if its packet is tracked or has been seen before. -/
theorem Records.add (h : index.Records registry seen) (version : Version) (direction : Direction)
    (state : String) (entry : WireId × String) :
    (index.add registry version direction state entry).Records registry
      (seen ++ [⟨⟨direction, state, entry.2⟩, version, entry.1⟩]) := by
  rw [PacketIndex.add]
  generalize hnew : PacketName.mk direction state entry.2 = new
  have hother : ∀ p, p ≠ new →
      (seen ++ [UntrackedPacket.mk new version entry.1]).find? (·.packet == p) =
        seen.find? (·.packet == p) := by
    intro p hp
    simp [List.find?_append, Ne.symm hp]
  by_cases hskip : (registry.tracks new || index.contains new.rank) = true
  · rw [if_pos hskip]
    refine ⟨h.keyed, fun p => ?_⟩
    by_cases hp : p = new
    · subst hp
      cases htracks : registry.tracks p with
      | true => rw [h.first, htracks]; rfl
      | false =>
          rw [htracks, Bool.false_or, Table.contains, h.first, htracks] at hskip
          obtain ⟨u, hu⟩ := Option.isSome_iff_exists.mp hskip
          rw [h.first, htracks, hu, List.find?_append, show seen.find? _ = some u from hu]
          rfl
    · rw [h.first, hother p hp]
  · rw [if_neg hskip]
    obtain ⟨htracks, hunseen⟩ := Bool.or_eq_false_iff.mp (eq_false_of_ne_true hskip)
    refine ⟨fun e he => ?_, fun p => ?_⟩
    · rcases Table.mem_place he with rfl | he
      · rfl
      · exact h.keyed e he
    · by_cases hp : p = new
      · subst hp
        rw [Table.contains, h.first, htracks] at hunseen
        have hnone : seen.find? (·.packet == p) = none := by simpa using hunseen
        simp [htracks, hnone, List.find?_append]
      · have hne : p.rank ≠ new.rank := fun heq => hp (PacketName.rank_injective heq)
        rw [Table.get?_insert_of_ne hne, h.first, hother p hp]

theorem Records.addScope (h : index.Records registry seen) {view : View}
    {scope : Direction × String} {names : List (WireId × String)}
    (hnames : view.packetNames scope.1 scope.2 = .ok names) :
    (names.foldl (PacketIndex.add registry view.version scope.1 scope.2) index).Records registry
      (seen ++ view.sightingsIn scope) := by
  rw [View.sightingsIn, hnames]
  clear hnames
  induction names generalizing index seen with
  | nil => simpa using h
  | cons entry rest ih => simpa using ih (h.add view.version scope.1 scope.2 entry)

/-- A version adds what is seen in its document. -/
theorem Records.addVersion (h : index.Records registry seen) {entry : Version × Document}
    (hadd : index.addVersion registry entry = .ok index') :
    index'.Records registry (seen ++ (View.mk entry.1 entry.2).sightings) := by
  have hstep : ∀ before scope after (index index' : PacketIndex),
      entry.2.scopes = before ++ scope :: after →
      index.Records registry (seen ++ before.flatMap (View.mk entry.1 entry.2).sightingsIn) →
      (do
        let names ← (View.mk entry.1 entry.2).packetNames scope.1 scope.2
        return names.foldl (PacketIndex.add registry entry.1 scope.1 scope.2) index) =
          (.ok index' : Except Fault PacketIndex) →
      index'.Records registry
        (seen ++ (before ++ [scope]).flatMap (View.mk entry.1 entry.2).sightingsIn) := by
    intro before scope after index index' _ hbefore hstep
    obtain ⟨names, hnames, hstep⟩ := bind_eq_ok.mp hstep
    obtain rfl := Except.ok.inj hstep
    simpa using hbefore.addScope hnames
  have hstart : index.Records registry
      (seen ++ ([] : List (Direction × String)).flatMap (View.mk entry.1 entry.2).sightingsIn) := by
    simpa using h
  exact foldlM_keeps hstep (List.nil_append _).symm hstart hadd

/-- The search in a version fails exactly if some scope of its document cannot be listed. -/
theorem addVersion_isError_iff {entry : Version × Document} :
    (∃ fault, index.addVersion registry entry = .error fault) ↔
      ∃ scope ∈ entry.2.scopes, (View.mk entry.1 entry.2).Unlistable scope.1 scope.2 := by
  refine foldlM_isError_iff fun index scope => ?_
  rw [← View.packetNames_isError_iff]
  refine exists_congr fun fault => ⟨fun h => ?_, fun h => bind_eq_error.mpr (.inl h)⟩
  rcases bind_eq_error.mp h with hnames | ⟨names, -, h⟩
  · exact hnames
  · cases h

end PacketIndex

/-- What is seen in all versions, in the order of the search. -/
def Corpus.sightings (corpus : Corpus) : List UntrackedPacket :=
  corpus.entries.flatMap fun entry => (View.mk entry.1 entry.2).sightings

/-- A version of a corpus assigns a packet to a wire id, in one of the states of its document. -/
def Corpus.Assigns (corpus : Corpus) (v : Version) (id : WireId) (p : PacketName) : Prop :=
  p.state ≠ Document.typesKey ∧ ∃ d, corpus.get? v = some d ∧
    ∃ key, (View.mk v d).Assigns key p ∧ WireId.ofKey? key = some id

/-- Some scope of a version of a corpus cannot be listed. -/
def Corpus.Unlistable (corpus : Corpus) : Prop :=
  ∃ v d, corpus.get? v = some d ∧ ∃ state ∈ d.states, ∃ direction,
    (View.mk v d).Unlistable direction state

section
variable {corpus : Corpus} {registry : Registry} {packets : List UntrackedPacket}

theorem untrackedPackets_isError_iff :
    (∃ report, untrackedPackets corpus registry = .error report) ↔ corpus.Unlistable := by
  have hfold : (∃ fault, corpus.entries.foldlM (PacketIndex.addVersion registry) Table.empty =
      .error fault) ↔ corpus.Unlistable := by
    have hstep (index : PacketIndex) (entry : Version × Document) :
        (∃ fault, index.addVersion registry entry = .error fault) ↔
          ∃ scope ∈ entry.2.scopes, (View.mk entry.1 entry.2).Unlistable scope.1 scope.2 :=
      PacketIndex.addVersion_isError_iff
    refine (foldlM_isError_iff hstep).trans ?_
    constructor
    · rintro ⟨entry, hentry, scope, hscope, hunlistable⟩
      exact ⟨entry.1, entry.2, Table.get?_eq_some_iff.mpr hentry, scope.2,
        Document.mem_scopes.mp hscope, scope.1, hunlistable⟩
    · rintro ⟨v, d, hd, state, hstate, direction, hunlistable⟩
      exact ⟨(v, d), Table.get?_eq_some_iff.mp hd, (direction, state),
        Document.mem_scopes.mpr hstate, hunlistable⟩
  rw [← hfold, untrackedPackets]
  cases corpus.entries.foldlM (PacketIndex.addVersion registry) Table.empty <;> simp

theorem listable_of_untrackedPackets (h : untrackedPackets corpus registry = .ok packets)
    {entry : Version × Document} (hentry : entry ∈ corpus.entries) :
    ∀ scope ∈ entry.2.scopes, ¬(View.mk entry.1 entry.2).Unlistable scope.1 scope.2 := by
  intro scope hscope hunlistable
  have hfails : corpus.Unlistable := ⟨entry.1, entry.2, Table.get?_eq_some_iff.mpr hentry, scope.2,
    Document.mem_scopes.mp hscope, scope.1, hunlistable⟩
  obtain ⟨report, hreport⟩ : ∃ report, untrackedPackets corpus registry = .error report :=
    untrackedPackets_isError_iff.mpr hfails
  cases h.symm.trans hreport

theorem records_of_untrackedPackets (h : untrackedPackets corpus registry = .ok packets) :
    ∃ index : PacketIndex, packets = index.values ∧ index.Records registry corpus.sightings := by
  have hstep : ∀ before entry after (index index' : PacketIndex),
      corpus.entries = before ++ entry :: after →
      index.Records registry (before.flatMap fun e => (View.mk e.1 e.2).sightings) →
      index.addVersion registry entry = .ok index' →
      index'.Records registry
        ((before ++ [entry]).flatMap fun e => (View.mk e.1 e.2).sightings) := by
    intro before entry after index index' _ hbefore hadd
    simpa using hbefore.addVersion hadd
  rw [untrackedPackets] at h
  split at h
  · rename_i index hindex
    exact ⟨index, (Except.ok.inj h).symm,
      foldlM_keeps hstep (List.nil_append _).symm PacketIndex.records_empty hindex⟩
  · cases h

/-- What is seen is what some version assigns, each packet under the numbers of its keys. -/
theorem Corpus.mem_sightings (h : untrackedPackets corpus registry = .ok packets)
    {u : UntrackedPacket} :
    u ∈ corpus.sightings ↔ corpus.Assigns u.firstVersion u.wireId u.packet := by
  rw [sightings, List.mem_flatMap, Assigns]
  constructor
  · rintro ⟨entry, hentry, hu⟩
    obtain ⟨hstate, hversion, hkey⟩ :=
      (View.mem_sightings (listable_of_untrackedPackets h hentry)).mp hu
    rw [hversion]
    exact ⟨hstate, entry.2, Table.get?_eq_some_iff.mpr hentry, hkey⟩
  · rintro ⟨hstate, d, hd, hkey⟩
    have hentry := Table.get?_eq_some_iff.mp hd
    exact ⟨_, hentry,
      (View.mem_sightings (listable_of_untrackedPackets h hentry)).mpr ⟨hstate, rfl, hkey⟩⟩

/-- The first sighting of a packet is in the least version that assigns it, under the least of its
wire ids there. -/
theorem Corpus.le_of_sightings (h : untrackedPackets corpus registry = .ok packets)
    {p : PacketName} {u w : UntrackedPacket}
    (hu : corpus.sightings.find? (·.packet == p) = some u) (hw : w ∈ corpus.sightings)
    (hp : w.packet = p) : u.firstVersion ≤ w.firstVersion ∧
      (w.firstVersion = u.firstVersion → u.wireId.value ≤ w.wireId.value) := by
  rw [sightings, List.find?_flatMap] at hu
  obtain ⟨before, entry, after, hentries, hfind, hbefore⟩ := List.findSome?_eq_some_iff.mp hu
  obtain ⟨entry', hentry', hw⟩ := List.mem_flatMap.mp hw
  have hlistable {e : Version × Document} (he : e ∈ corpus.entries) :=
    listable_of_untrackedPackets h he
  have hentry : entry ∈ corpus.entries := by simp [hentries]
  have hsame := ((View.mem_sightings (hlistable hentry)).mp (List.mem_of_find?_eq_some hfind)).2.1
  have hsame' := ((View.mem_sightings (hlistable hentry')).mp hw).2.1
  have hascending := corpus.versions_ascending
  rw [hentries] at hentry' hascending
  rw [hsame, hsame']
  rcases List.mem_append.mp hentry' with hearlier | hlater
  · exact absurd (beq_iff_eq.mpr hp) (List.find?_eq_none.mp (hbefore entry' hearlier) w hw)
  · rcases List.mem_cons.mp hlater with rfl | hlater
    · exact ⟨Nat.le_refl _, fun _ => View.wireId_le_of_sightings (hlistable hentry) hfind hw hp⟩
    · have hlt : entry.1 < entry'.1 :=
        (List.pairwise_cons.mp (List.pairwise_append.mp hascending).2.1).1 entry' hlater
      exact ⟨Nat.le_of_lt hlt, fun heq => absurd heq (Nat.ne_of_gt hlt)⟩

/-- The report lists exactly the packets that some version assigns and that no slot tracks. -/
theorem reported_iff (h : untrackedPackets corpus registry = .ok packets) {p : PacketName} :
    (∃ u ∈ packets, u.packet = p) ↔ registry.tracks p = false ∧ ∃ v id, corpus.Assigns v id p := by
  obtain ⟨index, rfl, hrecords⟩ := records_of_untrackedPackets h
  constructor
  · rintro ⟨u, hu, rfl⟩
    obtain ⟨htracks, hfirst⟩ := hrecords.mem_values.mp hu
    have hseen := (Corpus.mem_sightings h).mp (List.mem_of_find?_eq_some hfirst)
    exact ⟨htracks, _, _, hseen⟩
  · rintro ⟨htracks, v, id, hassigns⟩
    have hseen : (UntrackedPacket.mk p v id) ∈ corpus.sightings :=
      (Corpus.mem_sightings h).mpr hassigns
    have hsome : (corpus.sightings.find? (·.packet == p)).isSome := by
      rw [List.find?_isSome]
      exact ⟨_, hseen, beq_self_eq_true p⟩
    obtain ⟨u, hfirst⟩ := Option.isSome_iff_exists.mp hsome
    obtain rfl : u.packet = p := by simpa using List.find?_some hfirst
    exact ⟨u, hrecords.mem_values.mpr ⟨htracks, hfirst⟩, rfl⟩

/-- The report lists exactly the packets that some version assigns to a key in one of its states and
that no slot tracks. -/
theorem mem_untrackedPackets (h : untrackedPackets corpus registry = .ok packets) {p : PacketName} :
    (∃ u ∈ packets, u.packet = p) ↔ registry.tracks p = false ∧ p.state ≠ Document.typesKey ∧
      ∃ v d key, corpus.get? v = some d ∧ (View.mk v d).Assigns key p := by
  rw [reported_iff h]
  refine and_congr_right fun _ => ?_
  constructor
  · rintro ⟨v, id, hstate, d, hd, key, hkey, -⟩
    exact ⟨hstate, v, d, key, hd, hkey⟩
  · rintro ⟨hstate, v, d, key, hd, hkey⟩
    have hscope : (p.direction, p.state) ∈ d.scopes :=
      Document.mem_scopes.mpr (hkey.mem_states hstate)
    obtain ⟨id, hid⟩ := hkey.exists_id
      (listable_of_untrackedPackets h (Table.get?_eq_some_iff.mp hd) _ hscope)
    exact ⟨v, id, hstate, d, hd, key, hkey, hid⟩

/-- The report fails exactly if a packet table of some version is malformed or has a key that is no
number. Otherwise it lists, in order and each once, the packets that some version assigns and that
no slot tracks, each with the least version that assigns it and its least wire id there. -/
theorem untrackedPackets_exact (corpus : Corpus) (registry : Registry) :
    ((∃ report, untrackedPackets corpus registry = .error report) ↔ corpus.Unlistable) ∧
    ∀ packets, untrackedPackets corpus registry = .ok packets →
      (packets.Pairwise fun u w => u.packet.Precedes w.packet) ∧
      (∀ p, (∃ u ∈ packets, u.packet = p) ↔
        registry.tracks p = false ∧ ∃ v id, corpus.Assigns v id p) ∧
      ∀ u ∈ packets, corpus.Assigns u.firstVersion u.wireId u.packet ∧
        ∀ v id, corpus.Assigns v id u.packet →
          u.firstVersion ≤ v ∧ (v = u.firstVersion → u.wireId.value ≤ id.value) := by
  refine ⟨untrackedPackets_isError_iff, fun packets h => ⟨?_, fun p => reported_iff h, ?_⟩⟩
  · obtain ⟨index, rfl, hrecords⟩ := records_of_untrackedPackets h
    refine List.pairwise_map.mpr (index.ascending.imp_of_mem fun ha hb hlt => ?_)
    rw [hrecords.keyed _ ha, hrecords.keyed _ hb] at hlt
    exact PacketName.precedes_of_compare hlt
  · intro u hu
    obtain ⟨index, rfl, hrecords⟩ := records_of_untrackedPackets h
    obtain ⟨-, hfirst⟩ := hrecords.mem_values.mp hu
    refine ⟨(Corpus.mem_sightings h).mp (List.mem_of_find?_eq_some hfirst), ?_⟩
    intro v id hassigns
    have hseen : (UntrackedPacket.mk u.packet v id) ∈ corpus.sightings :=
      (Corpus.mem_sightings h).mpr hassigns
    exact Corpus.le_of_sightings h hfirst hseen rfl

end

end VersionGroups
