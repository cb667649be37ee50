import VersionGroups.Corpus.View
import VersionGroups.ErrorReport
import VersionGroups.Proofs.Results

/-!
# What reading a document can find

Each question to a document fails in its own way: over a table that is malformed, a packet without a
definition, a key that is no number, or two numbers for one packet. All of these tell that the
document of a version is inconsistent. A packet has a wire id exactly if it has a definition.
-/
namespace VersionGroups

/-- The kind under which a fault is reported. -/
def Fault.kind (fault : Fault) : ErrorKind := (ErrorReport.ofFault fault).kind

/-- A fault tells that a version is inconsistent. -/
def Fault.TellsOf (fault : Fault) (version : Version) : Prop :=
  ErrorReport.ofFault fault =
    { kind := .corpusInconsistency, version := some version, message := fault.message }

namespace View

/-- One of some mapping entries gives a packet a wire id. -/
def Gives (mappings : List (String × Json)) (name : String) (id : WireId) : Prop :=
  ∃ e ∈ mappings, e.2.asString? = some name ∧ WireId.ofKey? e.1 = some id

/-- Why a packet has no wire id although some keys are its own: one of them is no number, or two
numbers are given, of which the smaller one is named first. -/
inductive WireIdFault (view : View) (packet : PacketName) (keys : List String)
    (given : WireId → Prop) : Fault → Prop
  | unreadable {key : String} (mem : key ∈ keys) (h : WireId.ofKey? key = none) :
      WireIdFault view packet keys given
        (.malformedWireId view.version packet.direction packet.state key)
  | conflict {first second : WireId} (lt : first.value < second.value) (hfirst : given first)
      (hsecond : given second) :
      WireIdFault view packet keys given (.conflictingWireId view.version packet first second)

variable {view : View} {packet : PacketName} {direction : Direction} {state : String}
  {fault : Fault} {mappings : List (String × Json)} {id : WireId}

theorem names_iff {name : String} {value : Json} :
    names name value = true ↔ value.asString? = some name := by
  simp [names]

theorem keyId_ok {key : String} (h : view.keyId direction state key = .ok id) :
    WireId.ofKey? key = some id := by
  rw [keyId] at h
  split at h
  · rename_i found hfound
    rw [hfound, Except.ok.inj h]
  · cases h

theorem Gives.cons (e : String × Json) {name : String} (h : Gives mappings name id) :
    Gives (e :: mappings) name id := by
  obtain ⟨e', he', hgives⟩ := h
  exact ⟨e', List.mem_cons_of_mem _ he', hgives⟩

theorem WireIdFault.cons {keys : List String} {given given' : WireId → Prop}
    (h : WireIdFault view packet keys given fault) (key : String)
    (imp : ∀ id, given id → given' id) : WireIdFault view packet (key :: keys) given' fault := by
  cases h with
  | unreadable mem h => exact .unreadable (List.mem_cons_of_mem _ mem) h
  | conflict lt hfirst hsecond => exact .conflict lt (imp _ hfirst) (imp _ hsecond)

theorem packetTable?_error (h : view.packetTable? direction state = .error fault) :
    ∃ reason, fault = .malformedPacketTable view.version direction state reason := by
  rw [packetTable?] at h
  split at h
  · cases h
  · dsimp only at h
    split at h
    · exact ⟨_, (Except.error.inj h).symm⟩
    · split at h
      · exact ⟨_, (Except.error.inj h).symm⟩
      · exact ⟨_, (Except.error.inj h).symm⟩
      · cases h

theorem keyId_error {key : String} (h : view.keyId direction state key = .error fault) :
    WireId.ofKey? key = none ∧ fault = .malformedWireId view.version direction state key := by
  rw [keyId] at h
  split at h
  · cases h
  · rename_i hkey
    exact ⟨hkey, (Except.error.inj h).symm⟩

/-- Once there is a table, a packet has no definition only for want of one. -/
theorem packetSpec?_error {table? : Option PacketTable}
    (htable : view.packetTable? packet.direction packet.state = .ok table?)
    (h : view.packetSpec? packet = .error fault) :
    fault = .unresolvedPacket view.version packet := by
  rcases bind_eq_error.mp h with hmalformed | ⟨found, -, h⟩
  · cases htable.symm.trans hmalformed
  · cases found with
    | none => cases h
    | some table =>
        dsimp only at h
        split at h
        · split at h
          · split at h
            · cases h
            · exact (Except.error.inj h).symm
          · cases h
          · exact (Except.error.inj h).symm
        · cases h

/-- The search for a wire id fails over the keys of the packet. -/
theorem findWireId_error {found : Option WireId}
    (h : view.findWireId packet found mappings = .error fault) :
    WireIdFault view packet (mappings.map (·.1))
      (fun id => found = some id ∨ Gives mappings packet.name id) fault := by
  induction mappings generalizing found with
  | nil => cases h
  | cons e rest ih =>
      obtain ⟨key, value⟩ := e
      rw [findWireId] at h
      by_cases hname : names packet.name value = true
      · simp only [hname, if_true] at h
        rcases bind_eq_error.mp h with hkey | ⟨here, hhere, h⟩
        · obtain ⟨hread, rfl⟩ := keyId_error hkey
          exact .unreadable List.mem_cons_self hread
        · have hgives : Gives ((key, value) :: rest) packet.name here :=
            ⟨_, List.mem_cons_self, names_iff.mp hname, keyId_ok hhere⟩
          cases found with
          | none =>
              refine (ih h).cons key fun id hid => .inr ?_
              rcases hid with hid | hid
              · exact Option.some.inj hid ▸ hgives
              · exact hid.cons _
          | some first =>
              dsimp only at h
              split at h
              · exact (ih h).cons key fun _ => Or.imp_right (Gives.cons _)
              · rename_i hne
                split at h
                · rename_i hlt
                  obtain rfl := Except.error.inj h
                  exact .conflict hlt (.inl rfl) (.inr hgives)
                · rename_i hle
                  have hvalue : here.value ≠ first.value := fun heq => hne (WireId.ext heq.symm)
                  obtain rfl := Except.error.inj h
                  exact .conflict (by omega) (.inr hgives) (.inl rfl)
      · rw [if_neg hname] at h
        exact (ih h).cons key fun _ => Or.imp_right (Gives.cons _)

theorem tellsOf_of_packetTable? (h : view.packetTable? direction state = .error fault) :
    fault.TellsOf view.version := by
  obtain ⟨reason, rfl⟩ := packetTable?_error h
  rfl

theorem tellsOf_of_packetSpec? (h : view.packetSpec? packet = .error fault) :
    fault.TellsOf view.version := by
  rcases bind_eq_error.mp h with hmalformed | ⟨table?, htable, -⟩
  · exact tellsOf_of_packetTable? hmalformed
  · obtain rfl := packetSpec?_error htable h
    rfl

theorem tellsOf_of_findWireId {found : Option WireId}
    (h : view.findWireId packet found mappings = .error fault) : fault.TellsOf view.version := by
  cases findWireId_error h with
  | unreadable => rfl
  | conflict => rfl

theorem tellsOf_of_slotSpec? {slot : Slot} (h : view.slotSpec? slot = .error fault) :
    fault.TellsOf view.version := by
  cases slot with
  | packet packet => exact tellsOf_of_packetSpec? h
  | type type => cases h

theorem tellsOf_of_slotWireId? {slot : Slot} (h : view.slotWireId? slot = .error fault) :
    fault.TellsOf view.version := by
  cases slot with
  | packet packet =>
      rcases bind_eq_error.mp h with htable | ⟨table, -, h⟩
      · exact tellsOf_of_packetTable? htable
      · cases table with
        | none => cases h
        | some table => exact tellsOf_of_findWireId h
  | type type => cases h

theorem slotSpec?_error {slot : Slot} (h : view.slotSpec? slot = .error fault) :
    fault.kind = .corpusInconsistency :=
  congrArg ErrorReport.kind (tellsOf_of_slotSpec? h)

theorem slotWireId?_error {slot : Slot} (h : view.slotWireId? slot = .error fault) :
    fault.kind = .corpusInconsistency :=
  congrArg ErrorReport.kind (tellsOf_of_slotWireId? h)

/-- The search for a wire id ends without one only if nothing names the packet. -/
theorem findWireId_eq_none {packet : PacketName} {found : Option WireId}
    {mappings : List (String × Json)} (h : view.findWireId packet found mappings = .ok none) :
    found = none ∧ mappings.any (fun e => names packet.name e.2) = false := by
  induction mappings generalizing found with
  | nil => exact ⟨Except.ok.inj h, rfl⟩
  | cons e rest ih =>
      obtain ⟨key, value⟩ := e
      rw [findWireId] at h
      split at h
      · obtain ⟨id, -, h⟩ := bind_eq_ok.mp h
        split at h
        · cases (ih h).1
        · split at h
          · cases (ih h).1
          · split at h <;> cases h
      · rename_i hname
        obtain ⟨hfound, hrest⟩ := ih h
        refine ⟨hfound, ?_⟩
        rw [List.any_cons, hrest, Bool.or_false]
        exact eq_false_of_ne_true hname

/-- The search for a wire id goes past entries that do not name the packet. -/
theorem findWireId_of_unnamed {packet : PacketName} (found : Option WireId)
    {mappings : List (String × Json)}
    (h : mappings.any (fun e => names packet.name e.2) = false) :
    view.findWireId packet found mappings = .ok found := by
  induction mappings with
  | nil => rfl
  | cons e rest ih =>
      rw [List.any_cons, Bool.or_eq_false_iff] at h
      rw [findWireId, if_neg (by simp [h.1]), ih h.2]

/-- A slot without a definition has no wire id. -/
theorem slotWireId?_of_undefined {slot : Slot} (h : view.slotSpec? slot = .ok none) :
    view.slotWireId? slot = .ok none := by
  cases slot with
  | type type => rfl
  | packet packet =>
      obtain ⟨table, htable, h⟩ := bind_eq_ok.mp h
      refine bind_eq_ok.mpr ⟨table, htable, ?_⟩
      cases table with
      | none => rfl
      | some table =>
          dsimp only at h ⊢
          split at h
          · -- A packet that the id mapping names has a definition, or reading it fails.
            split at h
            · split at h <;> cases h
            · cases h
            · cases h
          · rename_i hunnamed
            exact findWireId_of_unnamed none (eq_false_of_ne_true hunnamed)

theorem packetWireId?_ne_none {packet : PacketName} {spec : Json}
    (h : view.packetSpec? packet = .ok (some spec)) : view.packetWireId? packet ≠ .ok none := by
  intro hid
  obtain ⟨table, htable, h⟩ := bind_eq_ok.mp h
  obtain ⟨table', htable', hid⟩ := bind_eq_ok.mp hid
  obtain rfl := Except.ok.inj (htable.symm.trans htable')
  cases table with
  | none => cases h
  | some table =>
      obtain ⟨-, hnames⟩ := findWireId_eq_none hid
      dsimp only at h
      rw [hnames] at h
      cases h

end View

end VersionGroups
