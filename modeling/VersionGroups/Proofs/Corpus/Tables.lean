import Mathlib.Data.List.Induction
import VersionGroups.Proofs.Corpus.Faults

/-!
# The packet table of a document

The packets of a direction and a state are declared by the type `packet` among the types of the
direction in the state. This type is a container: its second item lists fields, and the second item
of a field's type holds options. The id mapping is an option of the last mapper among the fields and
the definitions are an option of the last switch; a field of that kind without the option leaves the
container without a table, whatever comes before it.
-/
namespace VersionGroups

/-- What stands in a value under some keys, each inside the one before. -/
def Json.under? : List String → Json → Option Json
  | [], a => some a
  | key :: rest, a => (a.field? key).bind (under? rest)

namespace View
variable {view : View} {direction : Direction} {state kind option : String} {field : Json}
  {fields : List Json} {entries : List (String × Json)} {table : PacketTable}

/-- The kind of a field is the first item of its type. -/
def IsOfKind (kind : String) (field : Json) : Prop :=
  ∃ type, field.field? "type" = some type ∧ type.item? 0 = some (.str kind)

/-- An option of a field is in the second item of its type. -/
def HasOption (option : String) (field : Json) (entries : List (String × Json)) : Prop :=
  ∃ type options, field.field? "type" = some type ∧ type.item? 1 = some options ∧
    options.field? option = some (.obj entries)

/-- The last of some fields that is of a kind has an option. -/
def LastHasOption (kind option : String) (fields : List Json) (entries : List (String × Json)) :
    Prop :=
  ∃ earlier field later, fields = earlier ++ field :: later ∧ IsOfKind kind field ∧
    (∀ other ∈ later, ¬IsOfKind kind other) ∧ HasOption option field entries

/-- The type that declares the packets of a direction and a state. -/
def packetType? (view : View) (direction : Direction) (state : String) : Option Json :=
  view.document.root.under? [state, direction.documentKey, Document.typesKey, "packet"]

/-- The table of a direction and a state, as the document declares it. -/
def HasTable (view : View) (direction : Direction) (state : String) (table : PacketTable) : Prop :=
  ∃ container fields, view.packetType? direction state = some container ∧
    container.item? 1 = some (.arr fields) ∧
    LastHasOption "mapper" "mappings" fields table.mappings ∧
    LastHasOption "switch" "fields" fields table.definitions

theorem asObject?_eq_some {a : Json} : a.asObject? = some entries ↔ a = .obj entries := by
  cases a <;> simp [Json.asObject?]

theorem asArray?_eq_some {a : Json} : a.asArray? = some fields ↔ a = .arr fields := by
  cases a <;> simp [Json.asArray?]

theorem fieldKind?_eq_some : fieldKind? field = some kind ↔ IsOfKind kind field := by
  have hstring {a : Json} : a.asString? = some kind ↔ a = .str kind := by
    cases a <;> simp [Json.asString?]
  simp [fieldKind?, IsOfKind, Option.bind_eq_some_iff, hstring]

theorem fieldOption?_eq_some :
    fieldOption? field option = some entries ↔ HasOption option field entries := by
  simp [fieldOption?, HasOption, Option.bind_eq_some_iff, asObject?_eq_some]

/-- The last field decides if it is of the kind, and otherwise those before it do. -/
theorem lastHasOption_concat : LastHasOption kind option (fields ++ [field]) entries ↔
    IsOfKind kind field ∧ HasOption option field entries ∨
      ¬IsOfKind kind field ∧ LastHasOption kind option fields entries := by
  constructor
  · rintro ⟨earlier, chosen, later, heq, hkind, hlater, hoption⟩
    rcases List.eq_nil_or_concat' later with rfl | ⟨between, last, rfl⟩
    · obtain ⟨-, rfl⟩ := List.append_singleton_inj.mp heq
      exact .inl ⟨hkind, hoption⟩
    · rw [← List.cons_append, ← List.append_assoc] at heq
      obtain ⟨rfl, rfl⟩ := List.append_singleton_inj.mp heq
      exact .inr ⟨hlater _ (by simp), earlier, chosen, between, rfl, hkind,
        fun other hother => hlater other (List.mem_append_left _ hother), hoption⟩
  · rintro (⟨hkind, hoption⟩ | ⟨hkind, earlier, chosen, later, rfl, hchosen, hlater, hoption⟩)
    · exact ⟨fields, field, [], rfl, hkind, by simp, hoption⟩
    · refine ⟨earlier, chosen, later ++ [field], by simp, hchosen, fun other hother => ?_, hoption⟩
      rcases List.mem_append.mp hother with hother | hother
      · exact hlater other hother
      · exact List.mem_singleton.mp hother ▸ hkind

theorem lastOption?_eq_some :
    lastOption? kind option fields = some entries ↔ LastHasOption kind option fields entries := by
  induction fields using List.reverseRecOn with
  | nil => simp [lastOption?, LastHasOption]
  | append_singleton fields field ih =>
      rw [lastHasOption_concat, lastOption?, List.foldl_concat, ← lastOption?, ← ih]
      by_cases hkind : IsOfKind kind field
      · simp [hkind, fieldKind?_eq_some.mpr hkind, fieldOption?_eq_some]
      · simp [hkind, mt fieldKind?_eq_some.mp hkind]

theorem packetType?_eq (view : View) (direction : Direction) (state : String) :
    (view.localTypes? direction state).bind (Json.lookup? · "packet") =
      view.packetType? direction state := by
  simp [packetType?, Json.under?, localTypes?, Json.field?, Option.bind_assoc]

/-- A table that is read is the one that the document declares. -/
theorem packetTable?_eq_some :
    view.packetTable? direction state = .ok (some table) ↔ view.HasTable direction state table := by
  obtain ⟨mappings, definitions⟩ := table
  have hfields {container : Json} {fields : List Json} :
      container.item? 1 = some (.arr fields) ↔
        (container.item? 1).bind Json.asArray? = some fields := by
    simp [Option.bind_eq_some_iff, asArray?_eq_some]
  simp only [HasTable, ← lastOption?_eq_some, hfields]
  rw [packetTable?, packetType?_eq]
  cases view.packetType? direction state with
  | none => simp
  | some container =>
      cases hitems : (container.item? 1).bind Json.asArray? with
      | none => simp [hitems]
      | some fields =>
          simp only [hitems, Option.some.injEq, exists_and_left, exists_eq_left']
          cases lastOption? "mapper" "mappings" fields <;>
            cases lastOption? "switch" "fields" fields <;> simp

theorem HasTable.read (h : view.HasTable direction state table) :
    view.packetTable? direction state = .ok (some table) :=
  packetTable?_eq_some.mpr h

theorem HasTable.unique {other : PacketTable} (h : view.HasTable direction state table)
    (hother : view.HasTable direction state other) : table = other :=
  Option.some.inj (Except.ok.inj (h.read.symm.trans hother.read))

theorem packetTable?_eq_none :
    view.packetTable? direction state = .ok none ↔ view.packetType? direction state = none := by
  rw [packetTable?, packetType?_eq]
  cases view.packetType? direction state with
  | none => simp
  | some container =>
      dsimp only
      split
      · simp
      · split <;> simp

/-- Reading the table fails exactly if the type that declares the packets holds none. -/
theorem packetTable?_isError_iff :
    (∃ fault, view.packetTable? direction state = .error fault) ↔
      view.packetType? direction state ≠ none ∧ ∀ table, ¬view.HasTable direction state table := by
  simp only [← packetTable?_eq_some, ne_eq, ← packetTable?_eq_none]
  rcases view.packetTable? direction state with fault | table? | table <;> simp

end View

end VersionGroups
