import VersionGroups.Manifest.Render
import VersionGroups.Proofs.Results
import VersionGroups.Proofs.Table
import VersionGroups.Proofs.Toml.Document

/-!
# A layout is determined by the file

The tables of the file have the keys of the layout, numbers in decimal, so they are tidy and no two
layouts have the same. Two things keep the entries of the file apart: the packets stand under the
names of the directions, and a direction has a table among the types only if it has one.
-/
namespace VersionGroups.Manifest

theorem tidy_of_values {fields : List (String × Toml.Node)}
    (h : ∀ f ∈ fields, f.2.valueText? ≠ none) : (Toml.Node.table fields).Tidy := by
  rw [← List.append_nil fields]
  exact .table h List.nodup_nil fun f hf => by cases hf

section
variable {κ α : Type} {key : κ → String} {node : α → Toml.Node}

theorem tidy_of_tables [Ord κ] [Std.TransOrd κ] (hkey : Function.Injective key) {t : Table κ α}
    (h : ∀ a, (node a).Tidy) :
    (Toml.Node.table (t.entries.map fun e => (key e.1, node e.2))).Tidy := by
  have hdistinct : ((t.entries.map fun e => (key e.1, node e.2)).map (·.1)).Nodup := by
    rw [List.map_map]
    have hkeys := t.keys_nodup.map hkey
    rwa [Table.keys, List.map_map] at hkeys
  have hnone : ∀ f ∈ ([] : List (String × Toml.Node)), f.2.valueText? ≠ none :=
    fun f hf => by cases hf
  exact .table hnone hdistinct (List.forall_mem_map.mpr fun e _ => h e.2)

/-- Entries are determined by their fields if their values are. -/
theorem entries_injective (hkey : Function.Injective key) {l l' : List (κ × α)}
    (hnode : ∀ e ∈ l, ∀ e' ∈ l', node e.2 = node e'.2 → e.2 = e'.2)
    (h : (l.map fun e => (key e.1, node e.2)) = l'.map fun e => (key e.1, node e.2)) : l = l' := by
  induction l generalizing l' with
  | nil => exact (List.map_eq_nil_iff.mp h.symm).symm
  | cons e rest ih =>
      cases l' with
      | nil => cases h
      | cons e' rest' =>
          obtain ⟨hfirst, hrest⟩ := List.cons.inj h
          obtain ⟨hname, hvalue⟩ := Prod.mk.inj hfirst
          have heq : e = e' := Prod.ext (hkey hname)
            (hnode e List.mem_cons_self e' List.mem_cons_self hvalue)
          rw [heq, ih (fun a ha b hb => hnode a (List.mem_cons_of_mem _ ha) b
            (List.mem_cons_of_mem _ hb)) hrest]

end

theorem toString_injective : Function.Injective (toString : Nat → String) :=
  fun _ _ h => Toml.toString_injective (congrArg String.toList h)

section
variable {α : Type} {node : α → Toml.Node}

theorem numberTable_injective (hnode : Function.Injective node) :
    Function.Injective (numberTable node) :=
  fun _ _ h => Table.ext (entries_injective toString_injective (fun _ _ _ _ heq => hnode heq)
    (Toml.Node.table.inj h))

theorem textTable_injective (hnode : Function.Injective node) :
    Function.Injective (textTable node) :=
  fun _ _ h => Table.ext (entries_injective Function.injective_id (fun _ _ _ _ heq => hnode heq)
    (Toml.Node.table.inj h))

theorem tidy_numberTable_of_values (hnode : ∀ a, (node a).valueText? ≠ none) (t : Table Nat α) :
    (numberTable node t).Tidy :=
  tidy_of_values (List.forall_mem_map.mpr fun e _ => hnode e.2)

theorem tidy_numberTable (hnode : ∀ a, (node a).Tidy) (t : Table Nat α) :
    (numberTable node t).Tidy :=
  tidy_of_tables toString_injective hnode

theorem tidy_textTable (hnode : ∀ a, (node a).Tidy) (t : Table String α) :
    (textTable node t).Tidy :=
  tidy_of_tables Function.injective_id hnode

end

theorem typeRowsNode_injective : Function.Injective typeRowsNode :=
  numberTable_injective fun _ _ h => Toml.Node.numbers.inj h

theorem tidy_typeRowsNode (rows : TypeRows) : (typeRowsNode rows).Tidy :=
  tidy_numberTable_of_values (fun _ h => by cases h) rows

/-- The packets of a direction as they stand in the file. -/
def packetsNode (packets : Table String (Table String PacketRows)) : Toml.Node :=
  textTable (textTable (numberTable (numberTable .numbers))) packets

theorem packetsNode_injective : Function.Injective packetsNode := by
  have hwires : Function.Injective (numberTable Toml.Node.numbers) :=
    numberTable_injective fun _ _ h => Toml.Node.numbers.inj h
  exact textTable_injective (textTable_injective (numberTable_injective hwires))

theorem tidy_packetsNode (packets : Table String (Table String PacketRows)) :
    (packetsNode packets).Tidy := by
  have hwires : ∀ wires, (numberTable Toml.Node.numbers wires).Tidy :=
    tidy_numberTable_of_values fun _ h => by cases h
  exact tidy_textTable (tidy_textTable (tidy_numberTable hwires)) packets

/-- The table of a direction among the types holds a state. -/
def TypeEntry.Filled : TypeEntry → Prop
  | .rows _ => True
  | .scope states => states.entries ≠ []

theorem TypeEntry.tidy_node : ∀ entry : TypeEntry, entry.node.Tidy
  | .rows content => tidy_typeRowsNode content
  | .scope states => tidy_textTable (tidy_textTable tidy_typeRowsNode) states

/-- The rows of a type are not written like the table of a direction. -/
theorem rows_ne_scope {rows : TypeRows} {states : Table String (Table String TypeRows)}
    (h : states.entries ≠ []) : (TypeEntry.rows rows).node ≠ (TypeEntry.scope states).node := by
  intro heq
  obtain ⟨e, rest, hentries⟩ := List.exists_cons_of_ne_nil h
  have hfields := Toml.Node.table.inj heq
  rw [hentries] at hfields
  cases hrows : rows.entries with
  | nil =>
      rw [hrows] at hfields
      cases hfields
  | cons e' rest' =>
      rw [hrows] at hfields
      cases (Prod.mk.inj (List.cons.inj hfields).1).2

theorem TypeEntry.node_injective {entry entry' : TypeEntry} (h : entry.Filled)
    (h' : entry'.Filled) (heq : entry.node = entry'.node) : entry = entry' := by
  match entry, entry' with
  | .rows _, .rows _ => rw [typeRowsNode_injective heq]
  | .scope _, .scope _ =>
      rw [textTable_injective (textTable_injective typeRowsNode_injective) heq]
  | .rows _, .scope _ => exact absurd heq (rows_ne_scope h')
  | .scope _, .rows _ => exact absurd heq.symm (rows_ne_scope h)

/-- A layout whose packets stand under the names of directions, in which the table of a direction
among the types holds a state. -/
structure Layout.Regular (layout : Layout) : Prop where
  directed : ∀ key ∈ layout.packets.keys, ∃ d : Direction, key = d.name
  filled : ∀ entry ∈ layout.types.entries, entry.2.Filled

namespace Layout
variable {layout layout' : Layout}

theorem Regular.insert_types (h : layout.Regular) (name : String) {entry : TypeEntry}
    (hentry : entry.Filled) :
    Regular { layout with types := layout.types.insert name entry } where
  directed := h.directed
  filled := by
    intro e he
    rcases Table.mem_place he with rfl | he
    · exact hentry
    · exact h.filled e he

theorem Regular.insert_packets (h : layout.Regular) (d : Direction)
    (states : Table String (Table String PacketRows)) :
    Regular { layout with packets := layout.packets.insert d.name states } where
  directed := by
    refine List.forall_mem_map.mpr fun e he => ?_
    rcases Table.mem_place he with rfl | he
    · exact ⟨d, rfl⟩
    · exact h.directed _ (List.mem_map_of_mem he)
  filled := h.filled

theorem Regular.addScoped (h : layout.Regular) (d : Direction)
    (states : Table String (Table String TypeRows)) (state name : String)
    (groups : List ManifestGroup) :
    (layout.addScoped d states state name groups).Regular := by
  refine h.insert_types d.name ?_
  have hstate := Table.get?_insert_self states state
    (((states.get? state).getD Table.empty).insert name (typeRows groups))
  exact List.ne_nil_of_mem (Table.get?_eq_some_iff.mp hstate)

/-- Adding a slot keeps a layout regular. -/
theorem Regular.add (h : layout.Regular) {entry : Slot × List ManifestGroup}
    (hadd : layout.add entry = .ok layout') : layout'.Regular := by
  obtain ⟨slot, groups⟩ := entry
  match slot with
  | .type ⟨.common, name⟩ =>
      obtain rfl := Except.ok.inj hadd
      exact h.insert_types name trivial
  | .type ⟨.scoped d state, name⟩ =>
      cases hget : layout.types.get? d.name with
      | none =>
          simp only [Layout.add, hget] at hadd
          obtain rfl := Except.ok.inj hadd
          exact h.addScoped d _ state name groups
      | some found =>
          cases found with
          | rows rows =>
              simp only [Layout.add, hget] at hadd
              cases hadd
          | scope states =>
              simp only [Layout.add, hget] at hadd
              obtain rfl := Except.ok.inj hadd
              exact h.addScoped d states state name groups
  | .packet packet =>
      obtain ⟨rows, -, hadd⟩ := bind_eq_ok.mp hadd
      obtain rfl := Except.ok.inj hadd
      exact h.insert_packets packet.direction _

end Layout

theorem regular_of_layout {manifest : Manifest} {layout : Layout}
    (h : manifest.layout = .ok layout) : layout.Regular := by
  have hempty : Layout.Regular ⟨Table.empty, Table.empty⟩ :=
    ⟨fun _ hkey => (by cases hkey), fun _ he => (by cases he)⟩
  have hkeeps : ∀ before entry after layout layout',
      manifest.slots.entries = before ++ entry :: after → Layout.Regular layout →
        layout.add entry = .ok layout' → layout'.Regular :=
    fun _ _ _ _ _ _ hs hadd => hs.add hadd
  exact foldlM_keeps hkeeps (List.nil_append _).symm hempty h

section
variable {manifest manifest' : Manifest} {layout layout' : Layout}

theorem tidy_fileFields (h : layout.Regular) :
    (Toml.Node.table (manifest.fileFields layout)).Tidy := by
  have hdirected : ∀ key : String, (∀ d : Direction, key ≠ d.name) → key ∉ layout.packets.keys :=
    fun key hkey hmem => (h.directed key hmem).elim hkey
  have hdistinct : (["version_aliases", "type"] ++ layout.packets.keys).Nodup := by
    simp only [List.cons_append, List.nil_append, List.nodup_cons, List.mem_cons, not_or]
    refine ⟨⟨by decide, hdirected _ fun d => ?_⟩, hdirected _ fun d => ?_,
      layout.packets.keys_nodup⟩
    · cases d <;> decide
    · cases d <;> decide
  have htidy : (Toml.Node.table ([("versions", Toml.Node.numbers manifest.versions)] ++
      (("version_aliases", numberTable .number manifest.aliases) ::
        ("type", textTable TypeEntry.node layout.types) ::
          layout.packets.entries.map fun e => (e.1, packetsNode e.2)))).Tidy := by
    refine .table ?_ ?_ ?_
    · exact List.forall_mem_singleton.mpr fun h => by cases h
    · simpa [Table.keys, Function.comp_def] using hdistinct
    · refine List.forall_mem_cons.mpr ⟨?_, List.forall_mem_cons.mpr ⟨?_, ?_⟩⟩
      · exact tidy_numberTable_of_values (fun _ h => by cases h) _
      · exact tidy_textTable TypeEntry.tidy_node _
      · exact List.forall_mem_map.mpr fun e _ => tidy_packetsNode e.2
  exact htidy

/-- The fields of the file tell the versions, the aliases and the layout. -/
theorem fileFields_injective (h : layout.Regular) (h' : layout'.Regular)
    (heq : manifest.fileFields layout = manifest'.fileFields layout') :
    manifest.versions = manifest'.versions ∧ manifest.aliases = manifest'.aliases ∧
      layout = layout' := by
  obtain ⟨hversions, hrest⟩ := List.cons.inj heq
  obtain ⟨haliases, hrest⟩ := List.cons.inj hrest
  obtain ⟨htypes, hpackets⟩ := List.cons.inj hrest
  have hsame : layout.types = layout'.types :=
    Table.ext (entries_injective Function.injective_id
      (fun e he e' he' => TypeEntry.node_injective (h.filled e he) (h'.filled e' he'))
      (Toml.Node.table.inj (Prod.mk.inj htypes).2))
  have hsame' : layout.packets = layout'.packets :=
    Table.ext (entries_injective Function.injective_id
      (fun _ _ _ _ heq => packetsNode_injective heq) hpackets)
  refine ⟨Toml.Node.numbers.inj (Prod.mk.inj hversions).2,
    numberTable_injective (fun _ _ h => Toml.Node.number.inj h) (Prod.mk.inj haliases).2, ?_⟩
  cases layout
  cases layout'
  exact Layout.mk.injEq .. ▸ ⟨hsame, hsame'⟩

theorem fileText_injective (h : layout.Regular) (h' : layout'.Regular)
    (heq : notice ++ Toml.documentText (manifest.fileFields layout) =
      notice ++ Toml.documentText (manifest'.fileFields layout')) :
    manifest.versions = manifest'.versions ∧ manifest.aliases = manifest'.aliases ∧
      layout = layout' :=
  fileFields_injective h h' (Toml.documentText_injective (tidy_fileFields h) (tidy_fileFields h')
    ((String.append_right_inj notice).mp heq))

end

end VersionGroups.Manifest
