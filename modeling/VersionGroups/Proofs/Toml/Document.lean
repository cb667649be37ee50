import VersionGroups.Proofs.Toml.Section

/-!
# A document is determined by its text

The sections of a table all lie under its path, so those of one table are told from those of the
next one, and a table without content still has its header. A tree in which the values of a table
come before its tables, no two of which have one key, can therefore be put together again from its
sections, and these from the text.
-/
namespace VersionGroups.Toml

/-- A table whose values come before its tables, no two of which have one key, all the way down. -/
inductive Node.Tidy : Node → Prop
  | table {values tables : List (String × Node)} (isValue : ∀ f ∈ values, f.2.valueText? ≠ none)
      (distinct : (tables.map (·.1)).Nodup) (inner : ∀ f ∈ tables, Tidy f.2) :
      Tidy (.table (values ++ tables))

theorem Node.Tidy.valueText? {node : Node} (h : node.Tidy) : node.valueText? = none := by
  cases h
  rfl

theorem sectionsOfFields_eq (path : List String) (fields : List (String × Node)) :
    sectionsOfFields path fields = fields.flatMap fun f => sections (path ++ [f.1]) f.2 := by
  induction fields with
  | nil => rfl
  | cons f rest ih => rw [sectionsOfFields, ih, List.flatMap_cons]

theorem sections_of_value {path : List String} {node : Node} (h : node.valueText? ≠ none) :
    sections path node = [] := by
  cases node with
  | number => rfl
  | numbers => rfl
  | table => exact absurd rfl h

/-- Values are determined by their lines. -/
theorem valueLines_injective {values values' : List (String × Node)}
    (hvalues : ∀ f ∈ values, f.2.valueText? ≠ none)
    (hvalues' : ∀ f ∈ values', f.2.valueText? ≠ none)
    (h : valueLines values = valueLines values') : values = values' := by
  have hcons : ∀ {key : String} {node : Node} {rest}, node.valueText? ≠ none →
      ∃ text, node.valueText? = some text ∧
        valueLines ((key, node) :: rest) = (key, text) :: valueLines rest := by
    intro key node rest hnode
    obtain ⟨text, htext⟩ := Option.ne_none_iff_exists'.mp hnode
    exact ⟨text, htext, by rw [valueLines, List.filterMap_cons, htext]; rfl⟩
  induction values generalizing values' with
  | nil =>
      cases values' with
      | nil => rfl
      | cons f' rest' =>
          obtain ⟨text, -, hline⟩ := hcons (List.forall_mem_cons.mp hvalues').1
          rw [hline] at h
          cases h
  | cons f rest ih =>
      obtain ⟨hf, hrest⟩ := List.forall_mem_cons.mp hvalues
      obtain ⟨text, htext, hline⟩ := hcons hf
      rw [hline] at h
      cases values' with
      | nil => cases h
      | cons f' rest' =>
          obtain ⟨hf', hrest'⟩ := List.forall_mem_cons.mp hvalues'
          obtain ⟨text', htext', hline'⟩ := hcons hf'
          rw [hline'] at h
          obtain ⟨hfirst, hothers⟩ := List.cons.inj h
          obtain ⟨hkey, rfl⟩ := Prod.mk.inj hfirst
          rw [ih hrest hrest' hothers, Prod.ext hkey (valueText?_injective htext htext')]

theorem key_unique {path full : List String} {key key' : String} (h : path ++ [key] <+: full)
    (h' : path ++ [key'] <+: full) : key = key' := by
  have hprefix := List.prefix_of_prefix_length_le h h' (by simp)
  have heq := hprefix.eq_of_length (by simp)
  exact List.singleton_inj.mp (List.append_cancel_left heq)

/-- The sections of a table: those of the tables in it, below its lines if it has any or nothing
else. -/
theorem sections_table {values tables : List (String × Node)}
    (hvalues : ∀ f ∈ values, f.2.valueText? ≠ none) (htables : ∀ f ∈ tables, f.2.Tidy)
    (path : List String) : sections path (.table (values ++ tables)) =
      (if values = [] ∧ tables ≠ [] then [] else [⟨path, valueLines values⟩]) ++
        tables.flatMap fun f => sections (path ++ [f.1]) f.2 := by
  have hbody : sectionsOfFields path (values ++ tables) =
      tables.flatMap fun f => sections (path ++ [f.1]) f.2 := by
    have hnil : (values.flatMap fun f => sections (path ++ [f.1]) f.2) = [] :=
      List.flatMap_eq_nil_iff.mpr fun f hf => sections_of_value (hvalues f hf)
    rw [sectionsOfFields_eq, List.flatMap_append, hnil, List.nil_append]
  have hlines : valueLines (values ++ tables) = valueLines values := by
    have hnil : valueLines tables = [] := by
      refine List.filterMap_eq_nil_iff.mpr fun f hf => ?_
      rw [(htables f hf).valueText?]
      rfl
    rw [valueLines, List.filterMap_append, ← valueLines, ← valueLines, hnil, List.append_nil]
  have hempty : valueLines values = [] ↔ values = [] := by
    refine ⟨fun h => valueLines_injective hvalues (fun f hf => by cases hf) h, ?_⟩
    rintro rfl
    rfl
  rw [sections, hbody, hlines]
  by_cases hnil : values = []
  · subst hnil
    cases tables <;> simp [hempty]
  · simp [hempty, hnil]

theorem mem_sections_table {values tables : List (String × Node)}
    (hvalues : ∀ f ∈ values, f.2.valueText? ≠ none) (htables : ∀ f ∈ tables, f.2.Tidy)
    {path : List String} {s : Section} (hs : s ∈ sections path (.table (values ++ tables))) :
    s = ⟨path, valueLines values⟩ ∨ ∃ f ∈ tables, s ∈ sections (path ++ [f.1]) f.2 := by
  rw [sections_table hvalues htables] at hs
  rcases List.mem_append.mp hs with hs | hs
  · split at hs
    · cases hs
    · exact .inl (List.mem_singleton.mp hs)
  · exact .inr (List.mem_flatMap.mp hs)

namespace Node.Tidy
variable {node : Node}

theorem under (h : node.Tidy) (path : List String) : ∀ s ∈ sections path node, path <+: s.path := by
  induction h generalizing path with
  | @table values tables hvalues _ inner ih =>
      intro s hs
      rcases mem_sections_table hvalues inner hs with rfl | ⟨f, hf, hs⟩
      · exact List.prefix_rfl
      · exact (List.prefix_append path [f.1]).trans (ih f hf _ s hs)

theorem lined (h : node.Tidy) (path : List String) : ∀ s ∈ sections path node, s.Lined := by
  induction h generalizing path with
  | @table values tables hvalues _ inner ih =>
      intro s hs
      rcases mem_sections_table hvalues inner hs with rfl | ⟨f, hf, hs⟩
      · intro line hline
        obtain ⟨f, -, hf⟩ := List.mem_filterMap.mp hline
        obtain ⟨text, htext, rfl⟩ := Option.map_eq_some_iff.mp hf
        exact newline_not_mem_valueText htext
      · exact ih f hf _ s hs

theorem sections_ne_nil (h : node.Tidy) (path : List String) : sections path node ≠ [] := by
  induction h generalizing path with
  | @table values tables hvalues _ inner ih =>
      rw [sections_table hvalues inner]
      split
      · rename_i hcontent
        obtain ⟨f, rest, rfl⟩ := List.exists_cons_of_ne_nil hcontent.2
        rw [List.nil_append, List.flatMap_cons]
        exact List.append_ne_nil_of_left_ne_nil (ih f List.mem_cons_self _) _
      · exact List.cons_ne_nil _ _

end Node.Tidy

/-- Two lists are told apart in a common one by a test that all of the first and none of the second
pass. -/
theorem append_injective_of_test {α : Type} {p : α → Bool} {l l' r r' : List α}
    (hl : ∀ a ∈ l, p a = true) (hl' : ∀ a ∈ l', p a = true) (hr : ∀ a ∈ r, ¬ p a = true)
    (hr' : ∀ a ∈ r', ¬ p a = true) (h : l ++ r = l' ++ r') : l = l' ∧ r = r' := by
  have hfilter : ∀ {l r : List α}, (∀ a ∈ l, p a = true) → (∀ a ∈ r, ¬ p a = true) →
      (l ++ r).filter p = l := by
    intro l r hl hr
    rw [List.filter_append, List.filter_eq_self.mpr hl, List.filter_eq_nil_iff.mpr hr,
      List.append_nil]
  obtain rfl : l = l' := by rw [← hfilter hl hr, h, hfilter hl' hr']
  exact ⟨rfl, List.append_cancel_left h⟩

section
variable {path : List String} {key key' : String} {node node' : Node}
  {rest rest' : List (String × Node)}

theorem key_eq_of_sections (hnode : node.Tidy) (hnode' : node'.Tidy) {ss ss' : List Section}
    (h : sections (path ++ [key]) node ++ ss = sections (path ++ [key']) node' ++ ss') :
    key = key' := by
  have hunder := hnode.under (path ++ [key])
  have hunder' := hnode'.under (path ++ [key'])
  obtain ⟨s, _, hs⟩ := List.exists_cons_of_ne_nil (hnode.sections_ne_nil (path ++ [key]))
  obtain ⟨s', _, hs'⟩ := List.exists_cons_of_ne_nil (hnode'.sections_ne_nil (path ++ [key']))
  rw [hs] at h hunder
  rw [hs'] at h hunder'
  obtain rfl := (List.cons.inj h).1
  exact key_unique (hunder s List.mem_cons_self) (hunder' s List.mem_cons_self)

/-- The sections of the first of some tables are told from those of the others. -/
theorem sections_eq_of_append (hnode : node.Tidy) (hnode' : node'.Tidy)
    (hrest : ∀ f ∈ rest, f.2.Tidy) (hrest' : ∀ f ∈ rest', f.2.Tidy)
    (hfresh : key ∉ rest.map (·.1)) (hfresh' : key ∉ rest'.map (·.1))
    (h : (sections (path ++ [key]) node ++ rest.flatMap fun f => sections (path ++ [f.1]) f.2) =
      sections (path ++ [key]) node' ++ rest'.flatMap fun f => sections (path ++ [f.1]) f.2) :
    sections (path ++ [key]) node = sections (path ++ [key]) node' ∧
      (rest.flatMap fun f => sections (path ++ [f.1]) f.2) =
        rest'.flatMap fun f => sections (path ++ [f.1]) f.2 := by
  have hfirst : ∀ {node : Node}, node.Tidy → ∀ s ∈ sections (path ++ [key]) node,
      decide (path ++ [key] <+: s.path) = true :=
    fun hnode s hs => decide_eq_true (hnode.under _ s hs)
  have hothers : ∀ {rest : List (String × Node)}, (∀ f ∈ rest, f.2.Tidy) → key ∉ rest.map (·.1) →
      ∀ s ∈ rest.flatMap fun f => sections (path ++ [f.1]) f.2,
        ¬ decide (path ++ [key] <+: s.path) = true := by
    intro rest hrest hfresh s hs hunder
    obtain ⟨f, hf, hs⟩ := List.mem_flatMap.mp hs
    have hsame := key_unique (of_decide_eq_true hunder) ((hrest f hf).under _ s hs)
    exact hfresh (hsame ▸ List.mem_map_of_mem hf)
  exact append_injective_of_test (hfirst hnode) (hfirst hnode') (hothers hrest hfresh)
    (hothers hrest' hfresh') h

end

/-- Tables with different keys are told apart by their sections, if each of them is. -/
theorem fields_injective {tables tables' : List (String × Node)}
    (htables : ∀ f ∈ tables, f.2.Tidy) (htables' : ∀ f ∈ tables', f.2.Tidy)
    (distinct : (tables.map (·.1)).Nodup) (distinct' : (tables'.map (·.1)).Nodup)
    {path : List String}
    (h : (tables.flatMap fun f => sections (path ++ [f.1]) f.2) =
      tables'.flatMap fun f => sections (path ++ [f.1]) f.2)
    (inner : ∀ f ∈ tables, ∀ node : Node, node.Tidy → ∀ path,
      sections path f.2 = sections path node → f.2 = node) : tables = tables' := by
  have hne : ∀ {key} {node : Node} {rest}, node.Tidy →
      (((key, node) :: rest).flatMap fun f => sections (path ++ [f.1]) f.2) ≠ [] := by
    intro key node rest hnode
    exact List.append_ne_nil_of_left_ne_nil (hnode.sections_ne_nil _) _
  induction tables generalizing tables' with
  | nil =>
      cases tables' with
      | nil => rfl
      | cons f' rest' => exact absurd h.symm (hne (List.forall_mem_cons.mp htables').1)
  | cons f rest ih =>
      obtain ⟨key, node⟩ := f
      obtain ⟨hnode, hrest⟩ := List.forall_mem_cons.mp htables
      cases tables' with
      | nil => exact absurd h (hne hnode)
      | cons f' rest' =>
          obtain ⟨key', node'⟩ := f'
          obtain ⟨hnode', hrest'⟩ := List.forall_mem_cons.mp htables'
          obtain ⟨hfresh, hdistinct⟩ := List.nodup_cons.mp distinct
          obtain ⟨hfresh', hdistinct'⟩ := List.nodup_cons.mp distinct'
          obtain ⟨hinner, hinners⟩ := List.forall_mem_cons.mp inner
          rw [List.flatMap_cons, List.flatMap_cons] at h
          obtain rfl := key_eq_of_sections hnode hnode' h
          obtain ⟨hfirst, hothers⟩ :=
            sections_eq_of_append hnode hnode' hrest hrest' hfresh hfresh' h
          rw [show node = node' from hinner node' hnode' _ hfirst,
            ih hrest hrest' hdistinct hdistinct' hothers hinners]

/-- The lines of a table are told from the sections of the tables in it. -/
theorem lines_eq_of_sections {values values' tables tables' : List (String × Node)}
    (hvalues : ∀ f ∈ values, f.2.valueText? ≠ none)
    (hvalues' : ∀ f ∈ values', f.2.valueText? ≠ none)
    (htables : ∀ f ∈ tables, f.2.Tidy) (htables' : ∀ f ∈ tables', f.2.Tidy) {path : List String}
    (h : sections path (.table (values ++ tables)) =
      sections path (.table (values' ++ tables'))) :
    valueLines values = valueLines values' ∧
      (tables.flatMap fun f => sections (path ++ [f.1]) f.2) =
        tables'.flatMap fun f => sections (path ++ [f.1]) f.2 := by
  rw [sections_table hvalues htables, sections_table hvalues' htables'] at h
  have hown : ∀ values tables : List (String × Node), ∀ s ∈
      (if values = [] ∧ tables ≠ [] then [] else [(⟨path, valueLines values⟩ : Section)]),
        decide (s.path = path) = true := by
    intro values tables s hs
    split at hs
    · cases hs
    · rw [List.mem_singleton.mp hs]
      exact decide_eq_true rfl
  have hinner : ∀ tables : List (String × Node), (∀ f ∈ tables, f.2.Tidy) →
      ∀ s ∈ tables.flatMap fun f => sections (path ++ [f.1]) f.2,
        ¬ decide (s.path = path) = true := by
    intro tables htables s hs hpath
    obtain ⟨f, hf, hs⟩ := List.mem_flatMap.mp hs
    have hle := ((htables f hf).under _ s hs).length_le
    rw [of_decide_eq_true hpath, List.length_append, List.length_singleton] at hle
    exact absurd hle (Nat.not_succ_le_self _)
  obtain ⟨hlines, hbody⟩ := append_injective_of_test (hown values tables) (hown values' tables')
    (hinner tables htables) (hinner tables' htables') h
  refine ⟨?_, hbody⟩
  split at hlines
  · rename_i hnone
    split at hlines
    · rename_i hnone'
      rw [hnone.1, hnone'.1]
    · cases hlines
  · split at hlines
    · cases hlines
    · exact (Section.mk.inj (List.singleton_inj.mp hlines)).2

theorem Node.Tidy.sections_injective {node : Node} (h : node.Tidy) :
    ∀ node' : Node, node'.Tidy → ∀ path,
      sections path node = sections path node' → node = node' := by
  induction h with
  | @table values tables hvalues distinct inner ih =>
      rintro _ (@⟨values', tables', hvalues', distinct', inner'⟩) path heq
      obtain ⟨hlines, hbody⟩ := lines_eq_of_sections hvalues hvalues' inner inner' heq
      rw [valueLines_injective hvalues hvalues' hlines,
        fields_injective inner inner' distinct distinct' hbody ih]

theorem documentText_injective {fields fields' : List (String × Node)}
    (htidy : (Node.table fields).Tidy) (htidy' : (Node.table fields').Tidy)
    (h : documentText fields = documentText fields') : fields = fields' := by
  have hsections := intercalate_text_injective (htidy.lined []) (htidy'.lined [])
    (htidy.sections_ne_nil []) (htidy'.sections_ne_nil []) h
  exact Node.table.inj (htidy.sections_injective _ htidy' [] hsections)

end VersionGroups.Toml
