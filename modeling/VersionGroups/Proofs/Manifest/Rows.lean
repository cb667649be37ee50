import VersionGroups.Proofs.Manifest.Classification
import VersionGroups.Proofs.Manifest.Layout

/-!
# What a layout says about a slot

Every slot has a place of its own in a layout: adding one sets its rows and leaves those of the
other slots as they were. So the layout of a manifest has rows for exactly the slots that are
listed. The rows tell the groups of a slot: the representatives are the keys, and the versions stand
under their wire ids, or under none for a type.
-/
namespace VersionGroups.Manifest

section
variable {κ ι α : Type} [Ord κ] [Ord ι] [Std.TransOrd κ] [Std.LawfulEqOrd κ] [Std.TransOrd ι]
  [Std.LawfulEqOrd ι]

/-- The entry under two keys in a table of tables. -/
def within? (t : Table κ (Table ι α)) (j : κ) (k : ι) : Option α :=
  (t.get? j).bind fun inner => inner.get? k

theorem within?_insert [DecidableEq κ] [DecidableEq ι] (t : Table κ (Table ι α)) (j j' : κ)
    (k k' : ι) (a : α) :
    within? (t.insert j (((t.get? j).getD Table.empty).insert k a)) j' k' =
      if j' = j ∧ k' = k then some a else within? t j' k' := by
  simp only [within?, Table.get?_insert, Std.compare_eq_iff_eq]
  by_cases hj : j' = j
  · subst hj
    cases t.get? j' <;> simp [Table.get?_insert]
  · simp [hj]

end

/-- What the file shows for a slot. -/
inductive Rows where
  | type (rows : TypeRows)
  | packet (rows : PacketRows)

def rowsOf (slot : Slot) (groups : List ManifestGroup) : Except Fault Rows :=
  match slot with
  | .type _ => .ok (.type (typeRows groups))
  | .packet packet => do return .packet (← packetRows packet groups)

namespace Layout
variable {layout layout' : Layout}

def typeStates (layout : Layout) (d : Direction) : Table String (Table String TypeRows) :=
  match layout.types.get? d.name with
  | some (.scope states) => states
  | _ => Table.empty

def packetStates (layout : Layout) (d : Direction) : Table String (Table String PacketRows) :=
  (layout.packets.get? d.name).getD Table.empty

def find? (layout : Layout) : Slot → Option Rows
  | .type ⟨.common, name⟩ =>
      match layout.types.get? name with
      | some (.rows rows) => some (.type rows)
      | _ => none
  | .type ⟨.scoped d state, name⟩ => (within? (layout.typeStates d) state name).map .type
  | .packet p => (within? (layout.packetStates p.direction) p.state p.name).map .packet

theorem add_scoped (hopen : layout.Open) (d : Direction) (state name : String)
    (groups : List ManifestGroup) : layout.add (.type ⟨.scoped d state, name⟩, groups) =
      .ok (layout.addScoped d (layout.typeStates d) state name groups) := by
  cases hget : layout.types.get? d.name with
  | none => simp only [add, typeStates, hget]
  | some found =>
      cases found with
      | rows rows => exact absurd hget (hopen d rows)
      | scope states => simp only [add, typeStates, hget]

theorem typeStates_addScoped (layout : Layout) (d d' : Direction)
    (states : Table String (Table String TypeRows)) (state name : String)
    (groups : List ManifestGroup) :
    (layout.addScoped d states state name groups).typeStates d' =
      if d' = d then
        states.insert state (((states.get? state).getD Table.empty).insert name (typeRows groups))
      else layout.typeStates d' := by
  have hname : d'.name = d.name ↔ d' = d := ⟨Direction.name_injective, congrArg Direction.name⟩
  simp only [typeStates, addScoped, Table.get?_insert, Std.compare_eq_iff_eq, hname]
  by_cases hd : d' = d
  · rw [if_pos hd, if_pos hd]
  · rw [if_neg hd, if_neg hd]

theorem find?_addScoped_common (hopen : layout.Open) (d : Direction)
    (states : Table String (Table String TypeRows)) (state name other : String)
    (groups : List ManifestGroup) :
    (layout.addScoped d states state name groups).find? (.type ⟨.common, other⟩) =
      layout.find? (.type ⟨.common, other⟩) := by
  have hdirection : layout.find? (.type ⟨.common, d.name⟩) = none := by
    rw [find?]
    split
    · rename_i rows hrows
      exact absurd hrows (hopen d rows)
    · rfl
  by_cases hname : other = d.name
  · subst hname
    rw [hdirection, find?, addScoped, Table.get?_insert_self]
  · simp only [find?, addScoped, Table.get?_insert, Std.compare_eq_iff_eq, if_neg hname]

theorem packetStates_insert (layout : Layout) (d d' : Direction)
    (states : Table String (Table String PacketRows)) :
    packetStates { layout with packets := layout.packets.insert d.name states } d' =
      if d' = d then states else layout.packetStates d' := by
  have hname : d'.name = d.name ↔ d' = d := ⟨Direction.name_injective, congrArg Direction.name⟩
  simp only [packetStates, Table.get?_insert, Std.compare_eq_iff_eq, hname]
  by_cases hd : d' = d
  · rw [if_pos hd, if_pos hd, Option.getD_some]
  · rw [if_neg hd, if_neg hd]

/-- Adding a slot sets its rows and no others. -/
theorem find?_add {slot : Slot} {groups : List ManifestGroup} (hfit : Fit (slot, groups))
    (hopen : layout.Open) (h : layout.add (slot, groups) = .ok layout') :
    ∃ rows, rowsOf slot groups = .ok rows ∧
      ∀ other, layout'.find? other = if other = slot then some rows else layout.find? other := by
  match slot with
  | .type ⟨.common, name⟩ =>
      obtain rfl := Except.ok.inj h
      refine ⟨_, rfl, ?_⟩
      rintro (p | ⟨_ | ⟨d, state⟩, other⟩)
      · rfl
      · by_cases hname : other = name
        · simp [find?, hname]
        · simp [find?, Table.get?_insert_of_ne hname, hname]
      · have hne := (hfit.named name rfl d).symm
        simp [find?, typeStates, Table.get?_insert_of_ne hne]
  | .type ⟨.scoped d state, name⟩ =>
      rw [add_scoped hopen] at h
      obtain rfl := Except.ok.inj h
      refine ⟨_, rfl, ?_⟩
      rintro (p | ⟨_ | ⟨d', state'⟩, other⟩)
      · rfl
      · rw [find?_addScoped_common hopen, if_neg]
        simp
      · rw [find?, typeStates_addScoped, find?]
        by_cases hd : d' = d
        · subst hd
          rw [if_pos rfl, within?_insert]
          by_cases hplace : state' = state ∧ other = name
          · rw [if_pos hplace, hplace.1, hplace.2, if_pos rfl]
            rfl
          · rw [if_neg hplace, if_neg]
            simpa using hplace
        · rw [if_neg hd, if_neg]
          simp [hd]
  | .packet packet =>
      obtain ⟨rows, hrows, h⟩ := bind_eq_ok.mp h
      obtain rfl := Except.ok.inj h
      refine ⟨.packet rows, bind_eq_ok.mpr ⟨rows, hrows, rfl⟩, ?_⟩
      rintro (⟨d', state', other⟩ | other)
      · obtain ⟨d, state, name⟩ := packet
        rw [find?, packetStates_insert, find?]
        dsimp only
        by_cases hd : d' = d
        · subst hd
          have hplaced := within?_insert (layout.packetStates d') state state' name other rows
          rw [if_pos rfl]
          rw [packetStates] at hplaced ⊢
          rw [hplaced]
          by_cases hplace : state' = state ∧ other = name
          · rw [if_pos hplace, hplace.1, hplace.2, if_pos rfl]
            rfl
          · rw [if_neg hplace, if_neg]
            simpa using hplace
        · rw [if_neg hd, if_neg]
          simp [hd]
      · rw [if_neg (by simp)]
        cases other with
        | mk scope name => cases scope <;> rfl

end Layout

/-- A layout that shows the groups of some slots and nothing else. -/
structure Layout.Shows (layout : Layout) (entries : List (Slot × List ManifestGroup)) : Prop where
  free : layout.Open
  rows : ∀ slot rows, layout.find? slot = some rows ↔
    ∃ groups, (slot, groups) ∈ entries ∧ rowsOf slot groups = .ok rows

theorem Layout.Shows.add {layout layout' : Layout} {before : List (Slot × List ManifestGroup)}
    {entry : Slot × List ManifestGroup} (h : layout.Shows before) (hfit : Fit entry)
    (hfresh : entry.1 ∉ before.map (·.1)) (hadd : layout.add entry = .ok layout') :
    layout'.Shows (before ++ [entry]) := by
  obtain ⟨slot, groups⟩ := entry
  obtain ⟨rows, hrows, hfind⟩ := Layout.find?_add hfit h.free hadd
  obtain ⟨_, hadd', hopen⟩ := Layout.add_ok hfit h.free
  obtain rfl := Except.ok.inj (hadd.symm.trans hadd')
  refine ⟨hopen, fun other found => ?_⟩
  rw [hfind]
  by_cases hother : other = slot
  · subst hother
    rw [if_pos rfl]
    constructor
    · intro heq
      exact ⟨groups, List.mem_append_right _ List.mem_cons_self,
        hrows.trans (congrArg Except.ok (Option.some.inj heq))⟩
    · rintro ⟨groups', hmem, hrows'⟩
      rcases List.mem_append.mp hmem with hmem | hmem
      · exact absurd (List.mem_map_of_mem hmem) hfresh
      · obtain rfl := (Prod.mk.inj (List.mem_singleton.mp hmem)).2
        exact congrArg some (Except.ok.inj (hrows.symm.trans hrows'))
  · rw [if_neg hother, h.rows]
    refine exists_congr fun groups' => and_congr_left fun _ => ?_
    simp [hother]

theorem shows_of_layout {manifest : Manifest} {layout : Layout}
    (hfit : ∀ entry ∈ manifest.slots.entries, Fit entry) (h : manifest.layout = .ok layout) :
    layout.Shows manifest.slots.entries := by
  have hempty : Layout.Shows ⟨Table.empty, Table.empty⟩ [] := by
    refine ⟨fun _ _ hget => (by cases hget), ?_⟩
    rintro (p | ⟨_ | ⟨d, state⟩, name⟩) rows <;>
      simp [Layout.find?, Layout.typeStates, Layout.packetStates, within?]
  have hkeeps : ∀ before entry after layout layout',
      manifest.slots.entries = before ++ entry :: after → Layout.Shows layout before →
        layout.add entry = .ok layout' → layout'.Shows (before ++ [entry]) := by
    intro before entry after layout layout' hall hs hadd
    have hkeys := manifest.slots.keys_nodup
    rw [Table.keys, hall, List.map_append, List.map_cons, List.nodup_append] at hkeys
    refine hs.add (hfit entry (by simp [hall])) (fun hmem => ?_) hadd
    exact hkeys.2.2 _ hmem _ List.mem_cons_self rfl
  exact foldlM_keeps hkeeps (List.nil_append _).symm hempty h

/-- Groups as a manifest lists them for a slot. -/
structure Listed (slot : Slot) (groups : List ManifestGroup) : Prop where
  fit : Fit (slot, groups)
  ascending : groups.Pairwise fun g h => g.representative < h.representative
  filed : ∀ g ∈ groups, g.buckets.Filed
  unnumbered : ∀ t, slot = .type t → ∀ g ∈ groups, ∀ bucket ∈ g.buckets.entries, bucket.1 = none

/-- Groups are determined by what is shown for each representative, if that determines the
buckets. -/
theorem groups_eq_of_shown {β : Type} {content : ManifestGroup → β → Prop}
    {shown : Version → β → Prop} {groups groups' : List ManifestGroup}
    (hasc : groups.Pairwise fun g h => g.representative < h.representative)
    (hasc' : groups'.Pairwise fun g h => g.representative < h.representative)
    (htotal : ∀ g ∈ groups, ∃ c, content g c) (htotal' : ∀ g ∈ groups', ∃ c, content g c)
    (hshown : ∀ v c, shown v c ↔ ∃ g ∈ groups, g.representative = v ∧ content g c)
    (hshown' : ∀ v c, shown v c ↔ ∃ g ∈ groups', g.representative = v ∧ content g c)
    (hbuckets : ∀ g ∈ groups, ∀ g' ∈ groups', ∀ c, content g c → content g' c →
      g.buckets = g'.buckets) : groups = groups' := by
  have heq : ∀ g ∈ groups, ∀ g' ∈ groups', ∀ c, g'.representative = g.representative →
      content g c → content g' c → g = g' := by
    intro g hg g' hg' c hrep hc hc'
    have hsame := hbuckets g hg g' hg' c hc hc'
    cases g
    cases g'
    exact ManifestGroup.mk.injEq .. ▸ ⟨hrep.symm, hsame⟩
  refine Table.eq_of_ascending hasc hasc' fun g => ⟨fun hg => ?_, fun hg => ?_⟩
  · obtain ⟨c, hc⟩ := htotal g hg
    obtain ⟨g', hg', hrep, hc'⟩ := (hshown' _ c).mp ((hshown _ c).mpr ⟨g, hg, rfl, hc⟩)
    exact heq g hg g' hg' c hrep hc hc' ▸ hg'
  · obtain ⟨c, hc⟩ := htotal' g hg
    obtain ⟨g', hg', hrep, hc'⟩ := (hshown _ c).mp ((hshown' _ c).mpr ⟨g, hg, rfl, hc⟩)
    exact heq g' hg' g hg c hrep.symm hc' hc ▸ hg'

theorem mem_typeRows {groups : List ManifestGroup}
    (hasc : groups.Pairwise fun g h => g.representative < h.representative) {v : Version}
    {versions : List Version} : (v, versions) ∈ (typeRows groups).entries ↔
      ∃ g ∈ groups, g.representative = v ∧ g.versions = versions := by
  have hkeys : ((groups.map fun g => (g.representative, g.versions)).map (·.1)).Nodup := by
    rw [List.map_map]
    exact List.pairwise_map.mpr (hasc.imp Nat.ne_of_lt)
  rw [typeRows, Table.mem_ofList hkeys, List.mem_map]
  simp only [Prod.mk.injEq]

/-- Buckets without wire ids are determined by their versions. -/
theorem buckets_eq_of_versions {g g' : ManifestGroup} (hfiled : g.buckets.Filed)
    (hfiled' : g'.buckets.Filed) (hnone : ∀ bucket ∈ g.buckets.entries, bucket.1 = none)
    (hnone' : ∀ bucket ∈ g'.buckets.entries, bucket.1 = none) (h : g.versions = g'.versions) :
    g.buckets = g'.buckets := by
  have hplaced : ∀ {g : ManifestGroup}, (∀ bucket ∈ g.buckets.entries, bucket.1 = none) →
      ∀ w v, (w, v) ∈ g.buckets.placements ↔ w = none ∧ v ∈ g.versions := by
    intro g hnone w v
    rw [ManifestGroup.versions, mem_distinctVersions, Buckets.mem_versions]
    constructor
    · intro hp
      obtain ⟨versions, hb, -⟩ := Buckets.mem_placements.mp hp
      exact ⟨hnone _ hb, w, hp⟩
    · rintro ⟨rfl, w, hp⟩
      obtain ⟨versions, hb, -⟩ := Buckets.mem_placements.mp hp
      obtain rfl : w = none := hnone _ hb
      exact hp
  refine hfiled.ext hfiled' ?_
  rintro ⟨w, v⟩
  rw [hplaced hnone, hplaced hnone', h]

/-- The rows of a bucket list show the versions of each wire id. -/
theorem get?_wireRows {packet : PacketName} {buckets : List (Option WireId × List Version)}
    (hasc : buckets.Pairwise fun a b => compare a.1 b.1 = .lt) {rows : Table Nat (List Version)}
    (h : wireRows packet buckets = .ok rows) {id : WireId} {versions : List Version} :
    rows.get? id.value = some versions ↔ (some id, versions) ∈ buckets := by
  induction buckets generalizing rows with
  | nil =>
      obtain rfl := Except.ok.inj h
      simp
  | cons bucket rest ih =>
      obtain ⟨hfirst, hrest⟩ := List.pairwise_cons.mp hasc
      obtain ⟨_ | j, found⟩ := bucket
      · cases h
      · obtain ⟨others, hothers, h⟩ := bind_eq_ok.mp h
        obtain rfl := Except.ok.inj h
        rw [List.mem_cons]
        by_cases hid : id = j
        · subst hid
          have hfresh : (some id, versions) ∉ rest := by
            intro hmem
            have hlt : compare (some id) (some id) = .lt := hfirst _ hmem
            have hself : compare (some id) (some id) = .eq := Std.ReflCmp.compare_self
            rw [hself] at hlt
            cases hlt
          simp [hfresh, eq_comm]
        · have hne : id.value ≠ j.value := fun heq => hid (WireId.ext heq)
          simp [Table.get?_insert_of_ne hne, hid, ih hrest hothers]

/-- Rows that show the buckets of each representative and nothing else. -/
def ShowsBuckets (packet : PacketName) (groups : List ManifestGroup) (rows : PacketRows) : Prop :=
  ∀ v wires, rows.get? v = some wires ↔
    ∃ g ∈ groups, g.representative = v ∧ wireRows packet g.buckets.entries = .ok wires

theorem ShowsBuckets.insert {packet : PacketName} {before : List ManifestGroup} {rows : PacketRows}
    (h : ShowsBuckets packet before rows) {g : ManifestGroup}
    (hfresh : ∀ g' ∈ before, g'.representative ≠ g.representative)
    {wires : Table Nat (List Version)} (hwires : wireRows packet g.buckets.entries = .ok wires) :
    ShowsBuckets packet (before ++ [g]) (rows.insert g.representative wires) := by
  intro v found
  simp only [List.mem_append, List.mem_singleton, or_and_right, exists_or, exists_eq_left]
  by_cases hrep : v = g.representative
  · subst hrep
    rw [Table.get?_insert_self, hwires]
    constructor
    · intro heq
      exact .inr ⟨rfl, congrArg Except.ok (Option.some.inj heq)⟩
    · rintro (⟨g', hg', hsame, -⟩ | ⟨-, heq⟩)
      · exact absurd hsame (hfresh g' hg')
      · exact congrArg some (Except.ok.inj heq)
  · rw [Table.get?_insert_of_ne hrep, h]
    simp [Ne.symm hrep]

/-- The rows of a packet show the buckets of each representative. -/
theorem showsBuckets_of_packetRows {packet : PacketName} {groups : List ManifestGroup}
    (hasc : groups.Pairwise fun g h => g.representative < h.representative) {rows : PacketRows}
    (h : packetRows packet groups = .ok rows) : ShowsBuckets packet groups rows := by
  have hstep : ∀ before g after (rows rows' : PacketRows), groups = before ++ g :: after →
      ShowsBuckets packet before rows →
      (do return rows.insert g.representative (← wireRows packet g.buckets.entries)) =
        (.ok rows' : Except Fault PacketRows) → ShowsBuckets packet (before ++ [g]) rows' := by
    intro before g after rows rows' hall hshows hadd
    obtain ⟨wires, hwires, hadd⟩ := bind_eq_ok.mp hadd
    obtain rfl := Except.ok.inj hadd
    refine hshows.insert (fun g' hg' => ?_) hwires
    rw [hall] at hasc
    exact Nat.ne_of_lt ((List.pairwise_append.mp hasc).2.2 g' hg' g List.mem_cons_self)
  have hempty : ShowsBuckets packet [] Table.empty := fun v wires => by simp
  exact foldlM_keeps hstep (List.nil_append _).symm hempty h

theorem buckets_eq_of_wireRows {packet : PacketName} {g g' : ManifestGroup}
    (hsome : ∀ bucket ∈ g.buckets.entries, bucket.1 ≠ none)
    (hsome' : ∀ bucket ∈ g'.buckets.entries, bucket.1 ≠ none) {wires : Table Nat (List Version)}
    (h : wireRows packet g.buckets.entries = .ok wires)
    (h' : wireRows packet g'.buckets.entries = .ok wires) : g.buckets = g'.buckets := by
  refine Table.ext_mem ?_
  rintro ⟨_ | id, versions⟩
  · exact ⟨fun hb => absurd rfl (hsome _ hb), fun hb => absurd rfl (hsome' _ hb)⟩
  · rw [← get?_wireRows g.buckets.ascending h, ← get?_wireRows g'.buckets.ascending h']

/-- The groups of a slot are determined by its rows. -/
theorem Listed.eq_of_rowsOf {slot : Slot} {groups groups' : List ManifestGroup}
    (h : Listed slot groups) (h' : Listed slot groups') {rows : Rows}
    (hrows : rowsOf slot groups = .ok rows) (hrows' : rowsOf slot groups' = .ok rows) :
    groups = groups' := by
  cases slot with
  | type t =>
      have heq : typeRows groups = typeRows groups' :=
        Rows.type.inj (Except.ok.inj (hrows.trans hrows'.symm))
      refine groups_eq_of_shown h.ascending h'.ascending (fun g _ => ⟨g.versions, rfl⟩)
        (fun g _ => ⟨g.versions, rfl⟩) (fun v c => mem_typeRows h.ascending)
        (fun v c => by rw [heq, mem_typeRows h'.ascending]) ?_
      intro g hg g' hg' c hc hc'
      exact buckets_eq_of_versions (h.filed g hg) (h'.filed g' hg') (h.unnumbered t rfl g hg)
        (h'.unnumbered t rfl g' hg') (hc.trans hc'.symm)
  | packet p =>
      obtain ⟨found, hfound, hrows⟩ := bind_eq_ok.mp hrows
      obtain ⟨found', hfound', hrows'⟩ := bind_eq_ok.mp hrows'
      obtain rfl := Rows.packet.inj (Except.ok.inj (hrows.trans hrows'.symm))
      have htotal : ∀ {groups}, Listed (.packet p) groups → ∀ g ∈ groups,
          ∃ wires, wireRows p g.buckets.entries = .ok wires :=
        fun h g hg => wireRows_ok p (h.fit.identified p rfl g hg)
      refine groups_eq_of_shown h.ascending h'.ascending (htotal h) (htotal h')
        (showsBuckets_of_packetRows h.ascending hfound)
        (showsBuckets_of_packetRows h'.ascending hfound') ?_
      intro g hg g' hg' wires hc hc'
      exact buckets_eq_of_wireRows (h.fit.identified p rfl g hg) (h'.fit.identified p rfl g' hg')
        hc hc'

end VersionGroups.Manifest
