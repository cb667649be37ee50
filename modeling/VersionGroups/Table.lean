/-!
# Tables ordered by key

A table lists its entries in strictly ascending key order, each key once. The order is part of the
type, so two tables with the same entries are the same table, and reading a table in order needs no
sorting. Writing under a key that is present replaces the entry.
-/

namespace VersionGroups

/-- Entries in strictly ascending key order. -/
structure Table (κ : Type) (α : Type) [Ord κ] where
  entries : List (κ × α)
  ascending : entries.Pairwise (fun a b => compare a.1 b.1 = .lt)

namespace Table

variable {κ α : Type} [Ord κ]

/-- Puts an entry in its place among ascending entries, over an entry with the same key. -/
def place (k : κ) (a : α) : List (κ × α) → List (κ × α)
  | [] => [(k, a)]
  | (j, b) :: rest =>
      match compare k j with
      | .lt => (k, a) :: (j, b) :: rest
      | .eq => (k, a) :: rest
      | .gt => (j, b) :: place k a rest

/-- The entry of the first key that equals `k`. -/
def search (k : κ) : List (κ × α) → Option α
  | [] => none
  | (j, b) :: rest => if compare k j = .eq then some b else search k rest

/-- Distinct members in order ascend. -/
theorem ascending_mergeSort {β : Type} [Ord β] [Std.TransOrd β] [Std.LawfulEqOrd β] {l : List β}
    (h : l.Nodup) :
    (l.mergeSort fun a b => (compare a b).isLE).Pairwise fun a b => compare a b = .lt := by
  have weak : (l.mergeSort fun a b => (compare a b).isLE).Pairwise fun a b =>
      (compare a b).isLE = true := by
    refine List.pairwise_mergeSort (fun a b c => Std.TransCmp.isLE_trans) (fun a b => ?_) l
    rw [Bool.or_eq_true]
    cases order : compare a b with
    | lt => exact .inl rfl
    | eq => exact .inl rfl
    | gt =>
        rw [Std.OrientedCmp.gt_iff_lt.mp order]
        exact .inr rfl
  have nodup : (l.mergeSort fun a b => (compare a b).isLE).Nodup :=
    (List.mergeSort_perm ..).nodup_iff.mpr h
  refine weak.imp₂ (fun a b hle hne => ?_) nodup
  cases order : compare a b with
  | lt => rfl
  | eq => exact absurd (Std.LawfulEqCmp.eq_of_compare order) hne
  | gt =>
      rw [order] at hle
      cases hle

theorem mem_place {k : κ} {a : α} {l : List (κ × α)} {e : κ × α} (h : e ∈ place k a l) :
    e = (k, a) ∨ e ∈ l := by
  induction l with
  | nil => simpa [place] using h
  | cons head rest ih =>
      obtain ⟨j, b⟩ := head
      simp only [place] at h
      split at h
      · simpa using h
      · rcases List.mem_cons.mp h with rfl | h
        · exact Or.inl rfl
        · exact Or.inr (List.mem_cons_of_mem _ h)
      · rcases List.mem_cons.mp h with rfl | h
        · exact Or.inr (List.mem_cons_self ..)
        · rcases ih h with h | h
          · exact Or.inl h
          · exact Or.inr (List.mem_cons_of_mem _ h)

theorem pairwise_place [Std.TransOrd κ] [Std.LawfulEqOrd κ] (k : κ) (a : α) {l : List (κ × α)}
    (h : l.Pairwise (fun a b => compare a.1 b.1 = .lt)) :
    (place k a l).Pairwise (fun a b => compare a.1 b.1 = .lt) := by
  induction l with
  | nil => simp [place]
  | cons head rest ih =>
      obtain ⟨j, b⟩ := head
      obtain ⟨first, tail⟩ := List.pairwise_cons.mp h
      simp only [place]
      split
      · rename_i lt
        refine List.pairwise_cons.mpr ⟨?_, h⟩
        intro e he
        rcases List.mem_cons.mp he with rfl | he
        · exact lt
        · exact Std.TransCmp.lt_trans lt (first e he)
      · rename_i eq
        have same := Std.LawfulEqCmp.eq_of_compare eq
        subst same
        exact List.pairwise_cons.mpr ⟨first, tail⟩
      · rename_i gt
        refine List.pairwise_cons.mpr ⟨?_, ih tail⟩
        intro e he
        rcases mem_place he with rfl | he
        · exact Std.OrientedCmp.gt_iff_lt.mp gt
        · exact first e he

/-- The table without entries. -/
def empty : Table κ α := ⟨[], List.Pairwise.nil⟩

instance : Inhabited (Table κ α) := ⟨empty⟩

/-- The entry under a key. -/
def get? (t : Table κ α) (k : κ) : Option α := search k t.entries

/-- Whether a key has an entry. -/
def contains (t : Table κ α) (k : κ) : Bool := (t.get? k).isSome

/-- The keys in ascending order. -/
def keys (t : Table κ α) : List κ := t.entries.map (·.1)

/-- The values in ascending order of their keys. -/
def values (t : Table κ α) : List α := t.entries.map (·.2)

/-- The number of entries. -/
def size (t : Table κ α) : Nat := t.entries.length

def isEmpty (t : Table κ α) : Bool := t.entries.isEmpty

/-- Writes an entry, over the entry that the key had. -/
def insert [Std.TransOrd κ] [Std.LawfulEqOrd κ] (t : Table κ α) (k : κ) (a : α) : Table κ α :=
  ⟨place k a t.entries, pairwise_place k a t.ascending⟩

/-- The table of a list of entries; of two entries with one key the later one stays. -/
def ofList [Std.TransOrd κ] [Std.LawfulEqOrd κ] (l : List (κ × α)) : Table κ α :=
  l.foldl (fun t e => t.insert e.1 e.2) empty

/-- The entries that a test accepts. -/
def filter (t : Table κ α) (p : κ → α → Bool) : Table κ α :=
  ⟨t.entries.filter (fun e => p e.1 e.2), t.ascending.filter _⟩

/-- The same keys with values computed from each entry. -/
def mapValues {β : Type} (t : Table κ α) (f : κ → α → β) : Table κ β :=
  ⟨t.entries.map (fun e => (e.1, f e.1 e.2)), List.pairwise_map.mpr t.ascending⟩

theorem ext {t u : Table κ α} (h : t.entries = u.entries) : t = u := by
  cases t; cases u; cases h; rfl

@[simp] theorem entries_empty : (empty : Table κ α).entries = [] := rfl

@[simp] theorem get?_empty (k : κ) : (empty : Table κ α).get? k = none := rfl

@[simp] theorem entries_insert [Std.TransOrd κ] [Std.LawfulEqOrd κ] (t : Table κ α) (k : κ)
    (a : α) : (t.insert k a).entries = place k a t.entries := rfl

@[simp] theorem entries_filter (t : Table κ α) (p : κ → α → Bool) :
    (t.filter p).entries = t.entries.filter (fun e => p e.1 e.2) := rfl

@[simp] theorem keys_mapValues {β : Type} (t : Table κ α) (f : κ → α → β) :
    (t.mapValues f).keys = t.keys := by
  simp [keys, mapValues, List.map_map]

theorem search_place [Std.TransOrd κ] [Std.LawfulEqOrd κ] (k j : κ) (a : α) (l : List (κ × α)) :
    search j (place k a l) = if compare j k = .eq then some a else search j l := by
  induction l with
  | nil => rfl
  | cons head rest ih =>
      obtain ⟨i, b⟩ := head
      simp only [place]
      split
      · rfl
      · rename_i eq
        have same := Std.LawfulEqCmp.eq_of_compare eq
        subst same
        simp only [search]
        split <;> rfl
      · rename_i gt
        simp only [search, ih]
        split
        · rename_i eq
          have same := Std.LawfulEqCmp.eq_of_compare eq
          subst same
          have ne : compare j k ≠ .eq := by
            intro h
            rw [Std.OrientedCmp.eq_comm.mp h] at gt
            cases gt
          rw [if_neg ne]
        · rfl

/-- After a write the key has the new entry and every other key what it had. -/
theorem get?_insert [Std.TransOrd κ] [Std.LawfulEqOrd κ] (t : Table κ α) (k j : κ) (a : α) :
    (t.insert k a).get? j = if compare j k = .eq then some a else t.get? j :=
  search_place k j a t.entries

@[simp] theorem get?_insert_self [Std.TransOrd κ] [Std.LawfulEqOrd κ] (t : Table κ α) (k : κ)
    (a : α) : (t.insert k a).get? k = some a := by
  rw [get?_insert, if_pos (Std.ReflCmp.compare_self)]

theorem search_eq_some_iff [Std.TransOrd κ] [Std.LawfulEqOrd κ] {k : κ} {a : α}
    {l : List (κ × α)} (h : l.Pairwise (fun a b => compare a.1 b.1 = .lt)) :
    search k l = some a ↔ (k, a) ∈ l := by
  induction l with
  | nil => simp [search]
  | cons head rest ih =>
      obtain ⟨j, b⟩ := head
      obtain ⟨first, tail⟩ := List.pairwise_cons.mp h
      simp only [search]
      split
      · rename_i eq
        have same := Std.LawfulEqCmp.eq_of_compare eq
        subst same
        constructor
        · intro h
          cases h
          exact List.mem_cons_self ..
        · intro h
          rcases List.mem_cons.mp h with h | h
          · cases h; rfl
          · have lt : compare k k = .lt := first _ h
            have self : compare k k = .eq := Std.ReflCmp.compare_self
            rw [self] at lt
            cases lt
      · rename_i ne
        rw [ih tail]
        constructor
        · exact List.mem_cons_of_mem _
        · intro h
          rcases List.mem_cons.mp h with h | h
          · cases h
            exact absurd Std.ReflCmp.compare_self ne
          · exact h

/-- Looking a key up finds exactly the listed entry. -/
theorem get?_eq_some_iff [Std.TransOrd κ] [Std.LawfulEqOrd κ] {t : Table κ α} {k : κ} {a : α} :
    t.get? k = some a ↔ (k, a) ∈ t.entries :=
  search_eq_some_iff t.ascending

end Table

end VersionGroups
