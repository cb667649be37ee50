import Mathlib.Data.List.Induction
import Mathlib.Data.List.Sort
import VersionGroups.WireId
import VersionGroups.Table

/-!
# Tables filled from lists

An entry whose key lies beyond every key of a table goes to its end, so a table that is filled in
ascending order lists its entries as they came. A table that is made from a list holds nothing else,
and if the keys of the list are distinct it holds all of it. A table is determined by which entries
it holds.
-/
namespace VersionGroups.Table

variable {κ α : Type} [Ord κ]

theorem place_of_forall_lt [Std.TransOrd κ] {k : κ} {a : α} {l : List (κ × α)}
    (h : ∀ e ∈ l, compare e.1 k = .lt) : place k a l = l ++ [(k, a)] := by
  induction l with
  | nil => rfl
  | cons e rest ih =>
      obtain ⟨j, b⟩ := e
      have hgt : compare k j = .gt := Std.OrientedCmp.gt_iff_lt.mpr (h _ List.mem_cons_self)
      rw [place, hgt]
      exact congrArg ((j, b) :: ·) (ih fun e he => h e (List.mem_cons_of_mem _ he))

/-- A key below every key of some entries has no entry among them. -/
theorem search_eq_none {k : κ} {l : List (κ × α)}
    (h : ∀ e ∈ l, compare k e.1 = .lt) : search k l = none := by
  induction l with
  | nil => rfl
  | cons e rest ih =>
      obtain ⟨j, b⟩ := e
      have hlt : compare k j = .lt := h _ List.mem_cons_self
      rw [search, if_neg (by simp [hlt])]
      exact ih fun e he => h e (List.mem_cons_of_mem _ he)

theorem get?_insert_of_ne [Std.TransOrd κ] [Std.LawfulEqOrd κ] {t : Table κ α} {k j : κ}
    (h : j ≠ k) (a : α) : (t.insert k a).get? j = t.get? j := by
  rw [get?_insert, if_neg fun heq => h (Std.LawfulEqCmp.eq_of_compare heq)]

theorem perm_place [Std.LawfulEqOrd κ] {k : κ} {a : α} {l : List (κ × α)}
    (h : search k l = none) : (place k a l).Perm ((k, a) :: l) := by
  induction l with
  | nil => exact .refl _
  | cons e rest ih =>
      obtain ⟨j, b⟩ := e
      rw [search] at h
      split at h
      · cases h
      · rename_i hne
        rw [place]
        split
        · exact .refl _
        · exact absurd ‹_› hne
        · exact ((ih h).cons _).trans (.swap _ _ _)

theorem values_insert [Std.TransOrd κ] [Std.LawfulEqOrd κ] {t : Table κ α} {k : κ}
    (h : t.get? k = none) (a : α) : (t.insert k a).values.Perm (a :: t.values) :=
  (perm_place h).map Prod.snd

theorem get?_filter [Std.TransOrd κ] [Std.LawfulEqOrd κ] (t : Table κ α) (p : κ → Bool) (k : κ) :
    (t.filter fun j _ => p j).get? k = if p k = true then t.get? k else none := by
  apply Option.ext
  intro a
  by_cases hk : p k = true <;> simp [get?_eq_some_iff, hk]

theorem contains_iff [Std.TransOrd κ] [Std.LawfulEqOrd κ] {t : Table κ α} {k : κ} :
    t.contains k = true ↔ ∃ a, (k, a) ∈ t.entries := by
  rw [contains, Option.isSome_iff_exists]
  exact exists_congr fun _ => get?_eq_some_iff

theorem mem_keys [Std.TransOrd κ] [Std.LawfulEqOrd κ] {t : Table κ α} {k : κ} :
    k ∈ t.keys ↔ ∃ a, t.get? k = some a := by
  simp [keys, get?_eq_some_iff]

theorem keys_nodup [Std.TransOrd κ] (t : Table κ α) : t.keys.Nodup := by
  refine List.pairwise_map.mpr (t.ascending.imp ?_)
  intro a b hlt heq
  have hself : compare b.1 b.1 = .eq := Std.ReflCmp.compare_self
  rw [heq, hself] at hlt
  cases hlt

theorem eq_of_mem [Std.TransOrd κ] [Std.LawfulEqOrd κ] {t : Table κ α} {k : κ} {a b : α}
    (ha : (k, a) ∈ t.entries) (hb : (k, b) ∈ t.entries) : a = b :=
  Option.some.inj ((get?_eq_some_iff.mpr ha).symm.trans (get?_eq_some_iff.mpr hb))

/-- Lists that ascend by a key of their members are equal if they have the same members. -/
theorem eq_of_compare_lt [Std.TransOrd κ] {f : α → κ} {l l' : List α}
    (h : l.Pairwise fun a b => compare (f a) (f b) = .lt)
    (h' : l'.Pairwise fun a b => compare (f a) (f b) = .lt) (same : ∀ a, a ∈ l ↔ a ∈ l') :
    l = l' := by
  have : Std.Irrefl fun a b : α => compare (f a) (f b) = .lt :=
    ⟨fun a hlt => by simp [Std.ReflCmp.compare_self] at hlt⟩
  have : Std.Antisymm fun a b : α => compare (f a) (f b) = .lt :=
    ⟨fun a b hlt hgt => absurd hgt (Std.OrientedCmp.not_lt_of_lt hlt)⟩
  exact h.eq_of_mem_iff h' same

theorem ext_mem [Std.TransOrd κ] {t u : Table κ α} (h : ∀ e, e ∈ t.entries ↔ e ∈ u.entries) :
    t = u :=
  ext (eq_of_compare_lt t.ascending u.ascending h)

/-- Tables that have entries under the same keys list the same keys. -/
theorem keys_eq_of_isSome [Std.TransOrd κ] [Std.LawfulEqOrd κ] {β : Type} {t : Table κ α}
    {u : Table κ β} (h : ∀ k, (t.get? k).isSome = (u.get? k).isSome) : t.keys = u.keys := by
  refine eq_of_compare_lt (f := id) (List.pairwise_map.mpr t.ascending)
    (List.pairwise_map.mpr u.ascending) fun k => ?_
  rw [mem_keys, mem_keys, ← Option.isSome_iff_exists, ← Option.isSome_iff_exists, h]

theorem ofList_append [Std.TransOrd κ] [Std.LawfulEqOrd κ] (l : List (κ × α)) (e : κ × α) :
    ofList (l ++ [e]) = (ofList l).insert e.1 e.2 := by
  simp [ofList]

theorem mem_of_mem_ofList [Std.TransOrd κ] [Std.LawfulEqOrd κ] {l : List (κ × α)} {e : κ × α}
    (h : e ∈ (ofList l).entries) : e ∈ l := by
  induction l using List.reverseRecOn with
  | nil => cases h
  | append_singleton rest last ih =>
      rw [ofList_append] at h
      rcases mem_place h with rfl | h
      · exact List.mem_append_right _ List.mem_cons_self
      · exact List.mem_append_left _ (ih h)

theorem get?_ofList [Std.TransOrd κ] [Std.LawfulEqOrd κ] {l : List (κ × α)}
    (distinct : (l.map (·.1)).Nodup) {k : κ} {a : α} (h : (k, a) ∈ l) :
    (ofList l).get? k = some a := by
  induction l using List.reverseRecOn with
  | nil => cases h
  | append_singleton rest last ih =>
      rw [List.map_append, List.nodup_append] at distinct
      obtain ⟨hrest, -, happart⟩ := distinct
      rw [ofList_append]
      rcases List.mem_append.mp h with h | h
      · have hne : k ≠ last.1 := happart k (List.mem_map_of_mem h) last.1 List.mem_cons_self
        rw [get?_insert_of_ne hne]
        exact ih hrest h
      · obtain rfl := List.mem_singleton.mp h
        exact get?_insert_self _ _ _

theorem mem_ofList [Std.TransOrd κ] [Std.LawfulEqOrd κ] {l : List (κ × α)}
    (distinct : (l.map (·.1)).Nodup) {e : κ × α} : e ∈ (ofList l).entries ↔ e ∈ l :=
  ⟨mem_of_mem_ofList, fun h => get?_eq_some_iff.mp (get?_ofList distinct h)⟩

theorem entries_ofList [Std.TransOrd κ] [Std.LawfulEqOrd κ] {l : List (κ × α)}
    (ascending : l.Pairwise fun a b => compare a.1 b.1 = .lt) : (ofList l).entries = l := by
  induction l using List.reverseRecOn with
  | nil => rfl
  | append_singleton rest last ih =>
      obtain ⟨hrest, -, hlast⟩ := List.pairwise_append.mp ascending
      have hlt : ∀ e ∈ rest, compare e.1 last.1 = .lt :=
        fun e he => hlast e he last List.mem_cons_self
      rw [ofList_append, entries_insert, ih hrest, place_of_forall_lt hlt]

/-- Lists that ascend by a number of their members are equal if they have the same members. -/
theorem eq_of_ascending {f : α → Nat} {l l' : List α} (h : l.Pairwise fun a b => f a < f b)
    (h' : l'.Pairwise fun a b => f a < f b) (same : ∀ a, a ∈ l ↔ a ∈ l') : l = l' :=
  eq_of_compare_lt (h.imp Nat.compare_eq_lt.mpr) (h'.imp Nat.compare_eq_lt.mpr) same

/-- A table in which one key occurs and no other has one entry. -/
theorem entries_eq_singleton [Std.ReflOrd κ] {t : Table κ α} {k : κ} (hne : t.entries ≠ [])
    (hk : ∀ e ∈ t.entries, e.1 = k) : ∃ a, t.entries = [(k, a)] := by
  have hasc := t.ascending
  match h : t.entries with
  | [] => exact absurd h hne
  | [(j, a)] =>
      rw [h] at hk
      obtain rfl : j = k := hk _ List.mem_cons_self
      exact ⟨a, rfl⟩
  | e :: f :: rest =>
      rw [h] at hasc hk
      have hlt := (List.pairwise_cons.mp hasc).1 f List.mem_cons_self
      rw [hk e (by simp), hk f (by simp), Std.ReflOrd.compare_self] at hlt
      cases hlt

theorem versions_ascending (t : Table Version α) : t.entries.Pairwise (fun a b => a.1 < b.1) :=
  t.ascending.imp fun h => Nat.compare_eq_lt.mp h

end VersionGroups.Table
