import Mathlib.Data.List.Forall2
import VersionGroups.Proofs.Results
import VersionGroups.Proofs.Table

/-!
# Lists of entries compared entry by entry

Two lists of entries agree entry by entry if they have the same keys in the same order and the
values under each key are related. Looking a key up, writing an entry and selecting by key respect
that. A table does not depend on the order of the list that it was made from, so two lists with the
same keys in any order give tables that agree.
-/
namespace VersionGroups

/-- The same keys in the same order, and related values under each of them. -/
abbrev Entrywise {κ α β : Type} (r : α → β → Prop) : List (κ × α) → List (κ × β) → Prop :=
  List.Forall₂ fun e f => e.1 = f.1 ∧ r e.2 f.2

section
variable {κ α β : Type} {r : α → β → Prop} {l : List (κ × α)} {l' : List (κ × β)}

theorem Entrywise.keys (h : Entrywise r l l') : l.map (·.1) = l'.map (·.1) := by
  induction h with
  | nil => rfl
  | cons hef _ ih => rw [List.map_cons, List.map_cons, hef.1, ih]

theorem Entrywise.filter (h : Entrywise r l l') (p : κ → Bool) :
    Entrywise r (l.filter fun e => p e.1) (l'.filter fun e => p e.1) := by
  induction h with
  | nil => exact .nil
  | @cons e f _ _ hef _ ih =>
      rw [List.filter_cons, List.filter_cons, ← hef.1]
      split
      · exact .cons hef ih
      · exact ih

theorem Entrywise.rel_of_mem (h : Entrywise r l l') (distinct : (l.map (·.1)).Nodup) {k : κ} {a : α}
    {b : β} (ha : (k, a) ∈ l) (hb : (k, b) ∈ l') : r a b := by
  obtain ⟨f, hf, hkey, hab⟩ := exists_of_forall₂ h ha
  rw [h.keys] at distinct
  obtain rfl : f = (k, b) := List.inj_on_of_nodup_map distinct hf hb hkey.symm
  exact hab

theorem entrywise_of_keys (keys : l.map (·.1) = l'.map (·.1))
    (values : ∀ k a b, (k, a) ∈ l → (k, b) ∈ l' → r a b) : Entrywise r l l' := by
  induction l generalizing l' with
  | nil =>
      obtain rfl := List.map_eq_nil_iff.mp keys.symm
      exact .nil
  | cons e rest ih =>
      cases l' with
      | nil => cases keys
      | cons f rest' =>
          obtain ⟨hkey, hrest⟩ := List.cons.inj keys
          obtain ⟨j, a⟩ := e
          obtain ⟨k, b⟩ := f
          obtain rfl : j = k := hkey
          refine .cons ⟨rfl, values j a b List.mem_cons_self List.mem_cons_self⟩ (ih hrest ?_)
          exact fun k a b ha hb =>
            values k a b (List.mem_cons_of_mem _ ha) (List.mem_cons_of_mem _ hb)

variable [Ord κ]

theorem Entrywise.search (h : Entrywise r l l') (k : κ) :
    Option.Rel r (Table.search k l) (Table.search k l') := by
  induction h with
  | nil => exact .none
  | @cons e f _ _ hef _ ih =>
      obtain ⟨j, a⟩ := e
      obtain ⟨i, b⟩ := f
      obtain rfl : j = i := hef.1
      rw [Table.search, Table.search]
      split
      · exact .some hef.2
      · exact ih

theorem Entrywise.place (h : Entrywise r l l') (k : κ) {a : α} {b : β} (hab : r a b) :
    Entrywise r (Table.place k a l) (Table.place k b l') := by
  induction h with
  | nil => exact .cons ⟨rfl, hab⟩ .nil
  | @cons e f _ _ hef hrest ih =>
      obtain ⟨j, c⟩ := e
      obtain ⟨i, d⟩ := f
      obtain rfl : j = i := hef.1
      cases hcmp : compare k j with
      | lt => simpa only [Table.place, hcmp] using .cons ⟨rfl, hab⟩ (.cons hef hrest)
      | eq => simpa only [Table.place, hcmp] using .cons ⟨rfl, hab⟩ hrest
      | gt => simpa only [Table.place, hcmp] using .cons hef ih

variable [Std.TransOrd κ] [Std.LawfulEqOrd κ]

/-- Tables of lists with the same distinct keys, in any order. -/
theorem entrywise_ofList (distinct : (l.map (·.1)).Nodup)
    (keys : (l.map (·.1)).Perm (l'.map (·.1)))
    (values : ∀ k a b, (k, a) ∈ l → (k, b) ∈ l' → r a b) :
    Entrywise r (Table.ofList l).entries (Table.ofList l').entries := by
  have hkeys : ∀ {γ : Type} {l : List (κ × γ)}, (l.map (·.1)).Nodup →
      ∀ k, k ∈ (Table.ofList l).keys ↔ k ∈ l.map (·.1) := by
    intro γ l distinct k
    simp only [Table.keys, List.mem_map, Table.mem_ofList distinct]
  have hascending : ∀ {γ : Type} (t : Table κ γ),
      t.keys.Pairwise fun j k => compare j k = .lt :=
    fun t => List.pairwise_map.mpr t.ascending
  have hsame : (Table.ofList l).keys = (Table.ofList l').keys := by
    refine Table.eq_of_compare_lt (f := id) (hascending _) (hascending _) fun k => ?_
    rw [hkeys distinct, hkeys (keys.nodup_iff.mp distinct), keys.mem_iff]
  exact entrywise_of_keys hsame fun k a b ha hb =>
    values k a b (Table.mem_of_mem_ofList ha) (Table.mem_of_mem_ofList hb)

end

end VersionGroups
