import VersionGroups.Proofs.Entrywise
import VersionGroups.Proofs.Json.Sameness

/-!
# Spellings of a value

A value can be written with the fields of its objects in any order and with either zero. Reading it
puts the fields in key order, and what is read from two spellings of a value is the same.
-/
namespace VersionGroups.Json

mutual

/-- The value with the fields of every object in key order; of two fields with one key the later one
stays. -/
def ordered : Json → Json
  | .arr items => .arr (orderedItems items)
  | .obj fields => object (orderedFields fields)
  | value => value

def orderedItems : List Json → List Json
  | [] => []
  | a :: rest => ordered a :: orderedItems rest

def orderedFields : List (String × Json) → List (String × Json)
  | [] => []
  | (key, a) :: rest => (key, ordered a) :: orderedFields rest

end

/-- Two spellings of one value: numbers are compared as numbers, and the fields of an object may
come in any order. -/
inductive Agrees : Json → Json → Prop
  | null : Agrees .null .null
  | bool (b : Bool) : Agrees (.bool b) (.bool b)
  | num {m n : Number} (same : m.same n = true) : Agrees (.num m) (.num n)
  | str (s : String) : Agrees (.str s) (.str s)
  | arr {as bs : List Json} (length : as.length = bs.length)
      (items : ∀ i (h : i < as.length) (h' : i < bs.length), Agrees as[i] bs[i]) :
      Agrees (.arr as) (.arr bs)
  | obj {fs gs : List (String × Json)} (distinct : (fs.map (·.1)).Nodup)
      (keys : (fs.map (·.1)).Perm (gs.map (·.1)))
      (fields : ∀ key a b, (key, a) ∈ fs → (key, b) ∈ gs → Agrees a b) :
      Agrees (.obj fs) (.obj gs)

theorem orderedItems_eq (items : List Json) : orderedItems items = items.map ordered := by
  induction items with
  | nil => rfl
  | cons a rest ih => rw [orderedItems, ih, List.map_cons]

theorem orderedFields_eq (fields : List (String × Json)) :
    orderedFields fields = fields.map fun f => (f.1, ordered f.2) := by
  induction fields with
  | nil => rfl
  | cons f rest ih => rw [orderedFields, ih, List.map_cons]

theorem foldl_place (fields : List (String × Json)) (t : Table String Json) :
    fields.foldl (fun fs f => Table.place f.1 f.2 fs) t.entries =
      (fields.foldl (fun t f => t.insert f.1 f.2) t).entries := by
  induction fields generalizing t with
  | nil => rfl
  | cons f rest ih => exact ih (t.insert f.1 f.2)

theorem object_eq (fields : List (String × Json)) :
    object fields = .obj (Table.ofList fields).entries :=
  congrArg obj (foldl_place fields Table.empty)

theorem sameItems_of_forall₂ {as bs : List Json} (h : List.Forall₂ Same as bs) :
    sameItems as bs = true := by
  induction h with
  | nil => rfl
  | cons hab _ ih =>
      rw [sameItems, Bool.and_eq_true]
      exact ⟨hab, ih⟩

theorem sameFields_of_entrywise {fs gs : List (String × Json)} (h : Entrywise Same fs gs) :
    SameFields fs gs := by
  induction h with
  | nil => rfl
  | @cons f g _ _ hfg _ ih =>
      obtain ⟨j, a⟩ := f
      obtain ⟨k, b⟩ := g
      rw [SameFields, sameFields, Bool.and_eq_true, Bool.and_eq_true, beq_iff_eq]
      exact ⟨hfg, ih⟩

/-- What is read from two spellings of a value is the same. -/
theorem Agrees.ordered_same {a b : Json} (h : Agrees a b) : Same a.ordered b.ordered := by
  induction h with
  | null => rfl
  | bool b => exact same_refl _
  | num same => exact same
  | str s => exact same_refl _
  | @arr as bs length items ih =>
      refine sameItems_of_forall₂ ?_
      rw [orderedItems_eq, orderedItems_eq, List.forall₂_map_left_iff, List.forall₂_map_right_iff]
      exact List.forall₂_iff_get.mpr ⟨length, ih⟩
  | @obj fs gs distinct keys fields ih =>
      have hkeys : ∀ fields : List (String × Json),
          (orderedFields fields).map (·.1) = fields.map (·.1) := by
        intro fields
        rw [orderedFields_eq, List.map_map]
        rfl
      rw [ordered, ordered, object_eq, object_eq]
      refine sameFields_of_entrywise (entrywise_ofList ?_ ?_ ?_)
      · rwa [hkeys]
      · rwa [hkeys, hkeys]
      · intro key a b ha hb
        rw [orderedFields_eq, List.mem_map] at ha hb
        obtain ⟨⟨_, a⟩, ha, heq⟩ := ha
        obtain ⟨rfl, rfl⟩ := Prod.mk.inj heq
        obtain ⟨⟨_, b⟩, hb, heq⟩ := hb
        obtain ⟨rfl, rfl⟩ := Prod.mk.inj heq
        exact ih _ a b ha hb

end VersionGroups.Json
