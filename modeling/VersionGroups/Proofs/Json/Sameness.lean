import VersionGroups.Grouping.Equivalence

/-!
# Reading values that are the same

Values that are the same may still differ in the sign of a zero. Every way of looking into a value
respects that: the same field of two such values is missing from both or gives values that are the
same, texts come out equal, and they mention the same names.
-/
namespace VersionGroups

theorem rel_bind {α β γ δ : Type} {r : α → β → Prop} {s : γ → δ → Prop} {x : Option α}
    {y : Option β} {f : α → Option γ} {g : β → Option δ} (h : Option.Rel r x y)
    (hfg : ∀ a b, r a b → Option.Rel s (f a) (g b)) : Option.Rel s (x.bind f) (y.bind g) := by
  cases h with
  | none => exact .none
  | some hab => exact hfg _ _ hab

theorem rel_or {α β : Type} {r : α → β → Prop} {x x' : Option α} {y y' : Option β}
    (h : Option.Rel r x y) (h' : Option.Rel r x' y') : Option.Rel r (x.or x') (y.or y') := by
  cases h with
  | none => exact h'
  | some hab => exact .some hab

theorem rel_eq {α : Type} {x y : Option α} (h : Option.Rel Eq x y) : x = y := by
  cases h with
  | none => rfl
  | some hab => rw [hab]

namespace Json

abbrev Same (a b : Json) : Prop := same a b = true

abbrev SameFields (as bs : List (String × Json)) : Prop := sameFields as bs = true

theorem asObject?_congr {a b : Json} (h : Same a b) :
    Option.Rel SameFields a.asObject? b.asObject? := by
  cases a <;> cases b <;> simp_all [Same, SameFields, same, asObject?]

theorem asArray?_congr {a b : Json} (h : Same a b) :
    Option.Rel (fun as bs => sameItems as bs = true) a.asArray? b.asArray? := by
  cases a <;> cases b <;> simp_all [Same, same, asArray?]

theorem asString?_congr {a b : Json} (h : Same a b) : a.asString? = b.asString? := by
  cases a <;> cases b <;> simp_all [Same, same, asString?]

theorem lookup?_congr (key : String) {as bs : List (String × Json)} (h : SameFields as bs) :
    Option.Rel Same (lookup? as key) (lookup? bs key) := by
  induction as generalizing bs with
  | nil =>
      cases bs with
      | nil => exact .none
      | cons g bs => cases h
  | cons f as ih =>
      cases bs with
      | nil => cases h
      | cons g bs =>
          obtain ⟨j, a⟩ := f
          obtain ⟨k, b⟩ := g
          simp only [SameFields, sameFields, Bool.and_eq_true, beq_iff_eq] at h
          obtain ⟨⟨rfl, hab⟩, hrest⟩ := h
          by_cases hk : j = key
          · simpa [lookup?, hk] using hab
          · simpa [lookup?, hk] using ih hrest

theorem field?_congr (key : String) {a b : Json} (h : Same a b) :
    Option.Rel Same (a.field? key) (b.field? key) :=
  rel_bind (asObject?_congr h) fun _ _ => lookup?_congr key

theorem getElem?_congr (index : Nat) {as bs : List Json} (h : sameItems as bs = true) :
    Option.Rel Same as[index]? bs[index]? := by
  induction as generalizing bs index with
  | nil =>
      cases bs with
      | nil => exact .none
      | cons b bs => cases h
  | cons a as ih =>
      cases bs with
      | nil => cases h
      | cons b bs =>
          rw [sameItems, Bool.and_eq_true] at h
          cases index with
          | zero => exact .some h.1
          | succ index => exact ih index h.2

theorem item?_congr (index : Nat) {a b : Json} (h : Same a b) :
    Option.Rel Same (a.item? index) (b.item? index) :=
  rel_bind (asArray?_congr h) fun _ _ => getElem?_congr index

mutual

theorem mentions_congr (names : List String) :
    {a b : Json} → same a b = true → a.mentions names = b.mentions names
  | .null, b, h => by cases b <;> simp_all [same, mentions]
  | .bool _, b, h => by cases b <;> simp_all [same, mentions]
  | .num _, b, h => by cases b <;> simp_all [same, mentions]
  | .str _, b, h => by cases b <;> simp_all [same, mentions]
  | .arr _, b, h => by
      cases b <;> simp only [same, mentions] at h ⊢ <;>
        first | exact mentionsInItems_congr names h | contradiction
  | .obj _, b, h => by
      cases b <;> simp only [same, mentions] at h ⊢ <;>
        first | exact mentionsInFields_congr names h | contradiction

theorem mentionsInItems_congr (names : List String) :
    {as bs : List Json} → sameItems as bs = true →
      mentionsInItems names as = mentionsInItems names bs
  | [], bs, h => by cases bs <;> simp_all [sameItems]
  | a :: as, bs, h => by
      cases bs with
      | nil => cases h
      | cons b bs =>
          rw [sameItems, Bool.and_eq_true] at h
          rw [mentionsInItems, mentionsInItems, mentions_congr names h.1,
            mentionsInItems_congr names h.2]

theorem mentionsInFields_congr (names : List String) :
    {as bs : List (String × Json)} → sameFields as bs = true →
      mentionsInFields names as = mentionsInFields names bs
  | [], bs, h => by cases bs <;> simp_all [sameFields]
  | (j, a) :: as, bs, h => by
      cases bs with
      | nil => cases h
      | cons g bs =>
          obtain ⟨k, b⟩ := g
          rw [sameFields, Bool.and_eq_true, Bool.and_eq_true, beq_iff_eq] at h
          obtain ⟨⟨rfl, hab⟩, hrest⟩ := h
          have htext := asString?_congr hab
          unfold mentionsInFields
          rw [mentions_congr names hab, mentionsInFields_congr names hrest]
          congr 3
          clear hab
          cases a <;> cases b <;> simp_all [asString?]

end

end Json

end VersionGroups
