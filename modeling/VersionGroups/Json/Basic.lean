import VersionGroups.Decimal.Binary64
import VersionGroups.Table

/-!
# Document values

The value of a JSON text. An object lists its fields in ascending key order, each key once, so the
order in which a text gives them is forgotten. Two values are the same when they have the same kind
and content; whole numbers and floats are different kinds, and floats are compared as numbers, which
makes the two zeros the same. This comparison is an equivalence, and it is coarser than identity
only in the sign of zero.
-/

namespace VersionGroups

/-- A whole number, or a float. -/
inductive Number where
  | int (value : Int)
  | float (value : Binary64)
  deriving DecidableEq, Repr

/-- Whether two numbers are of one kind and equal. -/
def Number.same : Number → Number → Bool
  | .int a, .int b => a == b
  | .float a, .float b => a.sameValue b
  | _, _ => false

/-- A document value. -/
inductive Json where
  | null
  | bool (value : Bool)
  | num (value : Number)
  | str (value : String)
  | arr (items : List Json)
  | obj (fields : List (String × Json))
  deriving Inhabited

namespace Json

mutual

/-- Whether two values have the same kind and content. -/
def same : Json → Json → Bool
  | .null, .null => true
  | .bool a, .bool b => a == b
  | .num a, .num b => a.same b
  | .str a, .str b => a == b
  | .arr a, .arr b => sameItems a b
  | .obj a, .obj b => sameFields a b
  | _, _ => false

/-- Whether two lists of values agree item by item. -/
def sameItems : List Json → List Json → Bool
  | [], [] => true
  | a :: as, b :: bs => same a b && sameItems as bs
  | _, _ => false

/-- Whether two lists of fields agree field by field. -/
def sameFields : List (String × Json) → List (String × Json) → Bool
  | [], [] => true
  | (j, a) :: as, (k, b) :: bs => j == k && same a b && sameFields as bs
  | _, _ => false

end

instance : BEq Json := ⟨same⟩

theorem beq_def (a b : Json) : (a == b) = same a b := rfl

/-- The object with the given fields; of two fields with one key the later one stays. -/
def object (fields : List (String × Json)) : Json :=
  .obj (fields.foldl (fun fs f => Table.place f.1 f.2 fs) [])

def asObject? : Json → Option (List (String × Json))
  | .obj fields => some fields
  | _ => none

def asArray? : Json → Option (List Json)
  | .arr items => some items
  | _ => none

def asString? : Json → Option String
  | .str s => some s
  | _ => none

/-- A field by its key in a list of fields. -/
def lookup? (fields : List (String × Json)) (key : String) : Option Json :=
  (fields.find? (fun f => f.1 == key)).map (·.2)

/-- A field of an object; other values have none. -/
def field? (value : Json) (key : String) : Option Json :=
  value.asObject?.bind (lookup? · key)

/-- An item of an array; other values have none. -/
def item? (value : Json) (index : Nat) : Option Json :=
  value.asArray?.bind (·[index]?)

end Json

theorem Number.same_refl (a : Number) : a.same a = true := by
  cases a with
  | int => simp [Number.same]
  | float x => exact x.sameValue_refl

theorem Number.same_symm {a b : Number} (h : a.same b = true) : b.same a = true := by
  cases a <;> cases b <;> simp_all [Number.same, Binary64.sameValue_symm]

theorem Number.same_trans {a b c : Number} (h : a.same b = true) (k : b.same c = true) :
    a.same c = true := by
  cases a <;> cases b <;> cases c <;> simp_all [Number.same]
  exact Binary64.sameValue_trans h k

namespace Json

mutual

theorem same_refl : (a : Json) → same a a = true
  | .null => rfl
  | .bool _ => by simp [same]
  | .num n => by simpa [same] using n.same_refl
  | .str _ => by simp [same]
  | .arr items => by simpa [same] using sameItems_refl items
  | .obj fields => by simpa [same] using sameFields_refl fields

theorem sameItems_refl : (as : List Json) → sameItems as as = true
  | [] => rfl
  | a :: as => by simp [sameItems, same_refl a, sameItems_refl as]

theorem sameFields_refl : (as : List (String × Json)) → sameFields as as = true
  | [] => rfl
  | (_, a) :: as => by simp [sameFields, same_refl a, sameFields_refl as]

end

mutual

theorem same_symm : {a b : Json} → same a b = true → same b a = true
  | .null, b, h => by cases b <;> simp_all [same]
  | .bool _, b, h => by cases b <;> simp_all [same]
  | .num _, b, h => by
      cases b <;> simp_all [same]
      exact Number.same_symm h
  | .str _, b, h => by cases b <;> simp_all [same]
  | .arr _, b, h => by
      cases b <;> simp only [same] at h ⊢ <;> first | exact sameItems_symm h | contradiction
  | .obj _, b, h => by
      cases b <;> simp only [same] at h ⊢ <;> first | exact sameFields_symm h | contradiction

theorem sameItems_symm : {as bs : List Json} → sameItems as bs = true → sameItems bs as = true
  | [], bs, h => by cases bs <;> simp_all [sameItems]
  | a :: as, bs, h => by
      cases bs with
      | nil => simp [sameItems] at h
      | cons b bs =>
          simp only [sameItems, Bool.and_eq_true] at h ⊢
          exact ⟨same_symm h.1, sameItems_symm h.2⟩

theorem sameFields_symm : {as bs : List (String × Json)} → sameFields as bs = true →
    sameFields bs as = true
  | [], bs, h => by cases bs <;> simp_all [sameFields]
  | (j, a) :: as, bs, h => by
      cases bs with
      | nil => simp [sameFields] at h
      | cons b bs =>
          simp only [sameFields, Bool.and_eq_true, beq_iff_eq] at h ⊢
          exact ⟨⟨h.1.1.symm, same_symm h.1.2⟩, sameFields_symm h.2⟩

end

mutual

theorem same_trans : {a b c : Json} → same a b = true → same b c = true → same a c = true
  | .null, b, c, h, k => by cases b <;> cases c <;> simp_all [same]
  | .bool _, b, c, h, k => by cases b <;> cases c <;> simp_all [same]
  | .num _, b, c, h, k => by
      cases b <;> cases c <;> simp_all only [same, reduceCtorEq]
      exact Number.same_trans h k
  | .str _, b, c, h, k => by cases b <;> cases c <;> simp_all [same]
  | .arr _, b, c, h, k => by
      cases b <;> cases c <;> simp only [same, reduceCtorEq] at h k ⊢
      exact sameItems_trans h k
  | .obj _, b, c, h, k => by
      cases b <;> cases c <;> simp only [same, reduceCtorEq] at h k ⊢
      exact sameFields_trans h k

theorem sameItems_trans : {as bs cs : List Json} → sameItems as bs = true →
    sameItems bs cs = true → sameItems as cs = true
  | [], bs, cs, h, k => by cases bs <;> cases cs <;> simp_all [sameItems]
  | a :: as, bs, cs, h, k => by
      cases bs with
      | nil => simp [sameItems] at h
      | cons b bs =>
          cases cs with
          | nil => simp [sameItems] at k
          | cons c cs =>
              simp only [sameItems, Bool.and_eq_true] at h k ⊢
              exact ⟨same_trans h.1 k.1, sameItems_trans h.2 k.2⟩

theorem sameFields_trans : {as bs cs : List (String × Json)} → sameFields as bs = true →
    sameFields bs cs = true → sameFields as cs = true
  | [], bs, cs, h, k => by cases bs <;> cases cs <;> simp_all [sameFields]
  | (i, a) :: as, bs, cs, h, k => by
      cases bs with
      | nil => simp [sameFields] at h
      | cons b bs =>
          cases cs with
          | nil => simp [sameFields] at k
          | cons c cs =>
              simp only [sameFields, Bool.and_eq_true, beq_iff_eq] at h k ⊢
              exact ⟨⟨h.1.1.trans k.1.1, same_trans h.1.2 k.1.2⟩, sameFields_trans h.2 k.2⟩

end

end Json

end VersionGroups
