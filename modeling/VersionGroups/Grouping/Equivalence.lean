import VersionGroups.Corpus.View

/-!
# Equivalence of definitions

Two definitions of one slot under two versions are equivalent when they are the same and every
tracked type that they reach is the same under both versions. The search keeps the types it is
inside of, so that a cycle of references is found, and the types that it has compared already.

The search ends because each step inside puts one more tracked path on the list of open comparisons,
which never lists a path twice.
-/

namespace VersionGroups

mutual

/-- Whether a value names one of some types in a `type` field, at any depth. -/
def Json.mentions (names : List String) : Json → Bool
  | .arr items => mentionsInItems names items
  | .obj fields => mentionsInFields names fields
  | _ => false

/-- Whether one of some values mentions a name. -/
def Json.mentionsInItems (names : List String) : List Json → Bool
  | [] => false
  | a :: rest => a.mentions names || mentionsInItems names rest

/-- Whether one of some fields is a `type` field with a name, or holds a value that mentions one. -/
def Json.mentionsInFields (names : List String) : List (String × Json) → Bool
  | [] => false
  | (key, a) :: rest =>
      (key == "type" && (match a with | .str s => names.contains s | _ => false)) ||
        a.mentions names || mentionsInFields names rest

end

/-- Whether a definition refers to a type under one of its spellings. -/
def TypeName.isMentionedIn (type : TypeName) (spec : Json) : Bool :=
  spec.mentions type.referenceNames

/-- The comparison of one type under two versions. -/
structure Comparison where
  path : String
  left : Version
  right : Version
  deriving DecidableEq, Repr

/-- The text of a comparison in a report on a cycle. -/
def Comparison.label (c : Comparison) : String := s!"{c.path}@{c.left}/{c.right}"

/-- Comparisons that are finished, with their results. -/
abbrev Settled := List (Comparison × Bool)

/-- The result of a finished comparison. -/
def Settled.result? (settled : Settled) (c : Comparison) : Option Bool :=
  (settled.find? (fun e => e.1 == c)).map (·.2)

/-- A way to decide whether two definitions of a slot under two versions are equivalent. -/
abbrev Relation := Version → Json → Version → Json → Except Fault Bool

namespace Equivalence

/-- The view of a version of the corpus. -/
def view (corpus : Corpus) (version : Version) : Except Fault View :=
  match corpus.get? version with
  | some document => .ok ⟨version, document⟩
  | none => .error (.internal s!"version {version} is not part of the corpus")

/-- The open comparisons from the given one on, if it is open. -/
def cycleFrom? (c : Comparison) : List Comparison → Option (List Comparison)
  | [] => none
  | d :: rest => if d = c then some (d :: rest) else cycleFrom? c rest

/-- The number of tracked types that are not being compared under two versions. -/
def unopened (types : List TypeName) (left right : Version) (visiting : List Comparison) : Nat :=
  (types.filter (fun t => !visiting.contains ⟨t.path, left, right⟩)).length

theorem not_mem_of_cycleFrom? {c : Comparison} {visiting : List Comparison}
    (h : cycleFrom? c visiting = none) : c ∉ visiting := by
  induction visiting with
  | nil => simp
  | cons d rest ih =>
      simp only [cycleFrom?] at h
      split at h
      · cases h
      · rename_i ne
        intro hc
        rcases List.mem_cons.mp hc with rfl | hc
        · exact ne rfl
        · exact ih h hc

theorem filter_length_lt {α : Type} {p q : α → Bool} {l : List α} {a : α}
    (imp : ∀ b ∈ l, p b = true → q b = true) (mem : a ∈ l) (hq : q a = true) (hp : p a = false) :
    (l.filter p).length < (l.filter q).length := by
  induction l with
  | nil => cases mem
  | cons b rest ih =>
      have le : (rest.filter p).length ≤ (rest.filter q).length := by
        clear ih mem
        induction rest with
        | nil => simp
        | cons c rest ih =>
            have hc := imp c (by simp)
            have hr := ih (fun d hd => imp d (by
              rcases List.mem_cons.mp hd with rfl | hd
              · simp
              · simp [hd]))
            by_cases h : p c = true
            · simp [h, hc h, hr]
            · by_cases k : q c = true
              · simp [h, k]; omega
              · simp [h, k, hr]
      rcases List.mem_cons.mp mem with rfl | mem
      · simp [hq, hp]; omega
      · have lt := ih (fun d hd => imp d (List.mem_cons_of_mem _ hd)) mem
        by_cases h : p b = true
        · simp [h, imp b (List.mem_cons_self ..) h, lt]
        · by_cases k : q b = true
          · simp [h, k]; omega
          · simp [h, k, lt]

theorem unopened_append_lt {types : List TypeName} {left right : Version}
    {visiting : List Comparison} {type : TypeName} (mem : type ∈ types)
    (h : cycleFrom? ⟨type.path, left, right⟩ visiting = none) :
    unopened types left right (visiting ++ [⟨type.path, left, right⟩]) <
      unopened types left right visiting := by
  have fresh := not_mem_of_cycleFrom? h
  refine filter_length_lt ?_ mem ?_ ?_
  · intro t _ ht
    simp at ht ⊢
    exact ht.1
  · simpa using fresh
  · simp

mutual

/-- Compares two definitions inside the comparisons that are open. -/
def compareWithin (corpus : Corpus) (types : List TypeName) (left right : Version)
    (visiting : List Comparison) (spec other : Json) (settled : Settled) :
    Except Fault (Bool × Settled) :=
  if spec == other then
    compareTypes corpus types left right visiting spec settled types (fun _ h => h)
  else .ok (false, settled)
termination_by (unopened types left right visiting, types.length + 1)

/-- Compares the pending types that a definition refers to. -/
def compareTypes (corpus : Corpus) (types : List TypeName) (left right : Version)
    (visiting : List Comparison) (spec : Json) (settled : Settled) (pending : List TypeName)
    (tracked : ∀ t ∈ pending, t ∈ types) : Except Fault (Bool × Settled) :=
  match pending, tracked with
  | [], _ => .ok (true, settled)
  | type :: rest, tracked =>
      have restTracked : ∀ t ∈ rest, t ∈ types :=
        fun t h => tracked t (List.mem_cons_of_mem _ h)
      if type.isMentionedIn spec then
        let c : Comparison := ⟨type.path, left, right⟩
        match settled.result? c with
        | some true => compareTypes corpus types left right visiting spec settled rest restTracked
        | some false => .ok (false, settled)
        | none =>
            match unseen : cycleFrom? c visiting with
            | some cycle => .error (.typeCycle ((cycle ++ [c]).map Comparison.label))
            | none => do
                let a := (← view corpus left).typeSpec? type
                let b := (← view corpus right).typeSpec? type
                let (same, settled) ←
                  match a, b with
                  | none, none => pure (true, settled)
                  | some a, some b =>
                      have : unopened types left right (visiting ++ [c]) <
                          unopened types left right visiting :=
                        unopened_append_lt (tracked type (List.mem_cons_self ..)) unseen
                      compareWithin corpus types left right (visiting ++ [c]) a b settled
                  | _, _ => pure (false, settled)
                let settled := (c, same) :: settled
                if same then
                  compareTypes corpus types left right visiting spec settled rest restTracked
                else return (false, settled)
      else compareTypes corpus types left right visiting spec settled rest restTracked
termination_by (unopened types left right visiting, pending.length)
decreasing_by
  all_goals simp_wf
  all_goals first
    | exact Prod.Lex.right _ (by omega)
    | exact Prod.Lex.left _ _ (by assumption)

end

/-- Whether two definitions under two versions of a corpus are equivalent with respect to the
tracked types. -/
def structural (corpus : Corpus) (types : List TypeName) : Relation :=
  fun left spec right other =>
    (compareWithin corpus types left right [] spec other []).map (·.1)

end Equivalence

end VersionGroups
