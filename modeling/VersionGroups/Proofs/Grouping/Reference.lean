import Mathlib.Data.List.Basic
import Mathlib.Logic.Relation
import VersionGroups.Grouping.Equivalence

/-!
# The references of tracked types

A definition refers to the tracked types that it mentions, and a type to those that its definition
under one version mentions. What a definition reaches is the least set of tracked types that holds
the types it mentions and is closed under references. Grounded types are those from which every
chain of references ends and meets only types on which two versions agree.
-/
namespace VersionGroups

/-- A value holds a name as the text of a `type` field, at any depth. -/
inductive Json.Names (name : String) : Json → Prop
  | here {fields : List (String × Json)} (h : ("type", .str name) ∈ fields) :
      Names name (.obj fields)
  | field {fields : List (String × Json)} {key : String} {a : Json} (h : (key, a) ∈ fields)
      (ha : Names name a) : Names name (.obj fields)
  | item {items : List Json} {a : Json} (h : a ∈ items) (ha : Names name a) :
      Names name (.arr items)

namespace Json
variable {names : List String}

mutual

/-- What is found by looking through a value is what the value names. -/
theorem mentions_iff : {a : Json} → a.mentions names = true ↔ ∃ name ∈ names, a.Names name
  | .null => ⟨nofun, nofun⟩
  | .bool _ => ⟨nofun, nofun⟩
  | .num _ => ⟨nofun, nofun⟩
  | .str _ => ⟨nofun, nofun⟩
  | .arr items => by
      rw [mentions, mentionsInItems_iff]
      constructor
      · rintro ⟨name, hname, a, ha, h⟩
        exact ⟨name, hname, .item ha h⟩
      · rintro ⟨name, hname, ⟨⟩⟩
        exact ⟨name, hname, _, ‹_›, ‹_›⟩
  | .obj fields => by
      rw [mentions, mentionsInFields_iff]
      constructor
      · rintro ⟨name, hname, h | ⟨key, a, ha, h⟩⟩
        · exact ⟨name, hname, .here h⟩
        · exact ⟨name, hname, .field ha h⟩
      · rintro ⟨name, hname, ⟨⟩⟩
        · exact ⟨name, hname, .inl ‹_›⟩
        · exact ⟨name, hname, .inr ⟨_, _, ‹_›, ‹_›⟩⟩

theorem mentionsInItems_iff : {items : List Json} → mentionsInItems names items = true ↔
    ∃ name ∈ names, ∃ a ∈ items, a.Names name
  | [] => by simp [mentionsInItems]
  | a :: rest => by
      rw [mentionsInItems, Bool.or_eq_true, mentions_iff, mentionsInItems_iff]
      simp only [List.exists_mem_cons_iff, and_or_left, exists_or]

theorem mentionsInFields_iff : {fields : List (String × Json)} →
    mentionsInFields names fields = true ↔
      ∃ name ∈ names, ("type", .str name) ∈ fields ∨ ∃ key a, (key, a) ∈ fields ∧ a.Names name
  | [] => by simp [mentionsInFields]
  | (key, a) :: rest => by
      have hhere : mentionsInFields names ((key, a) :: rest) = true ↔
          ((∃ name ∈ names, (key, a) = ("type", .str name)) ∨ a.mentions names = true) ∨
            mentionsInFields names rest = true := by
        cases a <;> simp [mentionsInFields, and_comm]
      rw [hhere, mentions_iff, mentionsInFields_iff]
      constructor
      · rintro ((⟨name, hname, heq⟩ | ⟨name, hname, h⟩) | ⟨name, hname, h | ⟨key', b, hb, h⟩⟩)
        · exact ⟨name, hname, .inl (heq ▸ List.mem_cons_self)⟩
        · exact ⟨name, hname, .inr ⟨key, a, List.mem_cons_self, h⟩⟩
        · exact ⟨name, hname, .inl (List.mem_cons_of_mem _ h)⟩
        · exact ⟨name, hname, .inr ⟨key', b, List.mem_cons_of_mem _ hb, h⟩⟩
      · rintro ⟨name, hname, h | ⟨key', b, hb, h⟩⟩
        · exact (List.mem_cons.mp h).elim (fun heq => .inl (.inl ⟨name, hname, heq.symm⟩))
            fun h => .inr ⟨name, hname, .inl h⟩
        · rcases List.mem_cons.mp hb with heq | hb
          · cases heq
            exact .inl (.inr ⟨name, hname, h⟩)
          · exact .inr ⟨name, hname, .inr ⟨key', b, hb, h⟩⟩

end

end Json

theorem TypeName.isMentionedIn_iff {t : TypeName} {spec : Json} :
    t.isMentionedIn spec = true ↔ ∃ name ∈ t.referenceNames, spec.Names name :=
  Json.mentions_iff

namespace Equivalence

/-- A tracked type that a definition names in one of its spellings. -/
def Mentions (types : List TypeName) (spec : Json) (t : TypeName) : Prop :=
  t ∈ types ∧ ∃ name ∈ t.referenceNames, spec.Names name

/-- A reference from the definition of a type to a tracked type. -/
def Refers (types : List TypeName) (view : View) (t u : TypeName) : Prop :=
  ∃ body, view.typeSpec? t = some body ∧ Mentions types body u

/-- The tracked types that a definition reaches through the definitions of one view. -/
inductive Reaches (types : List TypeName) (view : View) (spec : Json) : TypeName → Prop
  | mention {t : TypeName} (h : Mentions types spec t) : Reaches types view spec t
  | refer {t u : TypeName} (h : Reaches types view spec t) (hr : Refers types view t u) :
      Reaches types view spec u

/-- Both views give a type the same definition, or neither defines it. -/
def Agree (left right : View) (t : TypeName) : Prop :=
  Option.Rel (fun a b => (a == b) = true) (left.typeSpec? t) (right.typeSpec? t)

/-- Some type that a definition reaches refers to itself, directly or through others. -/
def Cyclic (types : List TypeName) (view : View) (spec : Json) : Prop :=
  ∃ t, Reaches types view spec t ∧ Relation.TransGen (Refers types view) t t

/-- Two views agree on a type, and every type that it refers to is grounded in turn. -/
inductive Grounded (types : List TypeName) (left right : View) : TypeName → Prop
  | intro {t : TypeName} (ha : Agree left right t)
      (hr : ∀ u, Refers types left t u → Grounded types left right u) : Grounded types left right t

variable {types : List TypeName} {view left right : View} {spec body : Json} {t u : TypeName}

theorem Mentions.of_isMentionedIn (ht : t ∈ types) (hm : t.isMentionedIn spec = true) :
    Mentions types spec t :=
  ⟨ht, TypeName.isMentionedIn_iff.mp hm⟩

theorem Mentions.isMentionedIn (h : Mentions types spec t) : t.isMentionedIn spec = true :=
  TypeName.isMentionedIn_iff.mpr h.2

theorem Reaches.mem (h : Reaches types view spec t) : t ∈ types := by
  cases h with
  | mention hm => exact hm.1
  | refer _ hr =>
      obtain ⟨_, _, hm⟩ := hr
      exact hm.1

theorem Reaches.of_body (ht : Mentions types spec t) (hb : view.typeSpec? t = some body)
    (h : Reaches types view body u) : Reaches types view spec u := by
  induction h with
  | mention hu => exact .refer (.mention ht) ⟨body, hb, hu⟩
  | refer _ hr ih => exact .refer ih hr

theorem Cyclic.of_body (ht : Mentions types spec t) (hb : view.typeSpec? t = some body)
    (h : Cyclic types view body) : Cyclic types view spec := by
  obtain ⟨u, hu, hc⟩ := h
  exact ⟨u, hu.of_body ht hb, hc⟩

theorem Grounded.agree (h : Grounded types left right t) : Agree left right t := by
  cases h with
  | intro ha _ => exact ha

theorem Grounded.refers (h : Grounded types left right t) (hr : Refers types left t u) :
    Grounded types left right u := by
  cases h with
  | intro _ hg => exact hg u hr

theorem Grounded.not_transGen (h : Grounded types left right t) :
    ¬ Relation.TransGen (Refers types left) t t := by
  induction h with
  | intro _ _ ih =>
      intro hc
      -- The first reference of a cycle leads to another type on the same cycle.
      obtain ⟨u, hu, hrest⟩ := Relation.TransGen.head'_iff.mp hc
      exact ih u hu (Relation.TransGen.tail' hrest hu)

/-- If everything that a definition mentions is grounded, then so is everything it reaches. -/
theorem Reaches.grounded (hm : ∀ t, Mentions types spec t → Grounded types left right t)
    (h : Reaches types left spec u) : Grounded types left right u := by
  induction h with
  | mention hu => exact hm _ hu
  | refer _ hr ih => exact ih.refers hr

theorem not_cyclic_of_grounded (hm : ∀ t, Mentions types spec t → Grounded types left right t) :
    ¬ Cyclic types left spec := by
  rintro ⟨u, hu, hc⟩
  exact (hu.grounded hm).not_transGen hc

end Equivalence

end VersionGroups
