import VersionGroups.Proofs.Grouping.Decision
import VersionGroups.Proofs.Grouping.Outcome

/-!
# Names of shared types in equivalent definitions

A definition names a shared type under either of its two spellings, and whichever it writes, the
type is found under its exact name first. A comparison that succeeds has compared what is found, so
two equivalent definitions have the same definition behind every name that they write. The entries
under the written name itself are the same wherever no entry under the other spelling comes in
between, and that can happen: an entry under the exact name hides the one that is named, and of two
types with one path only the first is compared.
-/
namespace VersionGroups

/-- The entry under a name in the types of all states. -/
def Document.typeEntry? (d : Document) (name : String) : Option Json :=
  d.globalTypes?.bind (Json.lookup? · name)

/-- The definition of a type in the types of all states: the entry under its exact name, or else
the one under its other spelling. -/
def Document.sharedType? (d : Document) (type : TypeName) : Option Json :=
  (d.typeEntry? type.name).or (d.typeEntry? type.pascalName)

/-- Two values are the same, or both are missing. -/
def SameOrMissing (a b : Option Json) : Prop := Option.Rel (fun x y => (x == y) = true) a b

namespace Equivalence

variable {corpus : Corpus} {types pending : List TypeName} {left right : View} {v w : Version}
  {settled : Settled} {visiting : List Comparison} {spec other : Json} {t : TypeName}
  {name : String}

/-- The first mentioned type asks for the documents of both versions. -/
theorem documents_of_compareTypes {result : Bool × Settled} (tracked : ∀ t ∈ pending, t ∈ types)
    (h : compareTypes corpus types v w [] spec [] pending tracked = .ok result)
    (ht : t ∈ pending) (hm : t.isMentionedIn spec = true) :
    ∃ a b, corpus.get? v = some a ∧ corpus.get? w = some b := by
  induction pending with
  | nil => cases ht
  | cons u rest ih =>
      rw [compareTypes] at h
      by_cases hu : u.isMentionedIn spec = true
      · cases ha : corpus.get? v with
        | none => simp [hu, Settled.result?, cycleFrom?, view, ha, bind, Except.bind] at h
        | some a =>
            cases hb : corpus.get? w with
            | none => simp [hu, Settled.result?, cycleFrom?, view, ha, hb, bind, Except.bind] at h
            | some b => exact ⟨a, b, rfl, rfl⟩
      · rw [if_neg hu] at h
        rcases List.mem_cons.mp ht with rfl | ht
        · exact absurd hm hu
        · exact ih _ h ht

/-- Every comparison that is settled well was made for a tracked type on which the views agree. -/
def Backed (types : List TypeName) (left right : View) (settled : Settled) : Prop :=
  ∀ c, settled.result? c = some true →
    ∃ u ∈ types, comparison left right u = c ∧ Agree left right u

theorem backed_nil : Backed types left right [] := by
  intro c h
  simp [Settled.result?] at h

theorem Backed.settle (hb : Backed types left right settled) (ht : t ∈ types)
    (ha : Agree left right t) :
    Backed types left right ((comparison left right t, true) :: settled) := by
  intro c h
  rw [result?_cons] at h
  split at h
  · rename_i hc
    exact ⟨t, ht, hc, ha⟩
  · exact hb c h

/-- A search that succeeds has found agreement under the path of every mentioned type. -/
theorem Search.backed {result : Except Fault (Bool × Settled)} {settled' : Settled}
    (h : Search types left right visiting spec settled pending result)
    (succeeds : result = .ok (true, settled')) (tracked : ∀ t ∈ pending, t ∈ types)
    (hb : Backed types left right settled) :
    Backed types left right settled' ∧ ∀ t ∈ pending, t.isMentionedIn spec = true →
      ∃ u ∈ types, comparison left right u = comparison left right t ∧ Agree left right u := by
  induction h generalizing settled' with
  | done =>
      cases succeeds
      exact ⟨hb, fun t ht => by cases ht⟩
  | skip hm _ ih =>
      obtain ⟨hb', hrest⟩ := ih succeeds (List.forall_mem_cons.mp tracked).2 hb
      exact ⟨hb', List.forall_mem_cons.mpr ⟨fun h => by simp [hm] at h, hrest⟩⟩
  | known _ hs _ ih =>
      obtain ⟨hb', hrest⟩ := ih succeeds (List.forall_mem_cons.mp tracked).2 hb
      exact ⟨hb', List.forall_mem_cons.mpr ⟨fun _ => hb _ hs, hrest⟩⟩
  | @absent _ _ _ u _ _ _ _ hl hr _ ih =>
      obtain ⟨hu, htracked⟩ := List.forall_mem_cons.mp tracked
      have ha : Agree left right u := by simp [Agree, hl, hr]
      obtain ⟨hb', hrest⟩ := ih succeeds htracked (hb.settle hu ha)
      exact ⟨hb', List.forall_mem_cons.mpr ⟨fun _ => ⟨u, hu, rfl, ha⟩, hrest⟩⟩
  | @inside _ _ _ u _ _ _ _ _ _ _ hl hr hab _ _ inner next =>
      obtain ⟨hu, htracked⟩ := List.forall_mem_cons.mp tracked
      have ha : Agree left right u := (agree_of_some hl hr).mpr hab
      obtain ⟨hin, -⟩ := inner rfl (fun _ h => h) hb
      obtain ⟨hb', hrest⟩ := next succeeds htracked (hin.settle hu ha)
      exact ⟨hb', List.forall_mem_cons.mpr ⟨fun _ => ⟨u, hu, rfl, ha⟩, hrest⟩⟩
  | refuted | cycle | differ | insideFalse | insideError => cases succeeds

/-- On a type that an equivalent definition mentions, and that alone has its path, both versions
agree. -/
theorem agree_of_structural (h : structural corpus types v spec w other = .ok true)
    (tracked : t ∈ types) (unique : ∀ u ∈ types, u.path = t.path → u = t)
    (hm : t.isMentionedIn spec = true) :
    ∃ a b, corpus.get? v = some a ∧ corpus.get? w = some b ∧ Agree ⟨v, a⟩ ⟨w, b⟩ t := by
  rw [structural, compareWithin] at h
  split at h
  · cases hrun : compareTypes corpus types v w [] spec [] types (fun _ h => h) with
    | error fault =>
        rw [hrun] at h
        cases h
    | ok outcome =>
        obtain ⟨a, b, ha, hb⟩ := documents_of_compareTypes _ hrun tracked hm
        obtain ⟨same, settled⟩ := outcome
        obtain rfl : same = true := by
          rw [hrun] at h
          exact Except.ok.inj h
        let left : View := ⟨v, a⟩
        let right : View := ⟨w, b⟩
        have hleft : corpus.get? left.version = some left.document := ha
        have hright : corpus.get? right.version = some right.document := hb
        have hsearch := search_compareTypes hleft hright [] spec [] types fun _ h => h
        obtain ⟨-, hpending⟩ := hsearch.backed hrun (fun _ h => h) backed_nil
        obtain ⟨u, hu, hpath, hagree⟩ := hpending t tracked hm
        obtain rfl := unique u hu (congrArg Comparison.path hpath)
        exact ⟨a, b, ha, hb, hagree⟩
  · cases h

theorem typeSpec?_common (view : View) (shared : t.scope = .common) :
    view.typeSpec? t = view.document.sharedType? t := by
  unfold View.typeSpec? Document.sharedType? Document.typeEntry?
  rw [shared]
  cases view.document.globalTypes? <;> rfl

/-- Of the two entries of a type, the one that a name asks for is what is found, if there is none
under another spelling. -/
theorem sharedType?_of_unshadowed (d : Document) (spelling : name ∈ t.referenceNames)
    (clear : ∀ s ∈ t.referenceNames, s ≠ name → d.typeEntry? s = none) :
    d.sharedType? t = d.typeEntry? name := by
  have hother : ∀ s ∈ t.referenceNames, d.typeEntry? s = d.typeEntry? name ∨
      d.typeEntry? s = none := by
    intro s hs
    by_cases heq : s = name
    · exact .inl (heq ▸ rfl)
    · exact .inr (clear s hs heq)
  simp only [TypeName.referenceNames, List.mem_cons, List.not_mem_nil, or_false] at spelling
  rw [Document.sharedType?]
  rcases spelling with rfl | rfl
  · rcases hother t.pascalName (by simp [TypeName.referenceNames]) with h | h
    · rw [h, Option.or_self]
    · rw [h, Option.or_none]
  · rcases hother t.name (by simp [TypeName.referenceNames]) with h | h
    · rw [h, Option.or_self]
    · rw [h, Option.none_or]

/-- Behind every name of a shared type that a definition writes, an equivalent definition finds the
same. The entries under the name itself are the same or both missing if neither version has an entry
under another spelling, and two entries under the exact name are the same in any case. -/
theorem structural_keeps_named {t : TypeName} {name : String}
    (h : structural corpus types v spec w other = .ok true) (tracked : t ∈ types)
    (shared : t.scope = .common) (unique : ∀ u ∈ types, u.path = t.path → u = t)
    (spelling : name ∈ t.referenceNames) (named : spec.Names name) :
    ∃ a b, corpus.get? v = some a ∧ corpus.get? w = some b ∧
      SameOrMissing (a.sharedType? t) (b.sharedType? t) ∧
      ((∀ s ∈ t.referenceNames, s ≠ name → a.typeEntry? s = none ∧ b.typeEntry? s = none) →
        SameOrMissing (a.typeEntry? name) (b.typeEntry? name)) ∧
      (name = t.name → ∀ x y, a.typeEntry? name = some x → b.typeEntry? name = some y →
        (x == y) = true) := by
  obtain ⟨a, b, ha, hb, hagree⟩ :=
    agree_of_structural h tracked unique (TypeName.isMentionedIn_iff.mpr ⟨name, spelling, named⟩)
  have hfound : SameOrMissing (a.sharedType? t) (b.sharedType? t) := by
    rwa [Agree, typeSpec?_common _ shared, typeSpec?_common _ shared] at hagree
  refine ⟨a, b, ha, hb, hfound, fun clear => ?_, fun exact x y hx hy => ?_⟩
  · rw [← sharedType?_of_unshadowed a spelling fun s hs hne => (clear s hs hne).1,
      ← sharedType?_of_unshadowed b spelling fun s hs hne => (clear s hs hne).2]
    exact hfound
  · subst exact
    rw [Document.sharedType?, Document.sharedType?, hx, hy] at hfound
    simpa [SameOrMissing] using hfound

/-- A document that defines `spawn_info` under both spellings. -/
def shadowingDocument (shadowed : String) : Document :=
  ⟨.obj [("types", .obj [("SpawnInfo", .str shadowed), ("spawn_info", .str "varint")])]⟩

def spawnInfo : TypeName := ⟨.common, "spawn_info"⟩

/-- Two documents that differ in the entry that the exact name hides. -/
def shadowingCorpus : Corpus :=
  .ofList [(1, shadowingDocument "i8"), (2, shadowingDocument "i16")]

theorem shadowing_structural (name : String) (hm : spawnInfo.isMentionedIn (reference name) = true)
    (hbody : spawnInfo.isMentionedIn (.str "varint") = false) :
    structural shadowingCorpus [spawnInfo] 1 (reference name) 2 (reference name) = .ok true := by
  let left : View := ⟨1, shadowingDocument "i8"⟩
  let right : View := ⟨2, shadowingDocument "i16"⟩
  have hleft : shadowingCorpus.get? left.version = some left.document := rfl
  have hright : shadowingCorpus.get? right.version = some right.document := rfl
  exact structural_of_search hleft hright (Json.same_refl _)
    (.inside hm ⟨rfl, rfl⟩ rfl rfl rfl (.skip hbody .done) .done)

/-- A definition that writes the exact name has the same definition behind it. -/
theorem structural_keeps_named_spawnInfo :
    ∃ a b, shadowingCorpus.get? 1 = some a ∧ shadowingCorpus.get? 2 = some b ∧
      SameOrMissing (a.sharedType? spawnInfo) (b.sharedType? spawnInfo) ∧
      ∀ x y, a.typeEntry? "spawn_info" = some x → b.typeEntry? "spawn_info" = some y →
        (x == y) = true := by
  have hm : spawnInfo.isMentionedIn (reference "spawn_info") = true := by decide +kernel
  have htracked : spawnInfo ∈ [spawnInfo] := List.mem_singleton.mpr rfl
  have hspelling : "spawn_info" ∈ spawnInfo.referenceNames := by decide +kernel
  obtain ⟨a, b, ha, hb, hfound, -, hexact⟩ :=
    structural_keeps_named (shadowing_structural "spawn_info" hm rfl) htracked rfl
      (fun u hu _ => List.mem_singleton.mp hu) hspelling (names_reference "spawn_info")
  exact ⟨a, b, ha, hb, hfound, hexact rfl⟩

/-- A document in which a type of the client's packets and a shared type have one path. -/
def collidingDocument (shared : String) : Document :=
  ⟨.obj [("play", .obj [("toServer", .obj [("types", .obj [("x", .str "varint")])])]),
    ("types", .obj [("c2s.play.x", .str shared)])]⟩

def collidingTypes : List TypeName := [⟨.scoped .toServer "play", "x"⟩, ⟨.common, "c2s.play.x"⟩]

def collidingCorpus : Corpus :=
  .ofList [(1, collidingDocument "i8"), (2, collidingDocument "i16")]

/-- A definition that refers to both types of one path. -/
def collidingSpec : Json := .arr [reference "x", reference "c2s.play.x"]

/-- Definitions can be equivalent though the entries under a name that they write differ: the entry
is hidden by one under the exact name, or the type has its path from a type that was compared
before. -/
theorem structural_hides_named :
    (structural shadowingCorpus [spawnInfo] 1 (reference "SpawnInfo") 2 (reference "SpawnInfo") =
        .ok true ∧
      "SpawnInfo" ∈ spawnInfo.referenceNames ∧
      (reference "SpawnInfo").Names "SpawnInfo" ∧
      shadowingCorpus.get? 1 = some (shadowingDocument "i8") ∧
      shadowingCorpus.get? 2 = some (shadowingDocument "i16") ∧
      ¬ SameOrMissing (Document.typeEntry? (shadowingDocument "i8") "SpawnInfo")
        (Document.typeEntry? (shadowingDocument "i16") "SpawnInfo")) ∧
    (structural collidingCorpus collidingTypes 1 collidingSpec 2 collidingSpec = .ok true ∧
      ⟨.common, "c2s.play.x"⟩ ∈ collidingTypes ∧
      collidingSpec.Names "c2s.play.x" ∧
      collidingCorpus.get? 1 = some (collidingDocument "i8") ∧
      collidingCorpus.get? 2 = some (collidingDocument "i16") ∧
      ¬ SameOrMissing (Document.typeEntry? (collidingDocument "i8") "c2s.play.x")
        (Document.typeEntry? (collidingDocument "i16") "c2s.play.x")) := by
  have hdiffer : ¬ SameOrMissing (some (.str "i8")) (some (.str "i16")) := by
    rintro ⟨⟩
    contradiction
  have hshadowed : spawnInfo.isMentionedIn (reference "SpawnInfo") = true := by decide +kernel
  have hcolliding : collidingSpec.Names "c2s.play.x" := .item (by simp) (names_reference _)
  refine ⟨⟨shadowing_structural "SpawnInfo" hshadowed rfl, by decide +kernel, names_reference _,
    rfl, rfl, hdiffer⟩, ?_, by decide, hcolliding, rfl, rfl, hdiffer⟩
  let left : View := ⟨1, collidingDocument "i8"⟩
  let right : View := ⟨2, collidingDocument "i16"⟩
  have hleft : collidingCorpus.get? left.version = some left.document := rfl
  have hright : collidingCorpus.get? right.version = some right.document := rfl
  exact structural_of_search hleft hright (Json.same_refl _)
    (.inside (by decide +kernel) ⟨rfl, rfl⟩ rfl rfl rfl
      (.skip (by decide +kernel) (.skip (by decide +kernel) .done))
      (.known (by decide +kernel) (by decide +kernel) .done))

end Equivalence

end VersionGroups
