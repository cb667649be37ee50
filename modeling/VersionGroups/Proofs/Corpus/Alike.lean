import VersionGroups.Proofs.Json.Sameness

/-!
# Views of documents that are the same

Documents are compared by content, so views of two documents that are the same answer alike, each
under its own version: a question fails for both or succeeds for both, definitions are found in
both or in neither and are the same, and wire ids are equal. Under one version, even the faults are
equal.
-/
namespace VersionGroups

/-- Both results are failures, with one fault if a condition holds, or both are values and
related. -/
inductive Alike {α β : Type} (p : Prop) (r : α → β → Prop) : Except Fault α → Except Fault β → Prop
  | ok {a : α} {b : β} (h : r a b) : Alike p r (.ok a) (.ok b)
  | error {e f : Fault} (h : p → e = f) : Alike p r (.error e) (.error f)

theorem Alike.bind {α β γ δ : Type} {p : Prop} {r : α → β → Prop} {s : γ → δ → Prop}
    {x : Except Fault α} {y : Except Fault β} {f : α → Except Fault γ} {g : β → Except Fault δ}
    (h : Alike p r x y) (hfg : ∀ a b, r a b → Alike p s (f a) (g b)) :
    Alike p s (x >>= f) (y >>= g) := by
  cases h with
  | ok hab => exact hfg _ _ hab
  | error h => exact .error h

theorem Alike.of_ok_some {α β : Type} {p : Prop} {r : α → β → Prop} {a : α}
    {y : Except Fault (Option β)} (h : Alike p (Option.Rel r) (.ok (some a)) y) :
    ∃ b, y = .ok (some b) ∧ r a b := by
  cases h with
  | ok hab =>
      cases hab with
      | some hab => exact ⟨_, rfl, hab⟩

theorem Alike.of_ok_none {α β : Type} {p : Prop} {r : α → β → Prop}
    {y : Except Fault (Option β)} (h : Alike p (Option.Rel r) (.ok none) y) : y = .ok none := by
  cases h with
  | ok hab =>
      cases hab with
      | none => rfl

theorem Alike.of_ok_eq {α : Type} {p : Prop} {a : α} {y : Except Fault α}
    (h : Alike p Eq (.ok a) y) : y = .ok a := by
  cases h with
  | ok hab => rw [hab]

namespace View
open Json

variable {v w : View}

/-- Packet tables with the same mappings and the same definitions. -/
structure SameTable (t u : PacketTable) : Prop where
  mappings : SameFields t.mappings u.mappings
  definitions : SameFields t.definitions u.definitions

theorem localTypes?_congr (direction : Direction) (state : String)
    (h : v.document == w.document) :
    Option.Rel SameFields (v.localTypes? direction state) (w.localTypes? direction state) :=
  rel_bind (field?_congr state h) fun _ _ h =>
    rel_bind (field?_congr direction.documentKey h) fun _ _ h =>
      rel_bind (field?_congr Document.typesKey h) fun _ _ => asObject?_congr

theorem globalTypes?_congr (h : v.document == w.document) :
    Option.Rel SameFields v.document.globalTypes? w.document.globalTypes? :=
  rel_bind (field?_congr Document.typesKey h) fun _ _ => asObject?_congr

theorem fieldOption?_congr (option : String) {a b : Json} (h : Same a b) :
    Option.Rel SameFields (fieldOption? a option) (fieldOption? b option) :=
  rel_bind (field?_congr "type" h) fun _ _ h =>
    rel_bind (item?_congr 1 h) fun _ _ h =>
      rel_bind (field?_congr option h) fun _ _ => asObject?_congr

theorem fieldKind?_congr {a b : Json} (h : Same a b) : fieldKind? a = fieldKind? b := by
  refine rel_eq (rel_bind (field?_congr "type" h) fun _ _ h => rel_bind (item?_congr 0 h) ?_)
  intro a b h
  rw [asString?_congr h]
  cases b.asString? with
  | none => exact .none
  | some s => exact .some rfl

theorem lastOption?_congr (kind option : String) {as bs : List Json} (h : sameItems as bs = true) :
    Option.Rel SameFields (lastOption? kind option as) (lastOption? kind option bs) := by
  suffices hfold : ∀ {found found' : Option (List (String × Json))},
      Option.Rel SameFields found found' → Option.Rel SameFields
        (as.foldl (fun found field =>
          if fieldKind? field = some kind then fieldOption? field option else found) found)
        (bs.foldl (fun found field =>
          if fieldKind? field = some kind then fieldOption? field option else found) found') from
    hfold .none
  induction as generalizing bs with
  | nil =>
      intro found found' hfound
      cases bs with
      | nil => exact hfound
      | cons b bs => cases h
  | cons a as ih =>
      intro found found' hfound
      cases bs with
      | nil => cases h
      | cons b bs =>
          rw [sameItems, Bool.and_eq_true] at h
          refine ih h.2 ?_
          dsimp only
          rw [fieldKind?_congr h.1]
          split
          · exact fieldOption?_congr option h.1
          · exact hfound

theorem packetTable?_congr (direction : Direction) (state : String)
    (h : v.document == w.document) :
    Alike (v.version = w.version) (Option.Rel SameTable) (v.packetTable? direction state)
      (w.packetTable? direction state) := by
  have htable := rel_bind (localTypes?_congr direction state h) fun _ _ => lookup?_congr "packet"
  rw [packetTable?, packetTable?]
  generalize (v.localTypes? direction state).bind (lookup? · "packet") = x at htable ⊢
  generalize (w.localTypes? direction state).bind (lookup? · "packet") = y at htable ⊢
  cases htable with
  | none => exact .ok .none
  | some hab =>
      have hfields := rel_bind (item?_congr 1 hab) fun _ _ => asArray?_congr
      dsimp only
      generalize (Option.bind (item? _ 1) asArray? : Option (List Json)) = x at hfields ⊢
      generalize (Option.bind (item? _ 1) asArray? : Option (List Json)) = y at hfields ⊢
      cases hfields with
      | none => exact .error fun hv => by rw [hv]
      | some hfields =>
          have hmappings := lastOption?_congr "mapper" "mappings" hfields
          have hdefinitions := lastOption?_congr "switch" "fields" hfields
          dsimp only
          generalize lastOption? "mapper" "mappings" _ = x at hmappings ⊢
          generalize lastOption? "mapper" "mappings" _ = y at hmappings ⊢
          generalize lastOption? "switch" "fields" _ = x' at hdefinitions ⊢
          generalize lastOption? "switch" "fields" _ = y' at hdefinitions ⊢
          cases hmappings with
          | none => exact .error fun hv => by rw [hv]
          | some hm =>
              cases hdefinitions with
              | none => exact .error fun hv => by rw [hv]
              | some hd => exact .ok (.some ⟨hm, hd⟩)

theorem names_congr (packet : String) {a b : Json} (h : Same a b) :
    names packet a = names packet b := by
  rw [names, names, asString?_congr h]

theorem any_names_congr (packet : String) {as bs : List (String × Json)} (h : SameFields as bs) :
    as.any (fun e => names packet e.2) = bs.any (fun e => names packet e.2) := by
  induction as generalizing bs with
  | nil =>
      cases bs with
      | nil => rfl
      | cons g bs => cases h
  | cons f as ih =>
      cases bs with
      | nil => cases h
      | cons g bs =>
          simp only [SameFields, sameFields, Bool.and_eq_true] at h
          rw [List.any_cons, List.any_cons, names_congr packet h.1.2, ih h.2]

theorem keyId_alike (direction : Direction) (state key : String) :
    Alike (v.version = w.version) Eq (v.keyId direction state key)
      (w.keyId direction state key) := by
  rw [keyId, keyId]
  split
  · exact .ok rfl
  · exact .error fun hv => by rw [hv]

theorem findWireId_congr (packet : PacketName) {as bs : List (String × Json)}
    (h : SameFields as bs) (found : Option WireId) :
    Alike (v.version = w.version) Eq (v.findWireId packet found as)
      (w.findWireId packet found bs) := by
  induction as generalizing bs found with
  | nil =>
      cases bs with
      | nil => exact .ok rfl
      | cons g bs => cases h
  | cons f as ih =>
      cases bs with
      | nil => cases h
      | cons g bs =>
          obtain ⟨j, a⟩ := f
          obtain ⟨k, b⟩ := g
          simp only [SameFields, sameFields, Bool.and_eq_true, beq_iff_eq] at h
          obtain ⟨⟨rfl, hab⟩, hrest⟩ := h
          rw [findWireId, findWireId, names_congr packet.name hab]
          split
          · refine (keyId_alike packet.direction packet.state j).bind ?_
            rintro id _ rfl
            cases found with
            | none => exact ih hrest (some id)
            | some first =>
                dsimp only
                split
                · exact ih hrest (some first)
                · split <;> exact .error fun hv => by rw [hv]
          · exact ih hrest found

theorem namedType?_congr (direction : Direction) (state name : String)
    (h : v.document == w.document) :
    Option.Rel Same (v.namedType? direction state name) (w.namedType? direction state name) :=
  rel_or (rel_bind (localTypes?_congr direction state h) fun _ _ => lookup?_congr name)
    (rel_bind (globalTypes?_congr h) fun _ _ => lookup?_congr name)

theorem packetSpec?_congr (packet : PacketName) (h : v.document == w.document) :
    Alike (v.version = w.version) (Option.Rel Same) (v.packetSpec? packet)
      (w.packetSpec? packet) := by
  refine (packetTable?_congr packet.direction packet.state h).bind ?_
  intro x y htable
  cases htable with
  | none => exact .ok .none
  | some htable =>
      dsimp only
      rw [any_names_congr packet.name htable.mappings]
      split
      · have hlookup := lookup?_congr packet.name htable.definitions
        generalize lookup? _ packet.name = x at hlookup ⊢
        generalize lookup? _ packet.name = y at hlookup ⊢
        cases hlookup with
        | none => exact .error fun hv => by rw [hv]
        | @some a b hab =>
            have htext := asString?_congr hab
            cases a with
            | str s =>
                cases b with
                | str s' =>
                    obtain rfl : s = s' := Option.some.inj htext
                    have hnamed := namedType?_congr packet.direction packet.state s h
                    dsimp only
                    generalize v.namedType? packet.direction packet.state s = x at hnamed ⊢
                    generalize w.namedType? packet.direction packet.state s = y at hnamed ⊢
                    cases hnamed with
                    | none => exact .error fun hv => by rw [hv]
                    | some hspec => exact .ok (.some hspec)
                | _ => cases htext
            | _ =>
                cases b with
                | str s' => cases htext
                | _ => exact .ok (.some hab)
      · exact .ok .none

theorem packetWireId?_congr (packet : PacketName) (h : v.document == w.document) :
    Alike (v.version = w.version) Eq (v.packetWireId? packet) (w.packetWireId? packet) := by
  refine (packetTable?_congr packet.direction packet.state h).bind ?_
  intro x y htable
  cases htable with
  | none => exact .ok rfl
  | some htable => exact findWireId_congr packet htable.mappings none

theorem spelled?_congr (type : TypeName) {as bs : List (String × Json)} (h : SameFields as bs) :
    Option.Rel Same (spelled? type as) (spelled? type bs) :=
  rel_or (lookup?_congr type.name h) (lookup?_congr type.pascalName h)

theorem typeSpec?_congr (type : TypeName) (h : v.document == w.document) :
    Option.Rel Same (v.typeSpec? type) (w.typeSpec? type) := by
  refine rel_or ?_ (rel_bind (globalTypes?_congr h) fun _ _ => spelled?_congr type)
  split
  · exact .none
  · exact rel_bind (localTypes?_congr _ _ h) fun _ _ => spelled?_congr type

theorem slotSpec?_congr (slot : Slot) (h : v.document == w.document) :
    Alike (v.version = w.version) (Option.Rel Same) (v.slotSpec? slot) (w.slotSpec? slot) := by
  cases slot with
  | packet packet => exact packetSpec?_congr packet h
  | type type => exact .ok (typeSpec?_congr type h)

theorem slotWireId?_congr (slot : Slot) (h : v.document == w.document) :
    Alike (v.version = w.version) Eq (v.slotWireId? slot) (w.slotWireId? slot) := by
  cases slot with
  | packet packet => exact packetWireId?_congr packet h
  | type type => exact .ok rfl

section
variable {slot : Slot} (same : (v.document == w.document) = true)
include same

theorem slotSpec?_of_same {spec : Json} (h : v.slotSpec? slot = .ok (some spec)) :
    ∃ spec', w.slotSpec? slot = .ok (some spec') ∧ Same spec spec' := by
  have hspecs := slotSpec?_congr slot same
  rw [h] at hspecs
  exact hspecs.of_ok_some

theorem slotSpec?_none_of_same (h : v.slotSpec? slot = .ok none) : w.slotSpec? slot = .ok none := by
  have hspecs := slotSpec?_congr slot same
  rw [h] at hspecs
  exact hspecs.of_ok_none

theorem slotWireId?_of_same {id : Option WireId} (h : v.slotWireId? slot = .ok id) :
    w.slotWireId? slot = .ok id := by
  have hids := slotWireId?_congr slot same
  rw [h] at hids
  exact hids.of_ok_eq

end

end View

end VersionGroups
