import VersionGroups.Proofs.Config.Order
import VersionGroups.Proofs.Grouping.Spelling
import VersionGroups.Proofs.Json.Spelling
import VersionGroups.Proofs.Manifest.Computation

/-!
# Order and spelling of the inputs

A manifest is made from a list of documents under distinct versions and a list of slots. Neither the
order of the two lists matters nor how the documents are spelled: the lists give one registry, or
neither can be registered, and two corpora with the same documents have the same manifest with the
same text and digest, or cannot be computed for the same reason.
-/
namespace VersionGroups
open VersionGroups.Equivalence

section
variable {c c' : Corpus} {relation relation' : Relation} {slots : List Slot}

/-- Grouping every slot comes to the same if grouping each slot does. -/
theorem groupEach_congr
    (h : ∀ slot ∈ slots, groupSlot c relation slot = groupSlot c' relation' slot) :
    (groupEach c relation slots).value = (groupEach c' relation' slots).value := by
  induction slots with
  | nil => rfl
  | cons slot rest ih =>
      obtain ⟨hslot, hrest⟩ := List.forall_mem_cons.mp h
      cases hgroups : groupSlot c' relation' slot with
      | ok groups =>
          rw [groupEach_cons_ok hgroups, groupEach_cons_ok (hslot.trans hgroups), ih hrest]
      | error fault =>
          rw [groupEach_cons_error hgroups, groupEach_cons_error (hslot.trans hgroups), ih hrest]

theorem groupSlots_congr
    (h : ∀ slot ∈ slots, groupSlot c relation slot = groupSlot c' relation' slot) :
    (groupSlots c relation slots).value = (groupSlots c' relation' slots).value := by
  rw [groupSlots_value, groupSlots_value, groupEach_congr h]

end

theorem Reduction.SameAs.buildManifest {x y : Reduction} (h : x.SameAs y)
    (slotGroups : List SlotGroups) : buildManifest x slotGroups = buildManifest y slotGroups := by
  have hstale : x.staleAlias? = y.staleAlias? := by
    simp only [Reduction.staleAlias?, h.aliases, h.kept.contains]
  rw [VersionGroups.buildManifest, VersionGroups.buildManifest, hstale, h.aliases, h.considered]

/-- The manifest of a computation, with its text and the digest of the text. -/
def Computed.output (computed : Computed) : Manifest × String × String :=
  (computed.manifest, computed.text, computed.digest)

theorem Reduction.SameAs.output {x y : Reduction} (h : x.SameAs y) (slotGroups : List SlotGroups) :
    Computed.output <$> Computed.ofGroups x slotGroups =
      Computed.output <$> Computed.ofGroups y slotGroups := by
  simp only [Computed.ofGroups, map_bind, map_pure, h.buildManifest slotGroups, Computed.output]

/-- Corpora with the same documents have one manifest, or fail for one reason. -/
theorem Corpus.SameAs.output {c c' : Corpus} (h : c.SameAs c') (config : SlotConfig) :
    Computed.output <$> (compute c config).value =
      Computed.output <$> (compute c' config).value := by
  rw [compute_value, compute_value]
  have hreduce := reduce_sameAs h config.range
  generalize reduce c config.range = x at hreduce ⊢
  generalize reduce c' config.range = y at hreduce ⊢
  cases hreduce with
  | error hfault => rw [hfault trivial]
  | @ok reduction reduction' hsame =>
      have hgroups : (groupSlots reduction.kept (config.relation reduction.kept)
          config.registry.slots).value = (groupSlots reduction'.kept
            (config.relation reduction'.kept) config.registry.slots).value :=
        groupSlots_congr fun slot _ => groupSlot_respell hsame.kept config.registry.types slot
      change _ <$> ((groupSlots reduction.kept _ _).value >>= Computed.ofGroups reduction) =
        _ <$> ((groupSlots reduction'.kept _ _).value >>= Computed.ofGroups reduction')
      rw [map_bind, map_bind, hgroups]
      simp only [hsame.output]

def readCorpus (entries : List (Version × Json)) : Corpus :=
  .ofList (entries.map fun e => (e.1, ⟨e.2.ordered⟩))

/-- The same versions in any order, with their documents in any spelling. -/
def Respelled (entries entries' : List (Version × Json)) : Prop :=
  ∃ respelled, Entrywise Json.Agrees entries respelled ∧ respelled.Perm entries'

/-- Lists of documents that differ in order and spelling give corpora with the same documents. -/
theorem Respelled.sameAs {entries entries' : List (Version × Json)}
    (h : Respelled entries entries') (distinct : (entries.map (·.1)).Nodup) :
    (readCorpus entries).SameAs (readCorpus entries') := by
  obtain ⟨respelled, hspelled, hperm⟩ := h
  have hkeys : ∀ l : List (Version × Json),
      (l.map fun e => (e.1, (⟨e.2.ordered⟩ : Document))).map (·.1) = l.map (·.1) :=
    fun l => List.map_map
  refine ⟨entrywise_ofList ?_ ?_ ?_⟩
  · rwa [hkeys]
  · rw [hkeys, hkeys, hspelled.keys]
    exact hperm.map _
  · intro v d d' hd hd'
    obtain ⟨⟨_, a⟩, ha, heq⟩ := List.mem_map.mp hd
    obtain ⟨rfl, rfl⟩ := Prod.mk.inj heq
    obtain ⟨⟨_, b⟩, hb, heq⟩ := List.mem_map.mp hd'
    obtain ⟨rfl, rfl⟩ := Prod.mk.inj heq
    exact (hspelled.rel_of_mem distinct ha (hperm.mem_iff.mpr hb)).ordered_same

/-- Neither the order of documents and slots nor the spelling of documents matters. The slots are
rejected in both orders or give one registry, and then both corpora have the same manifest, text and
digest over any range of versions, or fail with the same report. -/
theorem compute_of_respelled {entries entries' : List (Version × Json)} {slots slots' : List Slot}
    (distinct : (entries.map (·.1)).Nodup) (hentries : Respelled entries entries')
    (hslots : slots.Perm slots') :
    (∃ fault fault', Registry.ofList slots = .error fault ∧
        Registry.ofList slots' = .error fault') ∨
      ∃ registry, Registry.ofList slots = .ok registry ∧ Registry.ofList slots' = .ok registry ∧
        ∀ range,
          Computed.output <$> (compute (readCorpus entries) ⟨range, registry⟩).value =
            Computed.output <$> (compute (readCorpus entries') ⟨range, registry⟩).value := by
  rcases Registry.ofList_perm hslots with hrejected | ⟨registry, hslots, hslots'⟩
  · exact .inl hrejected
  · have hsame := hentries.sameAs distinct
    exact .inr ⟨registry, hslots, hslots', fun range => hsame.output ⟨range, registry⟩⟩

section
open Json

/-- A document whose types are given in some order. -/
def typesDocument (types : List (String × Json)) : Json := obj [("types", obj types)]

def zeroField (negative : Bool) : String × Json := ("zero", num (.float (.zero negative)))

def leafField : String × Json := ("leaf", str "varint")

/-- Two documents, of which the first has a positive zero after its other field. -/
def zeroEntries : List (Version × Json) :=
  [(1, typesDocument [leafField, zeroField false]), (2, typesDocument [leafField])]

/-- The later document first, and a negative zero before the other field. -/
def zeroEntries' : List (Version × Json) :=
  [(2, typesDocument [leafField]), (1, typesDocument [zeroField true, leafField])]

def zeroSlots : List Slot := [.type ⟨.common, "zero"⟩, .type ⟨.common, "leaf"⟩]

theorem agrees_field (key : String) {a b : Json} (h : Agrees a b) :
    Agrees (obj [(key, a)]) (obj [(key, b)]) := by
  refine .obj (List.nodup_singleton _) (.refl _) fun k c d hc hd => ?_
  obtain ⟨-, rfl⟩ := Prod.mk.inj (List.mem_singleton.mp hc)
  obtain ⟨-, rfl⟩ := Prod.mk.inj (List.mem_singleton.mp hd)
  exact h

theorem respelled_zero : Respelled zeroEntries zeroEntries' := by
  have hleaf : Agrees leafField.2 leafField.2 := .str "varint"
  have hzero : Agrees (zeroField false).2 (zeroField true).2 := .num (by decide)
  have hfields : Agrees (obj [leafField, zeroField false]) (obj [zeroField true, leafField]) := by
    refine .obj (by decide) (by decide) fun key a b ha hb => ?_
    simp only [leafField, zeroField, List.mem_cons, Prod.mk.injEq, List.not_mem_nil, or_false]
      at ha hb
    rcases ha with ⟨rfl, rfl⟩ | ⟨rfl, rfl⟩
    · obtain ⟨hkey, -⟩ | ⟨-, rfl⟩ := hb
      · exact absurd hkey (by decide)
      · exact hleaf
    · obtain ⟨-, rfl⟩ | ⟨hkey, -⟩ := hb
      · exact hzero
      · exact absurd hkey (by decide)
  refine ⟨zeroEntries'.reverse, .cons ⟨rfl, ?_⟩ (.cons ⟨rfl, ?_⟩ .nil), List.reverse_perm _⟩
  · exact agrees_field _ hfields
  · exact agrees_field _ (agrees_field _ hleaf)

end

/-- Reversing the slots and respelling the first document changes nothing. -/
theorem compute_of_respelled_zero : ∃ registry,
    Registry.ofList zeroSlots = .ok registry ∧ Registry.ofList zeroSlots.reverse = .ok registry ∧
      Computed.output <$> (compute (readCorpus zeroEntries) ⟨⟨1, none⟩, registry⟩).value =
        Computed.output <$> (compute (readCorpus zeroEntries') ⟨⟨1, none⟩, registry⟩).value := by
  have hslots : zeroSlots.Perm zeroSlots.reverse := (List.reverse_perm _).symm
  have hregistrable : Registry.Registrable zeroSlots := ⟨by decide +kernel, by decide +kernel⟩
  obtain ⟨registry, hregistry, -⟩ := Registry.ofList_of_registrable hregistrable
  rcases compute_of_respelled (by decide) respelled_zero hslots with
    ⟨fault, -, hfault, -⟩ | ⟨registry, hslots, hslots', hsame⟩
  · rw [hregistry] at hfault
    cases hfault
  · exact ⟨registry, hslots, hslots', hsame ⟨1, none⟩⟩

end VersionGroups
