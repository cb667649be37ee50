import VersionGroups.Proofs.Artifact.Dispatch
import VersionGroups.Proofs.Results

/-!
# Dispatching in turn

A dispatch comes to one artifact after another, and what it does there depends on the table that the
artifacts before have left. This table is known from their records: it has the sources that it had
at the start and, for every record that tells of a generated artifact, the answer to the request for
that artifact. So the same artifact may be generated at one turn and be there at a later one, and a
dispatch that ends early leaves the table at which it has stopped.
-/
namespace VersionGroups

section
variable (answer : GenerationRequest → Except ErrorReport String) (corpus : Corpus)

/-- A table after a dispatch: it has what it had before and the answers that records tell of. -/
def ArtifactTable.IsAfter (after before : ArtifactTable) (records : List DispatchRecord) : Prop :=
  ∀ key source, after.get? key = some source ↔
    before.get? key = some source ∨
      ⟨key, .generated (ArtifactTable.handle key)⟩ ∈ records ∧
        ∃ request : GenerationRequest, request.AsksFor corpus key ∧ answer request = .ok source

/-- What a record tells of an artifact that a dispatch comes to when it has a certain table. -/
inductive DispatchRecord.Tells (table : ArtifactTable) : DispatchRecord → Prop
  | existing {key source} (h : table.get? key = some source) :
      Tells table ⟨key, .existing (ArtifactTable.handle key)⟩
  | failed {key request report} (h : table.get? key = none) (hasks : request.AsksFor corpus key)
      (hanswer : Generator.checked request (answer request) = .error report) :
      Tells table ⟨key, .ofFailure report⟩
  | generated {key request source} (h : table.get? key = none) (hasks : request.AsksFor corpus key)
      (hanswer : answer request = .ok source) (hfilled : isBlankText source = false) :
      Tells table ⟨key, .generated (ArtifactTable.handle key)⟩

/-- The artifacts have a record each, which tells of the table that the records before it have left.
One request was made for each artifact that this table did not have. -/
structure DispatchedInTurn (table : ArtifactTable) (keys : List ArtifactKey)
    (records : List DispatchRecord) (requests : List GenerationRequest) (after : ArtifactTable) :
    Prop where
  recorded : records.map (·.key) = keys
  told : ∀ earlier record later, records = earlier ++ record :: later →
    ∃ moment : ArtifactTable,
      moment.IsAfter answer corpus table earlier ∧ record.Tells answer corpus moment
  asked : List.Forall₂ (fun record request => request.AsksFor corpus record.key)
    (records.filter fun record => !record.outcome.isExisting) requests
  content : after.IsAfter answer corpus table records

end

section
variable {answer : GenerationRequest → Except ErrorReport String} {corpus : Corpus}
  {key : ArtifactKey} {request : GenerationRequest} {report : ErrorReport}
  {table mid after : ArtifactTable} {record : DispatchRecord}
  {records earlier later : List DispatchRecord} {keys keys' : List ArtifactKey}
  {requests asked : List GenerationRequest} {source : String}

namespace ArtifactTable.IsAfter

theorem nil : table.IsAfter answer corpus table [] := by
  simp [IsAfter]

theorem append (h : mid.IsAfter answer corpus table earlier)
    (h' : after.IsAfter answer corpus mid later) :
    after.IsAfter answer corpus table (earlier ++ later) := by
  intro key source
  rw [h' key source, h key source, List.mem_append, or_and_right, or_assoc]

theorem of_not_isGenerated (h : record.outcome.isGenerated = false) :
    table.IsAfter answer corpus table [record] := by
  intro key source
  refine ⟨.inl, ?_⟩
  rintro (hfound | ⟨hmem, -⟩)
  · exact hfound
  · obtain rfl := List.mem_singleton.mp hmem
    cases h

theorem insert (h : table.get? key = none) (hasks : request.AsksFor corpus key)
    (hanswer : answer request = .ok source) :
    IsAfter answer corpus (table.insert key source) table
      [⟨key, .generated (ArtifactTable.handle key)⟩] := by
  intro other source'
  by_cases heq : other = key
  · subst heq
    rw [Table.get?_insert_self, h]
    constructor
    · intro hsource
      obtain rfl := Option.some.inj hsource
      exact .inr ⟨List.mem_singleton_self _, request, hasks, hanswer⟩
    · rintro (hnone | ⟨-, request', hasks', hanswer'⟩)
      · cases hnone
      · obtain rfl := hasks.unique hasks'
        rw [Except.ok.inj (hanswer.symm.trans hanswer')]
  · simp [Table.get?_insert_of_ne heq, heq]

end ArtifactTable.IsAfter

namespace DispatchedInTurn

theorem nil : DispatchedInTurn answer corpus table [] [] [] table where
  recorded := rfl
  told earlier record later h := absurd h (by simp)
  asked := .nil
  content := .nil

theorem single (htells : record.Tells answer corpus table)
    (hasked : List.Forall₂ (fun record request => request.AsksFor corpus record.key)
      ([record].filter fun record => !record.outcome.isExisting) asked)
    (hcontent : after.IsAfter answer corpus table [record]) :
    DispatchedInTurn answer corpus table [record.key] [record] asked after where
  recorded := rfl
  told earlier record' later hsplit := by
    rcases List.cons_eq_append_iff.mp hsplit with ⟨rfl, hcons⟩ | ⟨earlier, -, hnil⟩
    · obtain ⟨rfl, -⟩ := List.cons.inj hcons
      exact ⟨table, .nil, htells⟩
    · exact absurd hnil (by simp)
  asked := hasked
  content := hcontent

/-- Artifacts are dispatched in turn if some of them are and then the others. -/
theorem append (h : DispatchedInTurn answer corpus table keys earlier asked mid)
    (h' : DispatchedInTurn answer corpus mid keys' later requests after) :
    DispatchedInTurn answer corpus table (keys ++ keys') (earlier ++ later) (asked ++ requests)
      after where
  recorded := by rw [List.map_append, h.recorded, h'.recorded]
  told before record rest hsplit := by
    rcases List.append_eq_append_iff.mp hsplit with
      ⟨before', rfl, hlater⟩ | ⟨rest', hearlier, hrest⟩
    · obtain ⟨moment, hmoment, htells⟩ := h'.told before' record rest hlater
      exact ⟨moment, h.content.append hmoment, htells⟩
    · rcases List.cons_eq_append_iff.mp hrest with ⟨rfl, hlater⟩ | ⟨rest', rfl, -⟩
      · obtain ⟨moment, hmoment, htells⟩ := h'.told [] record rest hlater
        refine ⟨moment, ?_, htells⟩
        rw [List.append_nil] at hearlier
        rw [← hearlier, ← List.append_nil earlier]
        exact h.content.append hmoment
      · exact h.told before record rest' hearlier
  asked := by
    rw [List.filter_append]
    exact List.rel_append h.asked h'.asked
  content := h.content.append h'.content

/-- No request is made for an artifact for which none can be made. -/
theorem isFor_eq_false (h : DispatchedInTurn answer corpus table keys records requests after)
    (hrequest : requestFor corpus key = .error report) :
    ∀ request ∈ requests, request.isFor key = false := by
  intro request hmem
  obtain ⟨record, -, hasks⟩ := exists_of_forall₂ h.asked.flip hmem
  refine eq_false_of_ne_true fun hfor => ?_
  have hasked := GenerationRequest.requestFor_eq_ok.mpr hasks
  obtain rfl := GenerationRequest.eq_of_isFor hfor (GenerationRequest.isFor_of_requestFor hasked)
  cases hrequest.symm.trans hasked

theorem answered (h : DispatchedInTurn answer corpus table keys records requests after)
    {handle : ArtifactHandle} (hmem : ⟨key, .generated handle⟩ ∈ records)
    (hasks : request.AsksFor corpus key) :
    ∃ source, Generator.checked request (answer request) = .ok source := by
  obtain ⟨earlier, later, hsplit⟩ := List.append_of_mem hmem
  obtain ⟨moment, -, htells⟩ := h.told earlier _ later hsplit
  cases htells with
  | @generated _ request' source _ hasks' hanswer hfilled =>
      obtain rfl := hasks.unique hasks'
      refine ⟨source, ?_⟩
      rw [hanswer, Generator.checked, hfilled]
      rfl

/-- A gap stays a gap: the table has nothing for it in the end. -/
theorem get?_of_isGap (h : DispatchedInTurn answer corpus table keys records requests after)
    (hmem : record ∈ records) (hgap : record.outcome.isGap = true) :
    after.get? record.key = none := by
  obtain ⟨earlier, later, hsplit⟩ := List.append_of_mem hmem
  obtain ⟨moment, hmoment, htells⟩ := h.told earlier _ later hsplit
  cases htells with
  | existing => cases hgap
  | generated => cases hgap
  | failed hnone hasks hanswer =>
      refine Option.eq_none_iff_forall_ne_some.mpr fun source hsource => ?_
      rcases (h.content _ _).mp hsource with hbefore | ⟨hgenerated, -⟩
      · cases ((hmoment _ _).mpr (.inl hbefore)).symm.trans hnone
      · obtain ⟨source', hok⟩ := h.answered hgenerated hasks
        cases hok.symm.trans hanswer

end DispatchedInTurn

section
variable (answer corpus key table)

/-- A dispatch of one artifact stops at it if it is missing and cannot be asked for. Otherwise it
has a record of it. -/
theorem dispatchKey_turn :
    (∃ report, table.get? key = none ∧ requestFor corpus key = .error report ∧
      dispatchKey ArtifactTable.memo (some (.ofFunction answer)) corpus table key =
        { result := .error report, content := table }) ∨
    ∃ outcome after requests,
      dispatchKey ArtifactTable.memo (some (.ofFunction answer)) corpus table key =
        { result := .ok outcome, content := after, requests } ∧
      DispatchedInTurn answer corpus table [key] [⟨key, outcome⟩] requests after := by
  cases hfound : table.get? key with
  | some source =>
      refine .inr ⟨_, table, [], dispatchKey_existing _ (ArtifactTable.lookup_some hfound), ?_⟩
      exact .single (.existing hfound) .nil (.of_not_isGenerated rfl)
  | none =>
      have hlookup := ArtifactTable.lookup_none hfound
      cases hrequest : requestFor corpus key with
      | error report =>
          exact .inl ⟨report, rfl, rfl, dispatchKey_unaskable hlookup _ hrequest⟩
      | ok request =>
          have hasks := GenerationRequest.requestFor_eq_ok.mp hrequest
          right
          cases hanswer : Generator.checked request (answer request) with
          | error report =>
              have hsource := Generator.source_ofFunction table hanswer
              refine ⟨_, table, [request], dispatchKey_failed hlookup hrequest hsource, ?_⟩
              exact .single (.failed hfound hasks hanswer) (.cons hasks .nil)
                (.of_not_isGenerated rfl)
          | ok source =>
              have hsource := Generator.source_ofFunction table hanswer
              obtain ⟨hok, hfilled⟩ := Generator.checked_ok hanswer
              refine ⟨_, table.insert key source, [request],
                dispatchKey_recorded hlookup hrequest hsource, ?_⟩
              exact .single (.generated hfound hasks hok hfilled) (.cons hasks .nil)
                (.insert hfound hasks hok)

end

/-- A dispatch of several artifacts gets through them in turn, or as far as the first that is
missing and cannot be asked for. -/
theorem dispatchKeys_in_turn (answer : GenerationRequest → Except ErrorReport String)
    (corpus : Corpus) (keys : List ArtifactKey) (table : ArtifactTable) :
    (∃ records after requests events,
      dispatchKeys ArtifactTable.memo (some (.ofFunction answer)) corpus table keys =
        ⟨.ok records, after, requests, events⟩ ∧
      DispatchedInTurn answer corpus table keys records requests after) ∨
    ∃ report after requests events before key rest records,
      dispatchKeys ArtifactTable.memo (some (.ofFunction answer)) corpus table keys =
        ⟨.error report, after, requests, events⟩ ∧
      keys = before ++ key :: rest ∧ after.get? key = none ∧
      requestFor corpus key = .error report ∧
      DispatchedInTurn answer corpus table before records requests after := by
  induction keys generalizing table with
  | nil => exact .inl ⟨[], table, [], [], rfl, .nil⟩
  | cons key rest ih =>
      rcases dispatchKey_turn answer corpus key table with
        ⟨report, hmissing, hrequest, hfirst⟩ | ⟨outcome, mid, asked, hfirst, hturn⟩
      · refine .inr ⟨report, table, [], [], [], key, rest, [], ?_, rfl, hmissing, hrequest, .nil⟩
        rw [dispatchKeys_of_error (congrArg Dispatched.result hfirst), hfirst]
      · have hresult := congrArg Dispatched.result hfirst
        rcases ih mid with ⟨records, after, requests, events, hrest, hlater⟩ |
          ⟨report, after, requests, events, before, stop, others, records, hrest, hkeys, hmissing,
            hrequest, hlater⟩
        · refine .inl ⟨⟨key, outcome⟩ :: records, after, asked ++ requests,
            DispatchRecord.events ⟨key, outcome⟩ ++ events, ?_, hturn.append hlater⟩
          simp only [dispatchKeys_of_ok hresult, hfirst, hrest]
          rfl
        · refine .inr ⟨report, after, asked ++ requests,
            DispatchRecord.events ⟨key, outcome⟩ ++ events, key :: before, stop, others,
            ⟨key, outcome⟩ :: records, ?_, ?_, hmissing, hrequest, hturn.append hlater⟩
          · simp only [dispatchKeys_of_ok hresult, hfirst, hrest]
            rfl
          · rw [hkeys, List.cons_append]

end

/-- Whatever groups slots have, a dispatch that succeeds has one record for each of them, in the
order of the groups, and gets through their representatives in turn. It asks once, with the
definition that the representative gives the slot, for every artifact that the table lacks at that
moment. In the end the table has what it had and the answers that were generated, and nothing for a
gap. A dispatch that fails has stopped at a missing artifact that cannot be asked for. The table has
what the artifacts before that one have left, and no request was made for it. -/
theorem dispatchGroups_in_turn (answer : GenerationRequest → Except ErrorReport String)
    (corpus : Corpus) (slotGroups : List SlotGroups) (table : ArtifactTable) :
    let keys := slotGroups.flatMap fun entry =>
      entry.groups.map fun g => ArtifactKey.mk entry.slot g.representative
    let dispatched :=
      dispatchGroups ArtifactTable.memo (some (.ofFunction answer)) corpus table slotGroups
    match dispatched.result with
    | .ok records =>
        DispatchedInTurn answer corpus table keys records dispatched.requests
            dispatched.content ∧
          ∀ record ∈ records, record.outcome.isGap = true →
            dispatched.content.get? record.key = none
    | .error report =>
        ∃ before key rest records, keys = before ++ key :: rest ∧
          DispatchedInTurn answer corpus table before records dispatched.requests
            dispatched.content ∧
          dispatched.content.get? key = none ∧ requestFor corpus key = .error report ∧
          ∀ request ∈ dispatched.requests, request.isFor key = false := by
  intro keys dispatched
  rcases dispatchKeys_in_turn answer corpus keys table with
    ⟨records, after, requests, events, heq, hturn⟩ |
    ⟨report, after, requests, events, before, key, rest, records, heq, hkeys, hmissing, hrequest,
      hturn⟩
  · have hdispatched : dispatched = ⟨.ok records, after, requests, events⟩ := heq
    rw [hdispatched]
    exact ⟨hturn, fun record hmem hgap => hturn.get?_of_isGap hmem hgap⟩
  · have hdispatched : dispatched = ⟨.error report, after, requests, events⟩ := heq
    rw [hdispatched]
    exact ⟨before, key, rest, records, hkeys, hturn, hmissing, hrequest,
      hturn.isFor_eq_false hrequest⟩

/-- An artifact that is generated at one turn is there at the next. -/
example :
    let corpus : Corpus := .ofList [(1, ⟨.obj [("types", .obj [("item", .str "varint")])]⟩)]
    let entry : SlotGroups := ⟨.type ⟨.common, "item"⟩, [.single 1 none]⟩
    let answer := fun _ => .ok "pub struct Item;"
    let dispatched :=
      dispatchGroups ArtifactTable.memo (some (.ofFunction answer)) corpus .empty [entry, entry]
    dispatched.result.toOption.map (·.map (·.outcome.isExisting)) = some [false, true] ∧
      dispatched.requests.length = 1 := by
  decide +kernel

end VersionGroups
