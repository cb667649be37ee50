import VersionGroups.Artifact.Dispatch
import VersionGroups.Proofs.Table

/-!
# Dispatching over a table

A dispatch does one of five things about an artifact. It may not come to it. It leaves an artifact
alone that the table has. One that the table lacks stays missing without a generator, or if the
answer is no source, and is added with the source that the generator gives. A dispatch of several
artifacts does one of these things about each of them, as if it were the only one.
-/
namespace VersionGroups

theorem Direction.append_inj {d e : Direction} {s t : String} (h : d.name ++ s = e.name ++ t) :
    d = e ∧ s = t := by
  have hlists : d.name.toList ++ s.toList = e.name.toList ++ t.toList := by
    rw [← String.toList_append, h, String.toList_append]
  have hlength : d.name.toList.length = e.name.toList.length := by
    cases d <;> cases e <;> rfl
  obtain ⟨hname, hrest⟩ := List.append_inj hlists hlength
  exact ⟨Direction.name_injective (String.toList_inj.mp hname), String.toList_inj.mp hrest⟩

theorem PacketName.label_ne (p : PacketName) (t : TypeName) : p.label ≠ t.label := by
  intro h
  have hhead := congrArg (fun s : String => s.toList.head?) h
  obtain ⟨d, state, name⟩ := p
  cases d <;> simp [PacketName.label, TypeName.label, Direction.name] at hhead

/-- A path that leads through a direction is longer than the name at its end. -/
theorem Direction.path_ne (d : Direction) (state name : String) :
    d.name ++ "." ++ state ++ "." ++ name ≠ name := by
  intro h
  have hlength := congrArg String.length h
  simp only [String.length_append] at hlength
  have hpoint : ".".length = 1 := rfl
  omega

/-- A slot is known by its label together with the last segment of it, which tells the points
between segments from those inside them. -/
theorem Slot.eq_of_label_name {s t : Slot} (hlabel : s.label = t.label) (hname : s.name = t.name) :
    s = t := by
  have hsegments : ∀ {d e : Direction} {state state' name : String},
      d.name ++ "." ++ state ++ "." ++ name = e.name ++ "." ++ state' ++ "." ++ name →
        d = e ∧ state = state' := by
    intro d e state state' name h
    simp only [String.append_assoc] at h
    obtain ⟨rfl, h⟩ := Direction.append_inj h
    simp only [String.append_left_inj, String.append_right_inj, ← String.append_assoc] at h
    exact ⟨rfl, h⟩
  rcases s with ⟨d, state, n⟩ | ⟨scope, n⟩ <;> rcases t with ⟨d', state', n'⟩ | ⟨scope', n'⟩
  · obtain rfl : n = n' := hname
    obtain ⟨rfl, rfl⟩ := hsegments hlabel
    rfl
  · exact absurd hlabel (PacketName.label_ne _ _)
  · exact absurd hlabel.symm (PacketName.label_ne _ _)
  · obtain rfl : n = n' := hname
    have hpath := String.append_right_inj _ |>.mp hlabel
    rcases scope with _ | ⟨d, state⟩ <;> rcases scope' with _ | ⟨d', state'⟩
    · rfl
    · exact absurd hpath.symm (Direction.path_ne d' state' n)
    · exact absurd hpath (Direction.path_ne d state n)
    · obtain ⟨rfl, rfl⟩ := hsegments hpath
      rfl

namespace GenerationRequest

def isFor (request : GenerationRequest) (key : ArtifactKey) : Bool :=
  request.name == key.slot.name && request.slot == key.slot.label && request.version == key.version

theorem isFor_iff {request : GenerationRequest} {key : ArtifactKey} :
    request.isFor key = true ↔
      request.name = key.slot.name ∧ request.slot = key.slot.label ∧
        request.version = key.version := by
  simp [isFor, and_assoc]

theorem eq_of_isFor {request : GenerationRequest} {key key' : ArtifactKey}
    (h : request.isFor key = true) (h' : request.isFor key' = true) : key = key' := by
  obtain ⟨hname, hslot, hversion⟩ := isFor_iff.mp h
  obtain ⟨hname', hslot', hversion'⟩ := isFor_iff.mp h'
  obtain ⟨slot, version⟩ := key
  obtain ⟨slot', version'⟩ := key'
  obtain rfl : slot = slot' :=
    Slot.eq_of_label_name (hslot.symm.trans hslot') (hname.symm.trans hname')
  obtain rfl : version = version' := hversion.symm.trans hversion'
  rfl

/-- A request asks for the artifact of a slot that starts at a version, with the definition that the
document of this version gives the slot. -/
structure AsksFor (request : GenerationRequest) (corpus : Corpus) (key : ArtifactKey) : Prop where
  name : request.name = key.slot.name
  slot : request.slot = key.slot.label
  version : request.version = key.version
  spec : ∃ document, corpus.get? key.version = some document ∧
    (View.mk key.version document).slotSpec? key.slot = .ok (some request.spec)

section
variable {corpus : Corpus} {key : ArtifactKey} {request request' : GenerationRequest}

theorem requestFor_eq_ok : requestFor corpus key = .ok request ↔ request.AsksFor corpus key := by
  constructor
  · intro h
    rw [requestFor] at h
    split at h
    · cases h
    · rename_i document hdocument
      split at h
      · cases h
      · cases h
      · rename_i spec hspec
        obtain rfl := Except.ok.inj h
        exact ⟨rfl, rfl, rfl, document, hdocument, hspec⟩
  · rintro ⟨hname, hslot, hversion, document, hdocument, hspec⟩
    obtain ⟨name, slot, version, spec⟩ := request
    obtain rfl : name = _ := hname
    obtain rfl : slot = _ := hslot
    obtain rfl : version = _ := hversion
    simp only [requestFor, hdocument, hspec]

theorem AsksFor.unique (h : request.AsksFor corpus key) (h' : request'.AsksFor corpus key) :
    request = request' :=
  Except.ok.inj ((requestFor_eq_ok.mpr h).symm.trans (requestFor_eq_ok.mpr h'))

theorem isFor_of_requestFor (h : requestFor corpus key = .ok request) :
    request.isFor key = true :=
  have hasks := requestFor_eq_ok.mp h
  isFor_iff.mpr ⟨hasks.name, hasks.slot, hasks.version⟩

end

end GenerationRequest

def outcomesOf (key : ArtifactKey) (records : List DispatchRecord) : List Outcome :=
  (records.filter fun record => decide (record.key = key)).map (·.outcome)

theorem outcomesOf_eq_nil {key : ArtifactKey} {records : List DispatchRecord}
    (h : key ∉ records.map (·.key)) : outcomesOf key records = [] := by
  rw [outcomesOf, List.map_eq_nil_iff, List.filter_eq_nil_iff]
  intro record hrecord hkey
  exact h (of_decide_eq_true hkey ▸ List.mem_map_of_mem hrecord)

/-- `Effect answer? key before outcomes after requests` says what a dispatch has done about an
artifact: from the source that the table had for it to the one that it has now, by which requests,
and with which outcomes. -/
inductive Effect (answer? : Option (GenerationRequest → Except ErrorReport String))
    (key : ArtifactKey) :
    Option String → List Outcome → Option String → List GenerationRequest → Prop
  | untouched (source? : Option String) : Effect answer? key source? [] source? []
  | existing (source : String) :
      Effect answer? key (some source) [.existing (ArtifactTable.handle key)] (some source) []
  | unavailable (h : answer? = none) :
      Effect answer? key none
        [.ofFailure (.ofFault (.generationUnavailable key.slot.label key.version))] none []
  | failed {answer request report} (h : answer? = some answer) (hfor : request.isFor key = true)
      (hanswer : Generator.checked request (answer request) = .error report) :
      Effect answer? key none [.ofFailure report] none [request]
  | generated {answer request source} (h : answer? = some answer)
      (hfor : request.isFor key = true) (hanswer : answer request = .ok source)
      (hfilled : isBlankText source = false) :
      Effect answer? key none [.generated (ArtifactTable.handle key)] (some source) [request]

section
variable {σ : Type} {memo : Memo σ} {corpus : Corpus} {content content' : σ} {key : ArtifactKey}
  {request : GenerationRequest} {source : String} {report : ErrorReport}

theorem dispatchKey_existing {handle : ArtifactHandle} (generator : Option (Generator σ))
    (h : memo.lookup content key = some handle) :
    dispatchKey memo generator corpus content key =
      { result := .ok (.existing handle), content } := by
  simp only [dispatchKey, h]

section
variable (h : memo.lookup content key = none)
include h

theorem dispatchKey_unavailable : dispatchKey memo none corpus content key =
    { result := .ok (.ofFailure (.ofFault (.generationUnavailable key.slot.label key.version)))
      content } := by
  rw [dispatchKey, h]

theorem dispatchKey_unaskable (generator : Generator σ)
    (hrequest : requestFor corpus key = .error report) :
    dispatchKey memo (some generator) corpus content key =
      { result := .error report, content } := by
  simp only [dispatchKey, h, hrequest]

variable {generator : Generator σ} (hrequest : requestFor corpus key = .ok request)
include hrequest

theorem dispatchKey_failed
    (hsource : generator.source request content = (.error report, content')) :
    dispatchKey memo (some generator) corpus content key =
      { result := .ok (.ofFailure report), content := content', requests := [request] } := by
  simp only [dispatchKey, h, hrequest, hsource]

theorem dispatchKey_recorded
    (hsource : generator.source request content = (.ok source, content')) :
    dispatchKey memo (some generator) corpus content key =
      { result := (memo.record content' key source).1.map .generated
        content := (memo.record content' key source).2
        requests := [request] } := by
  simp only [dispatchKey, h, hrequest, hsource]
  rcases memo.record content' key source with ⟨_ | handle, recorded⟩ <;> rfl

end

end

section
variable {σ : Type} {memo : Memo σ} {generator : Option (Generator σ)} {corpus : Corpus}
  {content : σ} {key : ArtifactKey} {rest : List ArtifactKey}

theorem dispatchKeys_of_error {report : ErrorReport}
    (h : (dispatchKey memo generator corpus content key).result = .error report) :
    dispatchKeys memo generator corpus content (key :: rest) =
      { result := .error report
        content := (dispatchKey memo generator corpus content key).content
        requests := (dispatchKey memo generator corpus content key).requests } := by
  rw [dispatchKeys, h]

theorem dispatchKeys_of_ok {outcome : Outcome}
    (h : (dispatchKey memo generator corpus content key).result = .ok outcome) :
    dispatchKeys memo generator corpus content (key :: rest) =
      let first := dispatchKey memo generator corpus content key
      let others := dispatchKeys memo generator corpus first.content rest
      { result := others.result.map (⟨key, outcome⟩ :: ·)
        content := others.content
        requests := first.requests ++ others.requests
        events := DispatchRecord.events ⟨key, outcome⟩ ++ others.events } := by
  rw [dispatchKeys, h]

section
variable (keeps : σ → Prop)
  (hrecord : ∀ content key source, keeps content → keeps (memo.record content key source).2)
  (hgenerator : ∀ g ∈ generator, ∀ request content, keeps content → keeps (g request content).2)
include hrecord hgenerator

/-- What recording an artifact and generating a source keep, a dispatch keeps. -/
theorem dispatchKey_keeps (h : keeps content) :
    keeps (dispatchKey memo generator corpus content key).content := by
  cases hlookup : memo.lookup content key with
  | some handle =>
      rw [dispatchKey_existing _ hlookup]
      exact h
  | none =>
      cases generator with
      | none =>
          rw [dispatchKey_unavailable hlookup]
          exact h
      | some g =>
          cases hrequest : requestFor corpus key with
          | error report =>
              rw [dispatchKey_unaskable hlookup _ hrequest]
              exact h
          | ok request =>
              have hkept : keeps (g.source request content).2 := hgenerator g rfl request content h
              rcases hsource : g.source request content with ⟨report | source, content'⟩
              · rw [hsource] at hkept
                rw [dispatchKey_failed hlookup hrequest hsource]
                exact hkept
              · rw [hsource] at hkept
                rw [dispatchKey_recorded hlookup hrequest hsource]
                exact hrecord content' key source hkept

theorem dispatchKeys_keeps {keys : List ArtifactKey} (h : keeps content) :
    keeps (dispatchKeys memo generator corpus content keys).content := by
  induction keys generalizing content with
  | nil => exact h
  | cons key rest ih =>
      have hfirst : keeps (dispatchKey memo generator corpus content key).content :=
        dispatchKey_keeps keeps hrecord hgenerator h
      cases hresult : (dispatchKey memo generator corpus content key).result with
      | error report =>
          rw [dispatchKeys_of_error hresult]
          exact hfirst
      | ok outcome =>
          rw [dispatchKeys_of_ok hresult]
          exact ih hfirst

end

end

section
variable {answer? : Option (GenerationRequest → Except ErrorReport String)} {corpus : Corpus}
  {key : ArtifactKey}

namespace Effect
variable {before after : Option String} {outcomes : List Outcome}
  {requests : List GenerationRequest}

theorem eq_of_nil (h : Effect answer? key before [] after requests) :
    after = before ∧ requests = [] := by
  cases h
  exact ⟨rfl, rfl⟩

theorem of_some {source : String} (h : Effect answer? key (some source) outcomes after requests) :
    (∀ outcome ∈ outcomes, outcome.isExisting = true) ∧ after = some source ∧ requests = [] := by
  cases h with
  | untouched => exact ⟨fun _ h => absurd h List.not_mem_nil, rfl, rfl⟩
  | existing => exact ⟨by simp [Outcome.isExisting], rfl, rfl⟩

/-- An artifact that the table lacks stays missing, or it is generated. -/
theorem of_none (h : Effect answer? key none outcomes after requests) :
    ((∀ outcome ∈ outcomes, outcome.isGap = true) ∧ after = none) ∨
      ∃ answer request source, answer? = some answer ∧ requests = [request] ∧
        answer request = .ok source ∧ isBlankText source = false ∧
        outcomes = [.generated (ArtifactTable.handle key)] ∧ after = some source := by
  cases h with
  | untouched => exact .inl ⟨fun _ h => absurd h List.not_mem_nil, rfl⟩
  | unavailable => exact .inl ⟨by simp [Outcome.ofFailure, Outcome.isGap], rfl⟩
  | failed => exact .inl ⟨by simp [Outcome.ofFailure, Outcome.isGap], rfl⟩
  | generated hanswer _ hok hfilled =>
      exact .inr ⟨_, _, _, hanswer, rfl, hok, hfilled, rfl, rfl⟩

/-- A dispatch that comes to a missing artifact adds it if the generator has a source for it. -/
theorem exists_source {answer : GenerationRequest → Except ErrorReport String}
    (h : Effect answer? key none outcomes after requests) (hreached : outcomes ≠ [])
    (hanswer : answer? = some answer)
    (hsource : ∀ request, request.isFor key = true →
      ∃ source, Generator.checked request (answer request) = .ok source) :
    ∃ source, after = some source := by
  cases h with
  | untouched => exact absurd rfl hreached
  | unavailable hnone => cases hanswer.symm.trans hnone
  | @failed answer' request report hanswer' hfor hfailed =>
      obtain rfl := Option.some.inj (hanswer.symm.trans hanswer')
      obtain ⟨source, hok⟩ := hsource request hfor
      cases hok.symm.trans hfailed
  | @generated _ _ source => exact ⟨source, rfl⟩

end Effect

theorem Generator.checked_ok {request : GenerationRequest} {answer : Except ErrorReport String}
    {source : String} (h : Generator.checked request answer = .ok source) :
    answer = .ok source ∧ isBlankText source = false := by
  cases answer with
  | error report => cases h
  | ok source' =>
      rw [Generator.checked] at h
      split at h
      · cases h
      · rename_i hfilled
        obtain rfl := Except.ok.inj h
        exact ⟨rfl, eq_false_of_ne_true hfilled⟩

theorem ArtifactTable.lookup_some {table : ArtifactTable} {source : String}
    (h : table.get? key = some source) :
    ArtifactTable.memo.lookup table key = some (ArtifactTable.handle key) :=
  congrArg (Option.map _) h

theorem ArtifactTable.lookup_none {table : ArtifactTable} (h : table.get? key = none) :
    ArtifactTable.memo.lookup table key = none :=
  congrArg (Option.map _) h

theorem Generator.source_ofFunction {σ : Type} (content : σ) {request : GenerationRequest}
    {answer : GenerationRequest → Except ErrorReport String} {result : Except ErrorReport String}
    (h : checked request (answer request) = result) :
    source (.ofFunction answer) request content = (result, content) :=
  congrArg (·, content) h

/-- A dispatch of one artifact that can be asked for comes to an outcome, and changes the table
under its key at most. -/
theorem dispatchKey_table (answer? : Option (GenerationRequest → Except ErrorReport String))
    {request : GenerationRequest} (table : ArtifactTable)
    (hrequest : requestFor corpus key = .ok request) :
    ∃ outcome after requests,
      dispatchKey ArtifactTable.memo (answer?.map .ofFunction) corpus table key =
        { result := .ok outcome, content := after, requests } ∧
      Effect answer? key (table.get? key) [outcome] (after.get? key) requests ∧
      (∀ other, other ≠ key → after.get? other = table.get? other) ∧
      ∀ r ∈ requests, r.isFor key = true := by
  have hfor := GenerationRequest.isFor_of_requestFor hrequest
  cases hfound : table.get? key with
  | some source =>
      refine ⟨_, table, [], dispatchKey_existing _ (ArtifactTable.lookup_some hfound), ?_,
        fun _ _ => rfl, by simp⟩
      rw [hfound]
      exact .existing source
  | none =>
      have hlookup := ArtifactTable.lookup_none hfound
      cases answer? with
      | none =>
          refine ⟨_, table, [], dispatchKey_unavailable hlookup, ?_, fun _ _ => rfl, by simp⟩
          rw [hfound]
          exact .unavailable rfl
      | some answer =>
          cases hanswer : Generator.checked request (answer request) with
          | error report =>
              have hsource := Generator.source_ofFunction table hanswer
              refine ⟨_, table, [request], dispatchKey_failed hlookup hrequest hsource, ?_,
                fun _ _ => rfl, by simpa using hfor⟩
              rw [hfound]
              exact .failed rfl hfor hanswer
          | ok source =>
              have hsource := Generator.source_ofFunction table hanswer
              obtain ⟨hok, hfilled⟩ := Generator.checked_ok hanswer
              refine ⟨_, table.insert key source, [request],
                dispatchKey_recorded hlookup hrequest hsource, ?_,
                fun other hne => Table.get?_insert_of_ne hne source, by simpa using hfor⟩
              rw [Table.get?_insert_self]
              exact .generated rfl hfor hok hfilled

/-- A dispatch of distinct artifacts that can be asked for has one record for each of them, in
turn, and does one thing about every artifact. -/
theorem dispatchKeys_table (answer? : Option (GenerationRequest → Except ErrorReport String))
    {keys : List ArtifactKey} (hkeys : keys.Nodup)
    (hrequests : ∀ key ∈ keys, ∃ request, requestFor corpus key = .ok request)
    (table : ArtifactTable) :
    ∃ records after requests events,
      dispatchKeys ArtifactTable.memo (answer?.map .ofFunction) corpus table keys =
        ⟨.ok records, after, requests, events⟩ ∧
      records.map (·.key) = keys ∧
      ∀ key, Effect answer? key (table.get? key) (outcomesOf key records) (after.get? key)
        (requests.filter (·.isFor key)) := by
  induction keys generalizing table with
  | nil => exact ⟨[], table, [], [], rfl, rfl, fun key => .untouched _⟩
  | cons k rest ih =>
      obtain ⟨hk, hrest⟩ := List.nodup_cons.mp hkeys
      obtain ⟨⟨request, hrequest⟩, hlater⟩ := List.forall_mem_cons.mp hrequests
      obtain ⟨outcome, mid, asked, hfirst, heffect, hother, hasked⟩ :=
        dispatchKey_table answer? table hrequest
      obtain ⟨records, after, requests, events, hothers, hmap, heffects⟩ := ih hrest hlater mid
      refine ⟨⟨k, outcome⟩ :: records, after, asked ++ requests,
        DispatchRecord.events ⟨k, outcome⟩ ++ events, ?_, ?_, ?_⟩
      · rw [dispatchKeys, hfirst]
        simp only [hothers]
        rfl
      · rw [List.map_cons, hmap]
      · intro key
        have hlast := heffects key
        rw [List.filter_append]
        by_cases heq : k = key
        · subst heq
          -- The dispatch does not come to this artifact again.
          have hnone : outcomesOf k records = [] := outcomesOf_eq_nil (hmap ▸ hk)
          rw [hnone] at hlast
          obtain ⟨hafter, hunasked⟩ := hlast.eq_of_nil
          have houtcomes : outcomesOf k (⟨k, outcome⟩ :: records) = [outcome] := by
            simpa [outcomesOf] using hnone
          rw [houtcomes, hafter, hunasked, List.append_nil,
            List.filter_eq_self.mpr fun r hr => hasked r hr]
          exact heffect
        · have houtcomes : outcomesOf key (⟨k, outcome⟩ :: records) = outcomesOf key records := by
            simp [outcomesOf, heq]
          have hunasked : asked.filter (·.isFor key) = [] := by
            refine List.filter_eq_nil_iff.mpr fun r hr hfor => heq ?_
            exact GenerationRequest.eq_of_isFor (hasked r hr) hfor
          rw [houtcomes, hunasked, List.nil_append, ← hother key (Ne.symm heq)]
          exact hlast

end

end VersionGroups
