import VersionGroups.Proofs.Artifact.Room
import VersionGroups.Proofs.Manifest.Failure
import VersionGroups.Proofs.Run.History

/-!
# Runs that are not refused

A run over a directory of artifacts is refused if a file in it cannot be written. That never happens
to runs in turn under accepted configurations that name their slots, if they start from a clear
directory and the paths of the artifacts are short enough: every run leaves the directory tidy, and
a tidy directory has room for the artifacts of the next one.
-/
namespace VersionGroups

/-- A dispatch was refused an access to a file. -/
def Dispatched.IsRefused {σ α : Type} (dispatch : Dispatched σ α) : Prop :=
  ∃ report, dispatch.result = .error report ∧ report.kind = .io

/-- The run with some inputs over a directory of artifacts. -/
def RunCall.runIn (directory : ArtifactDirectory) (call : RunCall) (tree : FileTree) :
    Dispatched FileTree RunOutcome :=
  VersionGroups.run call.runId directory.memo (call.answer?.map .ofFunction) call.corpus
    call.config tree

/-- Runs in turn, each over the directory that the run before it has left. -/
def historyIn (directory : ArtifactDirectory) (tree : FileTree) :
    List RunCall → List (Dispatched FileTree RunOutcome)
  | [] => []
  | call :: rest =>
      call.runIn directory tree :: historyIn directory (call.runIn directory tree).content rest

/-- Recording an artifact succeeds in every content that satisfies an invariant, and keeps it. -/
def Memo.Accepts {σ : Type} (memo : Memo σ) (inv : σ → Prop) (key : ArtifactKey) : Prop :=
  ∀ content source, inv content →
    ∃ handle content', memo.record content key source = (.ok handle, content') ∧ inv content'

section
variable {σ : Type} {memo : Memo σ} {inv : σ → Prop} {corpus : Corpus} {content : σ}
  (answer? : Option (GenerationRequest → Except ErrorReport String))

/-- A dispatch of an artifact that the memo accepts comes to an outcome. -/
theorem Memo.Accepts.dispatchKey_ok {key : ArtifactKey} (h : memo.Accepts inv key)
    {request : GenerationRequest} (hrequest : requestFor corpus key = .ok request)
    (hcontent : inv content) :
    (∃ outcome, (dispatchKey memo (answer?.map .ofFunction) corpus content key).result =
        .ok outcome) ∧
      inv (dispatchKey memo (answer?.map .ofFunction) corpus content key).content := by
  cases hlookup : memo.lookup content key with
  | some handle =>
      rw [dispatchKey_existing _ hlookup]
      exact ⟨⟨_, rfl⟩, hcontent⟩
  | none =>
      cases answer? with
      | none =>
          rw [Option.map_none, dispatchKey_unavailable hlookup]
          exact ⟨⟨_, rfl⟩, hcontent⟩
      | some answer =>
          rw [Option.map_some]
          cases hanswer : Generator.checked request (answer request) with
          | error report =>
              have hsource := Generator.source_ofFunction content hanswer
              rw [dispatchKey_failed hlookup hrequest hsource]
              exact ⟨⟨_, rfl⟩, hcontent⟩
          | ok source =>
              have hsource := Generator.source_ofFunction content hanswer
              obtain ⟨handle, content', hrecord, hcontent'⟩ := h content source hcontent
              rw [dispatchKey_recorded hlookup hrequest hsource, hrecord]
              exact ⟨⟨_, rfl⟩, hcontent'⟩

theorem dispatchKeys_ok {keys : List ArtifactKey} (h : ∀ key ∈ keys, memo.Accepts inv key)
    (hrequests : ∀ key ∈ keys, ∃ request, requestFor corpus key = .ok request)
    (hcontent : inv content) :
    (∃ records, (dispatchKeys memo (answer?.map .ofFunction) corpus content keys).result =
        .ok records) ∧
      inv (dispatchKeys memo (answer?.map .ofFunction) corpus content keys).content := by
  induction keys generalizing content with
  | nil => exact ⟨⟨[], rfl⟩, hcontent⟩
  | cons key rest ih =>
      obtain ⟨hkey, hrest⟩ := List.forall_mem_cons.mp h
      obtain ⟨⟨request, hrequest⟩, hlater⟩ := List.forall_mem_cons.mp hrequests
      obtain ⟨⟨outcome, houtcome⟩, hfirst⟩ := hkey.dispatchKey_ok answer? hrequest hcontent
      obtain ⟨⟨records, hrecords⟩, hlast⟩ := ih hrest hlater hfirst
      rw [dispatchKeys_of_ok houtcome]
      refine ⟨⟨⟨key, outcome⟩ :: records, ?_⟩, hlast⟩
      simp only [hrecords]
      rfl

end

/-- Under an accepted configuration, no failure of a computation is one of an access. -/
theorem compute_error_ne_io {text : String} {format : ConfigFormat} {config : SlotConfig}
    (hconfig : SlotConfig.ofText text format = .ok config) {corpus : Corpus}
    {report : ErrorReport} (h : (compute corpus config).value = .error report) :
    report.kind ≠ .io := by
  rcases compute_eq_error h with
    ⟨fault, hreduce, rfl⟩ | ⟨reduction, hreduce, hgroup | ⟨slotGroups, hgroups, hmade⟩⟩
  · obtain rfl := reduce_eq_error hreduce
    simp [ErrorReport.ofFault]
  · intro hio
    obtain ⟨before, slot, hfirst⟩ := firstFatal_of_groupSlots hgroup
    have hfatal := hfirst.fatal
    rw [hio] at hfatal
    cases hfatal
  · obtain ⟨computed, hcomputed⟩ := ofGroups_ok hconfig hgroups hreduce
    cases hcomputed.symm.trans hmade

section
variable {directory : ArtifactDirectory}

/-- The paths that storing the artifacts of a run looks up are short enough. -/
def RunCall.Fits (call : RunCall) (directory : ArtifactDirectory) : Prop :=
  ∀ slot ∈ call.config.registry.slots, ∀ v ∈ call.corpus.keys,
    ∀ path ∈ FileTree.accessed (directory.pathOf ⟨slot, v⟩), Path.Fits path

instance (call : RunCall) : Decidable (call.Fits directory) :=
  inferInstanceAs (Decidable (∀ slot ∈ call.config.registry.slots, ∀ v ∈ call.corpus.keys,
    ∀ path ∈ FileTree.accessed (directory.pathOf ⟨slot, v⟩), Path.Fits path))

/-- A run over a tidy directory is not refused and leaves the directory tidy. -/
theorem ArtifactDirectory.IsTidy.runIn {tree : FileTree} (h : directory.IsTidy tree)
    (hroot : ".." ∉ Path.pieces directory.path) {call : RunCall} {text : String}
    {format : ConfigFormat} (haccepted : SlotConfig.ofText text format = .ok call.config)
    (hnamed : ∀ slot ∈ call.config.registry.slots, slot.IsNamed) (hfits : call.Fits directory) :
    ¬(call.runIn directory tree).IsRefused ∧
      directory.IsTidy (call.runIn directory tree).content := by
  cases hcompute : (compute call.corpus call.config).value with
  | error report =>
      have hrun : (call.runIn directory tree).result = .error (report.inRun call.runId) ∧
          (call.runIn directory tree).content = tree ∧
          (call.runIn directory tree).requests = [] := run_of_error hcompute
      obtain ⟨hresult, hcontent, -⟩ := hrun
      refine ⟨?_, ?_⟩
      · rintro ⟨report', hrefused, hio⟩
        obtain rfl := Except.error.inj (hresult.symm.trans hrefused)
        exact compute_error_ne_io haccepted hcompute hio
      · rw [hcontent]
        exact h
  | ok computed =>
      have hmade := madeFrom_of_compute hcompute
      have haccepts : ∀ key ∈ computed.artifactKeys,
          directory.memo.Accepts directory.IsTidy key := by
        intro key hkey tree source htidy
        have hslot := (hmade.mem_artifactKeys.mp hkey).1
        have hversion : key.version ∈ call.corpus.keys := by
          obtain ⟨d, hd⟩ := Table.contains_iff.mp (hmade.contains_of_artifactKey hkey)
          exact List.mem_map_of_mem (f := Prod.fst) hd
        have hfiled := SlotConfig.isFiled_of_accepted haccepted hslot (hnamed _ hslot)
        obtain ⟨tree', hstore, htidy'⟩ :=
          htidy.store hfiled hroot (hfits _ hslot _ hversion) source
        exact ⟨_, tree', hstore, htidy'⟩
      obtain ⟨⟨records, hrecords⟩, htidy⟩ := dispatchKeys_ok call.answer? haccepts
        (fun _ => hmade.requestFor_ok) h
      generalize hdispatch : dispatchKeys directory.memo (call.answer?.map .ofFunction)
        computed.reduction.kept tree computed.artifactKeys = dispatched at hrecords htidy
      obtain ⟨result, after, requests, events⟩ := dispatched
      obtain rfl : result = .ok records := hrecords
      have hrun : (call.runIn directory tree).result = .ok ⟨computed, records⟩ ∧
          (call.runIn directory tree).content = after ∧
          (call.runIn directory tree).requests = requests := run_of_ok hcompute hdispatch
      obtain ⟨hresult, hcontent, -⟩ := hrun
      refine ⟨?_, ?_⟩
      · rintro ⟨report, hrefused, -⟩
        cases hresult.symm.trans hrefused
      · rw [hcontent]
        exact htidy

/-- No run of a history is refused that starts from a clear directory, if every configuration is
accepted and names its slots and the paths are short enough. -/
theorem history_not_refused {tree : FileTree} {calls : List RunCall}
    (hclear : directory.IsClear tree) (hroot : ".." ∉ Path.pieces directory.path)
    (haccepted : ∀ call ∈ calls, ∃ text format, SlotConfig.ofText text format = .ok call.config)
    (hnamed : ∀ call ∈ calls, ∀ slot ∈ call.config.registry.slots, slot.IsNamed)
    (hfits : ∀ call ∈ calls, call.Fits directory) :
    ∀ run ∈ historyIn directory tree calls, ¬run.IsRefused := by
  have htidy := hclear.isTidy
  clear hclear
  induction calls generalizing tree with
  | nil => simp [historyIn]
  | cons call rest ih =>
      obtain ⟨⟨text, format, hconfig⟩, haccepted⟩ := List.forall_mem_cons.mp haccepted
      obtain ⟨hfirst, hnamed⟩ := List.forall_mem_cons.mp hnamed
      obtain ⟨hshort, hfits⟩ := List.forall_mem_cons.mp hfits
      obtain ⟨hallowed, htidy'⟩ := htidy.runIn hroot hconfig hfirst hshort
      exact List.forall_mem_cons.mpr ⟨hallowed, ih haccepted hnamed hfits htidy'⟩

end

end VersionGroups
