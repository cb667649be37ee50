import VersionGroups.CommandLine.Commands
import VersionGroups.Proofs.Artifact.Places
import VersionGroups.Proofs.Manifest.Coverage
import VersionGroups.Proofs.Manifest.Rendering

/-!
# The manifest on file

A run of the command writes artifacts and, at the end, the manifest. Neither the artifacts nor their
neighbours can be taken for the manifest or for a file that the inputs are read from, so the
manifest stays as it is until it is replaced as a whole, and the inputs are read the same after the
run. A check that follows a run therefore finds the manifest up to date.
-/
namespace VersionGroups

namespace CommandLine
variable {inputs : Inputs} {tree tree' : FileTree} {loaded : LoadedCorpus} {config : SlotConfig}
  {manifest artifacts name : String} {host : Host} {program : Option String}
  {extra : List String}

theorem within_eq_ok {α : Type} {action : String} {result : Except ErrorReport α} {a : α} :
    within action result = .ok a ↔ result = .ok a := by
  cases result <;> simp [within, Except.mapError]

/-- Inputs load if the configuration and a corpus with versions can be read. -/
theorem load_eq_ok : inputs.load tree = .ok (loaded, config) ↔
    SlotConfig.ofFile tree inputs.slots = .ok config ∧
      LoadedCorpus.load tree.access inputs.dataDirectory inputs.filter = .ok loaded ∧
        loaded.corpus.isEmpty = false := by
  rw [Inputs.load]
  constructor
  · intro h
    obtain ⟨config', hconfig, h⟩ := bind_eq_ok.mp h
    obtain ⟨loaded', hloaded, h⟩ := bind_eq_ok.mp h
    split at h
    · cases h
    · rename_i hfilled
      cases h
      exact ⟨within_eq_ok.mp hconfig, within_eq_ok.mp hloaded, by simpa using hfilled⟩
  · rintro ⟨hconfig, hloaded, hfilled⟩
    refine bind_eq_ok.mpr ⟨config, within_eq_ok.mpr hconfig, ?_⟩
    refine bind_eq_ok.mpr ⟨loaded, within_eq_ok.mpr hloaded, ?_⟩
    rw [hfilled, if_neg Bool.false_ne_true]
    rfl

theorem exists_format_of_ofFile {path : String} (h : SlotConfig.ofFile tree path = .ok config) :
    ∃ format, ConfigFormat.ofPath? path = some format := by
  rw [SlotConfig.ofFile] at h
  split at h
  · cases h
  · rename_i format hformat
    exact ⟨format, hformat⟩

section
variable {places : Location → Prop} (hchanges : tree.ChangesOnly tree' places)
include hchanges

/-- A configuration file at another place is read the same. -/
theorem ofFile_of_changes {path : String} (hplace : ¬places (Path.location path))
    (h : SlotConfig.ofFile tree path = .ok config) : SlotConfig.ofFile tree' path = .ok config := by
  rw [SlotConfig.ofFile] at h ⊢
  split at h
  · cases h
  · split at h
    · cases h
    · rename_i text htext
      obtain ⟨bytes, hbytes, hdecoded⟩ := bind_eq_ok.mp htext
      obtain ⟨entry, hfind, hfile⟩ := bind_eq_ok.mp hbytes
      have hsame : tree'.find path = tree.find path := (hchanges.find hplace hfind).trans hfind.symm
      have htext' : tree'.readText path = .ok text := by
        rw [← htext, FileTree.readText, FileTree.readText, FileTree.readBytes,
          FileTree.readBytes, hsame]
      rw [htext']
      exact h

/-- Inputs of which no file has changed load with the same corpus and configuration. -/
theorem load_of_changes (hsound : tree.IsSound) (hsound' : tree'.IsSound)
    (hplaces : ∀ folder name, (∀ n ∈ folder ++ [name], Path.IsName n) →
      name ∈ LoadedCorpus.fileNames →
        ¬places (Path.location inputs.dataDirectory ++ (folder ++ [name])))
    (hslots : ¬places (Path.location inputs.slots))
    (h : inputs.load tree = .ok (loaded, config)) :
    ∃ loaded', inputs.load tree' = .ok (loaded', config) ∧ loaded'.corpus = loaded.corpus := by
  obtain ⟨hconfig, hload, hfilled⟩ := load_eq_ok.mp h
  obtain ⟨loaded', hload', hcontent⟩ :=
    LoadedCorpus.load_of_changes hchanges hsound hsound' hplaces hload
  have hcorpus : loaded'.corpus = loaded.corpus := congrArg Prod.fst hcontent
  refine ⟨loaded', load_eq_ok.mpr ⟨ofFile_of_changes hchanges hslots hconfig, hload', ?_⟩, hcorpus⟩
  rw [hcorpus, hfilled]

end

theorem checkManifest_of_compute {corpus : Corpus} {computed : Computed}
    (h : (compute corpus config).value = .ok computed) :
    (checkManifest corpus config (some computed.text)).value = .ok (.upToDate computed.digest) := by
  rw [checkManifest, Logged.value_thenTry]
  refine bind_eq_ok.mpr ⟨computed, h, ?_⟩
  rw [Computed.status, (rendered_of_compute h).2, Option.map_some, if_pos rfl]

theorem executeCheck_of_compute {computed : Computed}
    (hload : inputs.load tree = .ok (loaded, config))
    (hcompute : (compute loaded.corpus config).value = .ok computed)
    (hfile : tree.find manifest = .ok (.file computed.text.toUTF8)) :
    ∃ output, executeCheck inputs manifest tree = .ok output := by
  have hread : readManifest tree manifest = .ok (some computed.text) := by
    rw [readManifest, FileTree.readText_of_find hfile]
  refine ⟨_, bind_eq_ok.mpr ⟨(loaded, config), hload, bind_eq_ok.mpr ⟨some computed.text, ?_,
    bind_eq_ok.mpr ⟨.upToDate computed.digest, ?_, rfl⟩⟩⟩⟩
  · rw [hread]
    rfl
  · rw [checkManifest_of_compute hcompute]
    rfl

theorem executeRun_of_load_error {message : String} (h : inputs.load tree = .error message) :
    executeRun host inputs manifest artifacts program extra tree =
      (.error message, tree) := by
  rw [executeRun, h]

theorem executeRun_of_compute_error {report : ErrorReport}
    (hload : inputs.load tree = .ok (loaded, config))
    (hcompute : (compute loaded.corpus config).value = .error report) :
    ∃ message, executeRun host inputs manifest artifacts program extra tree =
      (.error message, tree) := by
  have hrun : ∀ done, VersionGroups.run "run" (ArtifactDirectory.mk artifacts).memo
      (generatorOf host program extra) loaded.corpus config tree = done →
        done.result = .error (report.inRun "run") ∧ done.content = tree := by
    rintro done rfl
    exact ⟨(run_of_error hcompute).1, (run_of_error hcompute).2.1⟩
  obtain ⟨hresult, hcontent⟩ := hrun _ rfl
  refine ⟨(report.inRun "run").text, ?_⟩
  rw [executeRun, hload]
  dsimp only
  rw [hresult, hcontent]

/-- The places that a run may change: those of artifacts, the neighbour of the manifest and, if the
run succeeds, the manifest. -/
def IsTouched (manifest : String) (result : Except String String) (location : Location) : Prop :=
  ArtifactKey.IsPlace location ∨ location = Path.location (FileTree.neighbour manifest) ∨
    (∃ output, result = .ok output) ∧ location = Path.location manifest

theorem not_isTouched_manifest (hname : Path.fileName? manifest = some name)
    (hfile : ¬ArtifactKey.IsFileName name) {result : Except String String}
    (hfailed : ¬∃ output, result = .ok output) :
    ¬IsTouched manifest result (Path.location manifest) := by
  obtain ⟨-, parent, -, -, hlocation, -⟩ := Path.parent?_of_fileName hname
  rintro (hplace | hbeside | ⟨hok, -⟩)
  · exact ArtifactKey.not_isPlace hlocation hfile hplace
  · exact FileTree.location_neighbour_ne hname hbeside.symm
  · exact hfailed hok

/-- What the execution of a run may have changed, and what it has written if it succeeds. -/
theorem executeRun_spec (hname : Path.fileName? manifest = some name)
    (hgenerator : (ArtifactDirectory.mk artifacts).Spares
      (generatorOf host program extra) tree) {result : Except String String}
    (h : executeRun host inputs manifest artifacts program extra tree = (result, tree')) :
    tree.ChangesOnly tree' (IsTouched manifest result) ∧
      (tree.IsSound → tree'.IsSound) ∧
      ∀ output, result = .ok output → ∃ loaded config computed,
        inputs.load tree = .ok (loaded, config) ∧
          (compute loaded.corpus config).value = .ok computed ∧
            tree'.find manifest = .ok (.file computed.text.toUTF8) := by
  rw [executeRun] at h
  cases hload : inputs.load tree with
  | error message =>
      rw [hload] at h
      cases h
      exact ⟨.refl tree _, id, fun _ h => by cases h⟩
  | ok pair =>
      obtain ⟨loaded, config⟩ := pair
      rw [hload] at h
      dsimp only at h
      obtain ⟨hchanges, hsound⟩ :=
        (ArtifactDirectory.leads_run "run" loaded.corpus config).changes hgenerator
      generalize hdone : VersionGroups.run "run" (ArtifactDirectory.mk artifacts).memo
        (generatorOf host program extra) loaded.corpus config tree = done
        at h hchanges hsound
      cases hresult : done.result with
      | error report =>
          rw [hresult] at h
          cases h
          exact ⟨hchanges.mono fun _ => .inl, hsound, fun _ h => by cases h⟩
      | ok outcome =>
          rw [hresult] at h
          dsimp only at h
          rcases hwrite : done.content.replaceFile manifest outcome.computed.text with
            ⟨written, after⟩
          rw [hwrite] at h
          cases h
          have hmanifest := FileTree.changesOnly_replaceFile hname hwrite
          -- the artifacts come first, and the manifest is written over what they leave
          refine ⟨(hchanges.mono fun _ => .inl).trans (hmanifest.mono fun l hl => .inr ?_),
            fun h => (hsound h).replaceFile hname hwrite, fun output houtput => ?_⟩
          · refine hl.imp_right fun ⟨hok, hl⟩ => ⟨?_, hl⟩
            rw [hok]
            exact ⟨_, rfl⟩
          · obtain ⟨⟨⟩, hok, -⟩ := map_eq_ok.mp houtput
            obtain rfl : written = .ok () := within_eq_ok.mp hok
            subst hdone
            exact ⟨loaded, config, outcome.computed, rfl, compute_of_run hresult,
              (FileTree.replaced_of_ok (FileTree.location_neighbour_ne hname) hwrite).written⟩

/-- A path leads neither into the directory of the corpus nor to the configuration. -/
structure IsApart (inputs : Inputs) (path : String) : Prop where
  outside : FileTree.isWithin (Path.location inputs.dataDirectory) (Path.location path) = false
  other : Path.location path ≠ Path.location inputs.slots

theorem IsApart.ne_append {path : String} {names : List String} (h : IsApart inputs path)
    (hnames : ∀ n ∈ names, Path.IsName n) :
    Path.location inputs.dataDirectory ++ names ≠ Path.location path := by
  intro heq
  have hwithin : FileTree.isWithin (Path.location inputs.dataDirectory)
      (Path.location inputs.dataDirectory ++ names) = true :=
    ArtifactDirectory.isWithin_append hnames
  rw [heq] at hwithin
  cases hwithin.symm.trans h.outside

/-- What a run with a manifest leaves is what a check of the same inputs asks for. -/
theorem executeCheck_of_executeRun (hname : Path.fileName? manifest = some name)
    (hgenerator : (ArtifactDirectory.mk artifacts).Spares
      (generatorOf host program extra) tree) {output : String}
    (h : executeRun host inputs manifest artifacts program extra tree = (.ok output, tree'))
    (hsound : tree.IsSound) (hmanifest : IsApart inputs manifest)
    (hneighbour : IsApart inputs (FileTree.neighbour manifest)) :
    ∃ output, executeCheck inputs manifest tree' = .ok output := by
  obtain ⟨hchanges, hsound', hwritten⟩ := executeRun_spec hname hgenerator h
  obtain ⟨loaded, config, computed, hload, hcompute, hfile⟩ := hwritten output rfl
  suffices hagain : ∃ loaded', inputs.load tree' = .ok (loaded', config) ∧
      loaded'.corpus = loaded.corpus by
    obtain ⟨loaded', hload', hcorpus⟩ := hagain
    rw [← hcorpus] at hcompute
    exact executeCheck_of_compute hload' hcompute hfile
  -- no file of the corpus and no configuration is at a place that the run may change
  refine load_of_changes hchanges hsound (hsound' hsound) ?_ ?_ hload
  · rintro folder name hnames hcorpus (hplace | hbeside | ⟨-, htarget⟩)
    · exact ArtifactKey.not_isPlace (List.append_assoc _ folder [name]).symm
        (ArtifactKey.not_isFileName_of_mem hcorpus) hplace
    · exact hneighbour.ne_append hnames hbeside
    · exact hmanifest.ne_append hnames htarget
  · obtain ⟨hconfig, -, -⟩ := load_eq_ok.mp hload
    obtain ⟨format, hformat⟩ := exists_format_of_ofFile hconfig
    rintro (hplace | hbeside | ⟨-, htarget⟩)
    · exact ConfigFormat.not_isPlace hformat hplace
    · exact hneighbour.other hbeside.symm
    · exact hmanifest.other htarget.symm

/-- Starting a program changes no file; it may make directories. -/
def Spares (launcher : Child.Launcher) (program : String) : Prop :=
  ∀ launch tree, launch.program = program →
    (tree.ChangesOnly (launcher launch tree).2 fun _ => False) ∧
      (tree.IsSound → (launcher launch tree).2.IsSound)

/-- A generator whose program changes no file changes none. -/
theorem spares_generatorOf (artifacts : String) (extra : List String) (tree : FileTree)
    (h : ∀ p ∈ program, Spares host.launcher p) :
    (ArtifactDirectory.mk artifacts).Spares (generatorOf host program extra) tree := by
  intro g hg request after _
  obtain ⟨p, rfl, rfl⟩ := Option.map_eq_some_iff.mp hg
  have hlaunch := h p rfl
    (GeneratorCommand.launch ⟨p, extra, GeneratorCommand.credentialIn host.environment⟩
      host.environment request) after rfl
  rw [GeneratorCommand.generatorBy, GeneratorCommand.answer]
  dsimp only
  split
  · revert hlaunch
    rcases host.launcher _ after with ⟨_ | _, left⟩ <;> exact id
  · exact ⟨.refl after _, id⟩

/-- The manifest on file is as it was. -/
structure IsKept (manifest : String) (tree after : FileTree) : Prop where
  entry : ∀ bytes, after.entry? (Path.location manifest) = some (.file bytes) ↔
    tree.entry? (Path.location manifest) = some (.file bytes)
  find : ∀ bytes, tree.find manifest = .ok (.file bytes) →
    after.find manifest = .ok (.file bytes)

/-- The manifest on file is the one that the inputs determine. -/
def IsCurrent (inputs : Inputs) (manifest : String) (tree after : FileTree) : Prop :=
  ∃ loaded config computed, inputs.load tree = .ok (loaded, config) ∧
    (compute loaded.corpus config).value = .ok computed ∧
      after.find manifest = .ok (.file computed.text.toUTF8)

/-- What a run promises about the manifest on file. It is replaced as a whole or not at all, and a
run that fails has not replaced it, unless it fails because it cannot print what it has done. -/
structure ManifestContract (host : Host) (inputs : Inputs) (manifest : String) (tree : FileTree)
    (result : Result) : Prop where
  whole : IsKept manifest tree result.tree ∨ IsCurrent inputs manifest tree result.tree
  kept : result.exitCode ≠ 0 → host.Prints ∨ result.exitCode ≠ Host.stopped →
    IsKept manifest tree result.tree
  unread : ∀ message, inputs.load tree = .error message →
    result.exitCode ≠ 0 ∧ result.tree = tree
  uncomputed : ∀ loaded config report, inputs.load tree = .ok (loaded, config) →
    (compute loaded.corpus config).value = .error report →
      result.exitCode ≠ 0 ∧ result.tree = tree
  written : result.exitCode = 0 → IsCurrent inputs manifest tree result.tree
  checked : result.exitCode = 0 → tree.IsSound → IsApart inputs manifest →
    IsApart inputs (FileTree.neighbour manifest) →
      ∀ host' : Host, host'.Prints → ∀ arguments log,
        parse arguments = .ok (log, .check inputs manifest) → Profile.ofName? log ≠ none →
          (serve host' arguments result.tree).exitCode = 0

theorem serve_of_parse {arguments : List String} {log : String} {request : Request}
    (h : parse arguments = .ok (log, request)) (hlog : Profile.ofName? log ≠ none) (host : Host)
    (tree : FileTree) :
    serve host arguments tree = host.conclude (execute host request tree) := by
  obtain ⟨profile, hprofile⟩ := Option.ne_none_iff_exists'.mp hlog
  rw [serve, h]
  simp only [hprofile]

theorem serve_of_unknown_log {arguments : List String} {log : String} {request : Request}
    (h : parse arguments = .ok (log, request)) (hlog : Profile.ofName? log = none) (host : Host)
    (tree : FileTree) :
    (serve host arguments tree).exitCode ≠ 0 ∧ (serve host arguments tree).tree = tree := by
  rw [serve, h]
  simp only [hlog, Host.tree_complain, and_true]
  exact host.exitCode_complain_ne_zero (Nat.succ_ne_zero 1) _ tree

theorem tree_serve_of_stop {arguments : List String} {stop : Stop}
    (h : parse arguments = .error stop) (host : Host) (tree : FileTree) :
    (serve host arguments tree).tree = tree := by
  rw [serve, h]
  cases stop <;> rfl

/-- A run that is told about keeps what a run promises. -/
theorem manifestContract_conclude (hname : Path.fileName? manifest = some name)
    (hfile : ¬ArtifactKey.IsFileName name)
    (hgenerator : (ArtifactDirectory.mk artifacts).Spares
      (generatorOf host program extra) tree) :
    ManifestContract host inputs manifest tree
      (host.conclude (executeRun host inputs manifest artifacts program extra tree)) := by
  rcases hdone : executeRun host inputs manifest artifacts program extra tree with
    ⟨result, after⟩
  obtain ⟨hchanges, -, hwritten⟩ := executeRun_spec hname hgenerator hdone
  have hkept (hfailed : ¬∃ output, result = .ok output) : IsKept manifest tree after :=
    have hplace := not_isTouched_manifest hname hfile hfailed
    ⟨fun bytes => hchanges.file_iff hplace, fun bytes => hchanges.find hplace⟩
  refine ⟨?_, fun hcode hprints => ?_, fun message hload => ?_,
    fun loaded config report hload hcompute => ?_, fun hcode => ?_,
    fun hcode hsound hmanifest hneighbour host' hprints arguments log hparse hlog => ?_⟩
  · rw [Host.tree_conclude]
    cases result with
    | error message => exact .inl (hkept (by simp))
    | ok output => exact .inr (hwritten output rfl)
  · rw [Host.tree_conclude]
    cases result with
    | error message => exact hkept (by simp)
    | ok output =>
        -- the run has nothing left to do but to print, and that is what fails
        rw [Host.conclude, Host.exitCode_tell] at hcode hprints
        split at hcode
        · exact absurd rfl hcode
        · rename_i hbroken
          rcases hprints with hprints | hprints
          · exact absurd (hprints.output output) hbroken
          · exact absurd (if_neg hbroken) hprints
  · rw [executeRun_of_load_error hload] at hdone
    cases hdone
    exact ⟨host.exitCode_complain_ne_zero Nat.one_ne_zero _ _, Host.tree_conclude _ _⟩
  · obtain ⟨message, herror⟩ := executeRun_of_compute_error hload hcompute
    rw [herror] at hdone
    cases hdone
    exact ⟨host.exitCode_complain_ne_zero Nat.one_ne_zero _ _, Host.tree_conclude _ _⟩
  · obtain ⟨output, houtput⟩ := Host.exists_ok_of_exitCode_conclude hcode
    rw [Host.tree_conclude]
    exact hwritten output houtput
  · obtain ⟨output, rfl⟩ := Host.exists_ok_of_exitCode_conclude hcode
    obtain ⟨told, htold⟩ :=
      executeCheck_of_executeRun hname hgenerator hdone hsound hmanifest hneighbour
    rw [serve_of_parse hparse hlog, execute, Host.tree_conclude, htold, Host.conclude,
      Host.exitCode_tell, if_pos (hprints.output told)]

theorem ManifestContract.of_tree_eq {result : Result} (hcode : result.exitCode ≠ 0)
    (htree : result.tree = tree) : ManifestContract host inputs manifest tree result where
  whole := .inl ⟨by simp [htree], by simp [htree]⟩
  kept _ _ := ⟨by simp [htree], by simp [htree]⟩
  unread _ _ := ⟨hcode, htree⟩
  uncomputed _ _ _ _ _ := ⟨hcode, htree⟩
  written h := absurd h hcode
  checked h := absurd h hcode

/-- A corpus of one release and a configuration that tracks its packet. -/
def pingTree : FileTree :=
  .ofFiles [("data/1.0/version.json", "\x7b\"version\": 1, \"minecraftVersion\": \"1.0\"\x7d"),
    ("data/1.0/protocol.json", (pingDocument "0x00").root.compact),
    ("slots.toml", "min_version = 1\n[packets.c2s]\nplay = [\"ping\"]\n")]

def pingInputs : Inputs := ⟨"data", "slots.toml", false, false⟩

/-- The arguments of a run whose generator is a program that repeats its argument. -/
def pingRun : List String :=
  ["run", "--data-dir", "data", "--slots", "slots.toml", "--generator", "echo", "--generator-arg",
    "pub"]

def pingCheck : List String := ["check", "--data-dir", "data", "--slots", "slots.toml"]

/-- A host whose programs repeat their arguments, and that can print. -/
def echoHost : Host where
  environment := []
  launcher launch tree :=
    (.ok ⟨.status 0, (String.intercalate " " launch.arguments ++ "\n").toUTF8, .empty⟩, tree)
  manual _ := ""
  brokenOutput? _ := none
  brokenErrors? _ := none

end CommandLine

end VersionGroups
