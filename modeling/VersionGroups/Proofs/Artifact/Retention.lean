import VersionGroups.Proofs.Artifact.Directory
import VersionGroups.Proofs.Files.Changes

/-!
# What calls of a memo leave alone

An artifact that a memo has stays there whatever is looked up and recorded afterwards. In a
directory its file keeps its text too, as a file that is there is not written again. A path that
goes up on its way can miss such a file: where a directory on the way is missing the file is not
found, the directory is made, and then the path leads to the file and replaces it. In a table the
last source that is recorded for an artifact stays, so the first one stays if no other is recorded.
-/
namespace VersionGroups

/-- A call of a memo. -/
inductive MemoCall where
  | lookup (key : ArtifactKey)
  | record (key : ArtifactKey) (source : String)
  deriving DecidableEq, Repr

namespace Memo
variable {σ : Type}

/-- The content of a memo after a call, which may have failed. -/
def after (memo : Memo σ) (content : σ) : MemoCall → σ
  | .lookup _ => content
  | .record key source => (memo.record content key source).2

/-- The content of a memo after calls in turn. -/
def replay (memo : Memo σ) (content : σ) (calls : List MemoCall) : σ :=
  calls.foldl memo.after content

theorem replay_concat (memo : Memo σ) (content : σ) (calls : List MemoCall) (call : MemoCall) :
    memo.replay content (calls ++ [call]) = memo.after (memo.replay content calls) call :=
  List.foldl_concat ..

/-- What each call keeps stays through all of them. -/
theorem replay_keeps {memo : Memo σ} {content : σ} {calls : List MemoCall} (keeps : σ → Prop)
    (hcall : ∀ call ∈ calls, ∀ content, keeps content → keeps (memo.after content call))
    (h : keeps content) : keeps (memo.replay content calls) := by
  induction calls generalizing content with
  | nil => exact h
  | cons call rest ih =>
      obtain ⟨hfirst, hrest⟩ := List.forall_mem_cons.mp hcall
      exact ih hrest (hfirst content h)

end Memo

namespace ArtifactTable
variable {table : ArtifactTable} {key : ArtifactKey} {source : String} {calls : List MemoCall}

/-- A source stays through a call that does not record another one in its place. -/
theorem get?_after {call : MemoCall} (h : table.get? key = some source)
    (hcall : ∀ other, call = .record key other → other = source) :
    (memo.after table call).get? key = some source := by
  cases call with
  | lookup key' => exact h
  | record key' source' =>
      change (table.insert key' source').get? key = some source
      by_cases heq : key = key'
      · subst heq
        rw [Table.get?_insert_self, hcall source' rfl]
      · rw [Table.get?_insert_of_ne heq, h]

/-- What a table has, it still has after every call. -/
theorem lookup_replay (h : table.get? key = some source) :
    memo.lookup (memo.replay table calls) key = some (handle key) := by
  have hthere : ∃ source, (memo.replay table calls).get? key = some source := by
    refine Memo.replay_keeps (fun table : ArtifactTable => ∃ source, table.get? key = some source)
      (fun call _ table ⟨source, hsource⟩ => ?_) ⟨source, h⟩
    cases call with
    | lookup key' => exact ⟨source, hsource⟩
    | record key' source' =>
        by_cases heq : key = key'
        · subst heq
          exact ⟨source', Table.get?_insert_self ..⟩
        · exact ⟨source, (Table.get?_insert_of_ne heq _).trans hsource⟩
  obtain ⟨source', hsource'⟩ := hthere
  exact congrArg (Option.map fun _ => handle key) hsource'

/-- A source stays all the time if and only if no other one is recorded in its place. -/
theorem get?_replay_iff (h : table.get? key = some source) :
    (∀ before, before <+: calls → (memo.replay table before).get? key = some source) ↔
      ∀ other, MemoCall.record key other ∈ calls → other = source := by
  constructor
  · intro hkept other hmem
    obtain ⟨before, rest, rfl⟩ := List.append_of_mem hmem
    have hprefix : before ++ [MemoCall.record key other] <+: before ++ .record key other :: rest :=
      ⟨rest, by simp⟩
    have hafter := hkept _ hprefix
    rw [Memo.replay_concat] at hafter
    exact Option.some.inj ((Table.get?_insert_self ..).symm.trans hafter)
  · intro hother before hprefix
    refine Memo.replay_keeps (fun table : ArtifactTable => table.get? key = some source)
      (fun call hcall table htable => get?_after htable fun other heq => ?_) h
    exact hother other (heq ▸ hprefix.subset hcall)

end ArtifactTable

namespace ArtifactDirectory
variable {directory : ArtifactDirectory} {key key' : ArtifactKey} {tree : FileTree}
  {bytes : ByteArray} {calls : List MemoCall}

/-- The path of an artifact goes up on its way to the file of an artifact with another path. -/
structure Detours (directory : ArtifactDirectory) (key' key : ArtifactKey) : Prop where
  other : directory.pathOf key' ≠ directory.pathOf key
  up : ".." ∈ Path.pieces (directory.pathOf key')
  meets : Path.location (directory.pathOf key') = Path.location (directory.pathOf key)

instance (directory : ArtifactDirectory) (key' key : ArtifactKey) :
    Decidable (directory.Detours key' key) :=
  decidable_of_iff (_ ∧ _ ∧ _) ⟨fun h => ⟨h.1, h.2.1, h.2.2⟩, fun h => ⟨h.other, h.up, h.meets⟩⟩

/-- Storing an artifact changes its file, if that is not there yet, and its neighbour. -/
theorem changesOnly_store {source : String} {result : Except ErrorReport ArtifactHandle}
    {tree' : FileTree} (h : directory.store tree key source = (result, tree')) :
    tree.ChangesOnly tree' fun l =>
      l = Path.location (FileTree.neighbour (directory.pathOf key)) ∨
        l = Path.location (directory.pathOf key) := by
  rw [store] at h
  split at h
  · cases h
    exact .refl tree _
  · rcases hreplace : tree.replaceFile (directory.pathOf key) source with ⟨_ | _, tree₁⟩ <;>
      simp only [hreplace] at h <;> cases h <;>
      exact (FileTree.changesOnly_replaceFile (directory.fileName?_pathOf key) hreplace).mono
        fun l => Or.imp_right And.right

/-- A file is found by the path of every artifact that can be stored there, unless the path goes
up. -/
theorem isFile_of_location {source : String} {tree' : FileTree}
    (hfind : tree.find (directory.pathOf key) = .ok (.file bytes))
    (hmeets : Path.location (directory.pathOf key') = Path.location (directory.pathOf key))
    (hdetours : ¬directory.Detours key' key)
    (hreplace : tree.replaceFile (directory.pathOf key') source = (.ok (), tree')) :
    tree.isFile (directory.pathOf key') = true := by
  obtain ⟨hlocate, hentry⟩ := FileTree.find_eq_ok.mp hfind
  by_cases hpath : directory.pathOf key' = directory.pathOf key
  · exact FileTree.isFile_iff.mpr ⟨bytes, hpath ▸ hfind⟩
  · have hdown : ".." ∉ Path.pieces (directory.pathOf key') :=
      fun hup => hdetours ⟨hpath, hup, hmeets⟩
    obtain ⟨around, beside, -, -, hmove⟩ := FileTree.replaceFile_eq_ok.mp hreplace
    obtain ⟨-, hpathLocate, -⟩ := FileTree.move_eq_ok.mp hmove
    obtain ⟨-, husable, -⟩ := FileTree.locate_eq_ok.mp hpathLocate
    obtain ⟨front, hpieces⟩ := directory.exists_pieces_pathOf key'
    have hreached := FileTree.isReached_of_locate hlocate
    rw [← hmeets] at hreached hentry
    have hlocate' := hreached.locate (ArtifactKey.isName_versionFile _) hpieces hdown
      (directory.endsWithSlash_pathOf key') husable
    exact FileTree.isFile_iff.mpr ⟨bytes, FileTree.find_eq_ok.mpr ⟨hlocate', hentry⟩⟩

/-- The file of an artifact stays as it is when an artifact is stored without a detour to it. -/
theorem find_store (hfind : tree.find (directory.pathOf key) = .ok (.file bytes))
    (hdetours : ¬directory.Detours key' key) (source : String) :
    (directory.store tree key' source).2.find (directory.pathOf key) = .ok (.file bytes) := by
  by_cases hmeets : Path.location (directory.pathOf key') = Path.location (directory.pathOf key)
  · rw [store]
    split
    · exact hfind
    · rename_i hmissing
      rcases hreplace : tree.replaceFile (directory.pathOf key') source with ⟨_ | _, tree'⟩
      · refine (FileTree.changesOnly_replaceFile (directory.fileName?_pathOf key') hreplace).find
          ?_ hfind
        rintro (hneighbour | ⟨hok, -⟩)
        · exact directory.location_neighbour_ne key' key hneighbour.symm
        · cases hok
      · exact absurd (isFile_of_location hfind hmeets hdetours hreplace) hmissing
  · refine (changesOnly_store (Prod.mk.eta (p := directory.store tree key' source)).symm).find ?_
      hfind
    rintro (hneighbour | hplace)
    · exact directory.location_neighbour_ne key' key hneighbour.symm
    · exact hmeets hplace.symm

/-- The file of an artifact stays as it is through calls that take no detour to it. -/
theorem find_replay (hfind : tree.find (directory.pathOf key) = .ok (.file bytes))
    (hcalls : ∀ key' source, MemoCall.record key' source ∈ calls → ¬directory.Detours key' key) :
    (directory.memo.replay tree calls).find (directory.pathOf key) = .ok (.file bytes) := by
  refine Memo.replay_keeps
    (fun tree : FileTree => tree.find (directory.pathOf key) = .ok (.file bytes))
    (fun call hcall tree htree => ?_) hfind
  cases call with
  | lookup key' => exact htree
  | record key' source => exact find_store htree (hcalls key' source hcall) source

end ArtifactDirectory

/-- What a memo has, it still has under the same handle after any calls. In a table its source stays
all the time if and only if no other one is recorded in its place; in a directory its file stays
as it is whatever is recorded in its place, unless a path takes a detour to it. -/
theorem memos_retain (directory : ArtifactDirectory) (key : ArtifactKey) (calls : List MemoCall) :
    (∀ (table : ArtifactTable) (source : String), table.get? key = some source →
      ArtifactTable.memo.lookup (ArtifactTable.memo.replay table calls) key =
          some (ArtifactTable.handle key) ∧
        ((∀ before, before <+: calls →
            (ArtifactTable.memo.replay table before).get? key = some source) ↔
          ∀ other, MemoCall.record key other ∈ calls → other = source)) ∧
    ∀ (tree : FileTree) (bytes : ByteArray),
      tree.find (directory.pathOf key) = .ok (.file bytes) →
        (∀ key' source, MemoCall.record key' source ∈ calls → ¬directory.Detours key' key) →
          directory.memo.lookup (directory.memo.replay tree calls) key =
              some (directory.handle key) ∧
            (directory.memo.replay tree calls).find (directory.pathOf key) =
              .ok (.file bytes) := by
  refine ⟨fun table source h => ⟨ArtifactTable.lookup_replay h, ArtifactTable.get?_replay_iff h⟩,
    fun tree bytes hfind hcalls => ?_⟩
  have hkept := ArtifactDirectory.find_replay hfind hcalls
  exact ⟨if_pos (FileTree.isFile_iff.mpr ⟨bytes, hkept⟩), hkept⟩

/-- An artifact, and one whose path goes up through a directory of its own to the same file. -/
def chatKey : ArtifactKey := ⟨.packet ⟨.toServer, "play", "chat"⟩, 1⟩

def detourKey : ArtifactKey := ⟨.packet ⟨.toServer, "x/../play", "chat"⟩, 1⟩

def generatedDirectory : ArtifactDirectory := ⟨"generated"⟩

/-- The table and the tree in which the artifact has been recorded. -/
def chatTable : ArtifactTable := ArtifactTable.memo.replay Table.empty [.record chatKey "first"]

def chatTree : FileTree :=
  generatedDirectory.memo.replay FileTree.empty [.record chatKey "first"]

/-- The artifact stays in both when other sources are recorded, and its file is not written. -/
theorem memos_retain_chat :
    ArtifactTable.memo.lookup (ArtifactTable.memo.replay chatTable [.record chatKey "second"])
        chatKey = some (ArtifactTable.handle chatKey) ∧
      ∃ bytes, chatTree.find (generatedDirectory.pathOf chatKey) = .ok (.file bytes) ∧
        (generatedDirectory.memo.replay chatTree [.record chatKey "second"]).find
          (generatedDirectory.pathOf chatKey) = .ok (.file bytes) := by
  obtain ⟨htables, htrees⟩ :=
    memos_retain generatedDirectory chatKey [.record chatKey "second"]
  have hsource : chatTable.get? chatKey = some "first" := by decide +kernel
  have hfile : chatTree.isFile (generatedDirectory.pathOf chatKey) = true := by decide +kernel
  obtain ⟨bytes, hfind⟩ := FileTree.isFile_iff.mp hfile
  have hcalls : ∀ key' source, MemoCall.record key' source ∈ [.record chatKey "second"] →
      ¬generatedDirectory.Detours key' chatKey := by
    rintro key' source hmem ⟨hother, -, -⟩
    cases List.mem_singleton.mp hmem
    exact hother rfl
  exact ⟨(htables chatTable "first" hsource).1, bytes, hfind,
    (htrees chatTree bytes hfind hcalls).2⟩

/-- A record can replace a source that is there: in a table under the same key, and in a directory
under a key whose path takes a detour. -/
theorem memos_replace_chat :
    (chatTable.get? chatKey = some "first" ∧
      (ArtifactTable.memo.replay chatTable [.record chatKey "second"]).get? chatKey =
        some "second") ∧
    (chatTree.readText (generatedDirectory.pathOf chatKey) = .ok "first" ∧
      (generatedDirectory.memo.replay chatTree [.record detourKey "second"]).readText
        (generatedDirectory.pathOf chatKey) = .ok "second") := by
  decide +kernel

end VersionGroups
