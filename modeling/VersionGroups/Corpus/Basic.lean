import VersionGroups.Json.Basic
import VersionGroups.Table
import VersionGroups.WireId

/-!
# The corpus of protocol versions

A corpus gives each version its document. A document is a value whose fields are the protocol's
states, except for one field that holds the types of all states. Documents are compared by content.
-/

namespace VersionGroups

/-- The description of one protocol version. -/
structure Document where
  root : Json
  deriving Inhabited

namespace Document

/-- The field that holds the types of all states. -/
def typesKey : String := "types"

instance : BEq Document := ⟨fun a b => a.root == b.root⟩

theorem beq_def (a b : Document) : (a == b) = Json.same a.root b.root := rfl

/-- The types of all states. -/
def globalTypes? (d : Document) : Option (List (String × Json)) :=
  (d.root.field? typesKey).bind Json.asObject?

/-- The names of the states, in ascending order. -/
def states (d : Document) : List String :=
  match d.root.asObject? with
  | some fields => (fields.map (·.1)).filter (· != typesKey)
  | none => []

theorem beq_refl (a : Document) : (a == a) = true := Json.same_refl a.root

theorem beq_symm {a b : Document} (h : (a == b) = true) : (b == a) = true := Json.same_symm h

theorem beq_trans {a b c : Document} (h : (a == b) = true) (k : (b == c) = true) :
    (a == c) = true :=
  Json.same_trans h k

end Document

/-- A document for each of some versions. -/
abbrev Corpus := Table Version Document

/-- Versions that stand for another version, with the version they stand for. -/
abbrev AliasTable := Table Version Version

/-- The versions that stand for a version, in ascending order. -/
def AliasTable.aliasesOf (aliases : AliasTable) (target : Version) : List Version :=
  (aliases.entries.filter (fun e => e.2 == target)).map (·.1)

end VersionGroups
