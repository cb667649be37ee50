import VersionGroups.Corpus.Basic
import VersionGroups.Fault

/-!
# Reducing a corpus

Of the versions in a range, a version whose document equals that of an earlier one becomes an alias
of the earliest such version, and the others are kept. There must be a version at or below the least
version of the range.
-/

namespace VersionGroups

/-- A range of versions, without an upper end if there is no maximum. -/
structure VersionRange where
  minimum : Version
  maximum : Option Version
  deriving DecidableEq, Repr

/-- Whether a version lies in the range. -/
def VersionRange.contains (range : VersionRange) (version : Version) : Bool :=
  range.minimum ≤ version &&
    match range.maximum with
    | some maximum => version ≤ maximum
    | none => true

/-- The kept versions, the aliases among them, and all versions of the range. -/
structure Reduction where
  kept : Corpus
  aliases : AliasTable
  considered : List Version

namespace Reduction

/-- The reduction of no versions. -/
def empty : Reduction := ⟨Table.empty, Table.empty, []⟩

/-- The earliest kept version with a document. -/
def keptAs? (reduction : Reduction) (document : Document) : Option Version :=
  (reduction.kept.entries.find? (fun e => e.2 == document)).map (·.1)

/-- Takes one more version into account. -/
def add (reduction : Reduction) (version : Version) (document : Document) : Reduction :=
  let considered := reduction.considered ++ [version]
  match reduction.keptAs? document with
  | some target =>
      { reduction with considered, aliases := reduction.aliases.insert version target }
  | none => { reduction with considered, kept := reduction.kept.insert version document }

end Reduction

/-- The reduction of the versions in a range. -/
def reduce (corpus : Corpus) (range : VersionRange) : Except Fault Reduction :=
  if corpus.keys.any (fun v => decide (v ≤ range.minimum)) then
    .ok ((corpus.entries.filter (fun e => range.contains e.1)).foldl
      (fun reduction e => reduction.add e.1 e.2) Reduction.empty)
  else .error (.missingBaseVersion range.minimum)

end VersionGroups
