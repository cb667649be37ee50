import VersionGroups.Config.Basic
import VersionGroups.Toml.Reader

/-!
# Configurations in TOML

The fields of the document are the least version, which must be there, the greatest version, the
list of types and the tables of packets. A field of another name or kind is refused.
-/

namespace VersionGroups

namespace Declarations

/-- The names of the fields of a configuration. -/
def fieldNames : List String := ["min_version", "max_version", "types", "packets"]

/-- Why a well-formed document is no configuration. -/
inductive ShapeError where
  | unknownField (name : String)
  | repeatedField (name : String)
  | missingField (name : String)
  | wrongKind (expected : String)
  | tooManyReferences
  deriving DecidableEq, Repr

/-- What is wrong, in words. -/
def ShapeError.message : ShapeError → String
  | .unknownField name => "unknown field " ++ name
  | .repeatedField name => "duplicate field " ++ name
  | .missingField name => "missing field " ++ name
  | .wrongKind expected => "expected " ++ expected
  | .tooManyReferences => "repetition limit exceeded"

def versionOf (n : Int) : Except ShapeError Nat :=
  if 0 ≤ n ∧ n < UInt32.size then .ok n.toNat else .error (.wrongKind "a version")

def tomlVersion : Toml.Value → Except ShapeError Nat
  | .integer n => versionOf n
  | _ => .error (.wrongKind "a version")

def tomlText : Toml.Value → Except ShapeError String
  | .text s => .ok s
  | _ => .error (.wrongKind "a text")

/-- A list of texts in a document. -/
def tomlTexts : Toml.Value → Except ShapeError (List String)
  | .list items => items.mapM tomlText
  | _ => .error (.wrongKind "a list of texts")

/-- A table in a document whose values all have one form. -/
def tomlTable {α : Type} (entry : Toml.Value → Except ShapeError α) :
    Toml.Value → Except ShapeError (Table String α)
  | .table _ fields => do
      return Table.ofList (← fields.mapM fun f => do return (f.1, ← entry f.2))
  | _ => .error (.wrongKind "a table")

def ofToml (fields : Toml.Fields) : Except ShapeError Declarations := do
  if let some f := fields.find? (fun f => !fieldNames.contains f.1) then
    throw (.unknownField f.1)
  let some minimum := fields.get? "min_version" | throw (.missingField "min_version")
  let minimum ← tomlVersion minimum
  let maximum ← (fields.get? "max_version").mapM tomlVersion
  let types ← (fields.get? "types").mapM tomlTexts
  let packets ← (fields.get? "packets").mapM (tomlTable (tomlTable tomlTexts))
  return ⟨minimum, maximum, types.getD [], packets.getD Table.empty⟩

end Declarations

end VersionGroups
