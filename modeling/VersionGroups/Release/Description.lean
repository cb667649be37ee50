import VersionGroups.Json.Skip
import VersionGroups.WireId

/-!
# Descriptions of releases

A release is described by a small document: the number of its protocol version, its name and, if it
says so, the kind of release it is. Another document lists the names of the releases that are in
common use. Only the fields with a meaning are read; all others are passed over. The fields may also
be given by position.
-/

namespace VersionGroups

/-- What a release says about itself. -/
structure Release where
  version : Version
  name : String
  kind : Option String
  deriving DecidableEq, Repr

/-- Whether a release is a final one: its name is made of digits and points, and it is not marked as
anything else. -/
def Release.isFinal (release : Release) : Bool :=
  release.name != "" && release.name.toList.all (fun c => ('0' ≤ c && c ≤ '9') || c == '.') &&
    match release.kind with
    | some kind => kind == "release"
    | none => true

namespace Release

open Json (Reader SyntaxError)

/-- Why a text is no description. -/
inductive Defect where
  | malformed (cause : SyntaxError)
  | wrongKind (expected : String)
  | repeatedField (name : String)
  | missingField (name : String)
  deriving DecidableEq, Repr

/-- What is wrong, in words. -/
def Defect.message : Defect → String
  | .malformed cause => cause.message
  | .wrongKind expected => "expected " ++ expected
  | .repeatedField name => "duplicate field " ++ name
  | .missingField name => "missing field " ++ name

/-- A reader of part of a description. -/
abbrev Part (α : Type) := List Char → Except Defect (α × List Char)

/-- A reader of documents as a reader of descriptions. -/
def ofReader {α : Type} (reader : Reader α) : Part α :=
  fun cs => (reader cs).mapError .malformed

/-- The error at a position where nothing fits. -/
def failedAt {α : Type} (cs : List Char) : Except Defect α := (Json.failAt cs).mapError .malformed

def versionPart : Part Version := fun cs => do
  if cs.head? = some '-' ∨ Json.startsWithDigit cs then
    match ← ofReader Json.number cs with
    | (.int n, rest) =>
        if 0 ≤ n ∧ n < UInt32.size then return (n.toNat, rest) else throw (.wrongKind "a version")
    | _ => throw (.wrongKind "a version")
  throw (.wrongKind "a version")

def textPart : Part String
  | '"' :: rest => ofReader (Json.stringRest []) rest
  | _ => .error (.wrongKind "a text")

/-- A text, or null for none. -/
def optionalTextPart : Part (Option String)
  | 'n' :: 'u' :: 'l' :: 'l' :: rest => .ok (none, rest)
  | cs => do
      let (s, rest) ← textPart cs
      return (some s, rest)

/-- The fields read so far. -/
structure Fields where
  version : Option Version := none
  name : Option String := none
  kind : Option (Option String) := none

/-- The description of complete fields. -/
def ofFields (fields : Fields) : Except Defect Release :=
  match fields.version, fields.name with
  | some version, some name => .ok ⟨version, name, fields.kind.join⟩
  | none, _ => .error (.missingField "version")
  | some _, none => .error (.missingField "minecraftVersion")

/-- Reads the value of a field. -/
def fieldPart (fields : Fields) (key : String) : Part Fields := fun cs =>
  match key with
  | "version" =>
      if fields.version.isSome then .error (.repeatedField key)
      else do
        let (version, rest) ← versionPart cs
        return ({ fields with version := some version }, rest)
  | "minecraftVersion" =>
      if fields.name.isSome then .error (.repeatedField key)
      else do
        let (name, rest) ← textPart cs
        return ({ fields with name := some name }, rest)
  | "releaseType" =>
      if fields.kind.isSome then .error (.repeatedField key)
      else do
        let (kind, rest) ← optionalTextPart cs
        return ({ fields with kind := some kind }, rest)
  | _ => do return (fields, ← (Json.skipValue cs).mapError .malformed)

/-- The fields of an object after its opening brace or a comma, each read into what was read before
it. -/
def fieldsRest {α : Type} (field : α → String → Part α) : Nat → α → Part α
  | 0, _, cs => failedAt cs
  | fuel + 1, read, cs =>
      match Json.skipSpace cs with
      | '"' :: rest => do
          let (key, rest) ← ofReader (Json.stringRest []) rest
          match Json.skipSpace rest with
          | ':' :: rest =>
              let (read, rest) ← field read key (Json.skipSpace rest)
              match Json.skipSpace rest with
              | ',' :: rest => fieldsRest field fuel read rest
              | '}' :: rest => return (read, rest)
              | rest => failedAt rest
          | rest => failedAt rest
      | rest => failedAt rest

/-- The fields of an object after its opening brace. -/
def objectRest {α : Type} (field : α → String → Part α) (empty : α) : Part α := fun cs =>
  match Json.skipSpace cs with
  | '}' :: rest => .ok (empty, rest)
  | rest => fieldsRest field (rest.length + 1) empty rest

/-- What follows a comma between positions. -/
def comma : List Char → Except Defect (List Char)
  | ',' :: rest => .ok (Json.skipSpace rest)
  | ']' :: _ => .error (.wrongKind "more fields")
  | cs => failedAt cs

/-- What follows the bracket that closes the positions. -/
def closing : List Char → Except Defect (List Char)
  | ']' :: rest => .ok rest
  | ',' :: _ => .error (.wrongKind "fewer fields")
  | cs => failedAt cs

/-- The fields by position, after the opening bracket. -/
def positions : Part Release := fun cs => do
  let (version, rest) ← versionPart (Json.skipSpace cs)
  let rest ← comma (Json.skipSpace rest)
  let (name, rest) ← textPart rest
  match Json.skipSpace rest with
  | ']' :: rest => return (⟨version, name, none⟩, rest)
  | rest =>
      let (kind, rest) ← optionalTextPart (← comma rest)
      return (⟨version, name, kind⟩, ← closing (Json.skipSpace rest))

def part : Part Release
  | '{' :: rest => do
      let (fields, rest) ← objectRest fieldPart {} rest
      return (← ofFields fields, rest)
  | '[' :: rest => positions rest
  | _ => .error (.wrongKind "a description")

/-- Reads the field of an entry of the list of names. -/
def nameFieldPart (name : Option String) (key : String) : Part (Option String) := fun cs =>
  if key = "minecraftVersion" then
    if name.isSome then .error (.repeatedField key)
    else do
      let (name, rest) ← textPart cs
      return (some name, rest)
  else do return (name, ← (Json.skipValue cs).mapError .malformed)

/-- An entry of the list of names. -/
def namePart : Part String
  | '{' :: rest => do
      match ← objectRest nameFieldPart none rest with
      | (some name, rest) => return (name, rest)
      | (none, _) => throw (.missingField "minecraftVersion")
  | '[' :: rest => do
      let (name, rest) ← textPart (Json.skipSpace rest)
      return (name, ← closing (Json.skipSpace rest))
  | _ => .error (.wrongKind "an entry")

/-- The entries of the list of names after its opening bracket or a comma; `acc` holds those read,
last first. -/
def namesRest : Nat → List String → Part (List String)
  | 0, _, cs => failedAt cs
  | fuel + 1, acc, cs => do
      let (name, rest) ← namePart (Json.skipSpace cs)
      match Json.skipSpace rest with
      | ',' :: rest => namesRest fuel (name :: acc) rest
      | ']' :: rest => return ((name :: acc).reverse, rest)
      | rest => failedAt rest

def namesPart : Part (List String)
  | '[' :: rest =>
      match Json.skipSpace rest with
      | ']' :: rest => .ok ([], rest)
      | rest => namesRest (rest.length + 1) [] rest
  | _ => .error (.wrongKind "a list")

/-- Reads a whole text; only space may follow. -/
def whole {α : Type} (reader : Part α) (text : String) : Except Defect α := do
  let (result, rest) ← reader (Json.skipSpace text.toList)
  match Json.skipSpace rest with
  | [] => return result
  | _ => throw (.malformed .trailingText)

/-- The release that a text describes. -/
def ofText (text : String) : Except Defect Release := whole part text

/-- The names that a text lists. -/
def namesOfText (text : String) : Except Defect (List String) := whole namesPart text

end Release

end VersionGroups
