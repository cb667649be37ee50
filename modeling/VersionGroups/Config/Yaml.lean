import VersionGroups.Config.Toml
import VersionGroups.Yaml.Node

/-!
# Configurations in YAML

The fields of the mapping are those of a configuration. Any scalar is a text, however it is written.
A collection for which nothing is written is empty, and a greatest version that is null is none.
References are followed as they are met, but not more often than a hundred times for every mark of
the document, so that a short document cannot stand for an enormous one.
-/

namespace VersionGroups

namespace Declarations

/-- The tags of the core schema that change how a scalar is read. -/
def intTag : String := "tag:yaml.org,2002:int"

def nullTag : String := "tag:yaml.org,2002:null"

/-- A reader of nodes of a document, which may follow some more references. -/
abbrev NodeReader (α : Type) := StateT Nat (Except ShapeError) α

/-- How many references are followed for every mark of a document. -/
def referencesPerMark : Nat := 100

/-- The node itself, or the one that it refers to. -/
def target (document : Yaml.Document) : Yaml.Node → NodeReader Yaml.Node
  | .reference number => do
      let left ← get
      if left = 0 then throw .tooManyReferences
      set (left - 1)
      match document.node? number with
      | some node => return node
      | none => throw (.wrongKind "a complete node")
  | node => return node

/-- Whether nothing is written for a node. -/
def isUnwritten : Yaml.Node → Bool
  | .scalar text style _ => text == "" && style == .plain
  | _ => false

/-- The number that digits of a base stand for. -/
def digitsValue? (base : Nat) (cs : List Char) : Option Nat :=
  if cs.isEmpty then none
  else
    cs.foldl
      (fun read c => read.bind fun n => ((hexDigit? c).filter (· < base)).map (n * base + ·))
      (some 0)

/-- The number that a plain scalar stands for: decimal without needless zeros, or in base sixteen,
eight or two after a mark. A plus sign may precede it. -/
def plainNumber? (text : String) : Option Nat :=
  let cs := text.toList
  let unsigned := if cs.head? = some '+' then cs.tail else cs
  match unsigned with
  | '0' :: 'x' :: digits => digitsValue? 16 digits
  | '0' :: 'o' :: digits => digitsValue? 8 digits
  | '0' :: 'b' :: digits => digitsValue? 2 digits
  | '0' :: _ :: _ => none
  | digits => digitsValue? 10 digits

/-- A version that is written as a scalar. -/
def scalarVersion (text : String) (style : Yaml.Style) (tag : Option String) :
    Except ShapeError Nat :=
  if style = .plain ∨ (style = .literal ∧ tag = some intTag) then
    match plainNumber? text with
    | some n => versionOf n
    | none => .error (.wrongKind "a version")
  else .error (.wrongKind "a version")

def yamlVersion (document : Yaml.Document) (node : Yaml.Node) : NodeReader Nat := do
  match ← target document node with
  | .scalar text style tag => scalarVersion text style tag
  | _ => throw (.wrongKind "a version")

/-- Whether a text stands for null. -/
def isNullText (text : String) : Bool :=
  text == "null" || text == "Null" || text == "NULL" || text == "~"

/-- A version that is written as a scalar, or null. -/
def scalarVersion? (text : String) (style : Yaml.Style) (tag : Option String) :
    Except ShapeError (Option Nat) :=
  match style, tag with
  | .plain, some tag =>
      if tag = nullTag then
        if isNullText text then .ok none else .error (.wrongKind "null")
      else (scalarVersion text style tag).map some
  | .plain, none =>
      if text = "" ∨ isNullText text then .ok none else (scalarVersion text style tag).map some
  | _, _ => (scalarVersion text style tag).map some

/-- A version in a document, or null. -/
def yamlOptionalVersion (document : Yaml.Document) (node : Yaml.Node) :
    NodeReader (Option Nat) := do
  match ← target document node with
  | .scalar text style tag => scalarVersion? text style tag
  | _ => throw (.wrongKind "a version")

def yamlText (document : Yaml.Document) (node : Yaml.Node) : NodeReader String := do
  match ← target document node with
  | .scalar text _ _ => return text
  | _ => throw (.wrongKind "a text")

/-- A list of texts in a document. -/
def yamlTexts (document : Yaml.Document) (node : Yaml.Node) : NodeReader (List String) := do
  match ← target document node with
  | .sequence items => items.mapM (yamlText document)
  | node => if isUnwritten node then return [] else throw (.wrongKind "a list of texts")

/-- A mapping in a document whose values all have one form; of two pairs with one key the later one
stays. -/
def yamlTable {α : Type} (document : Yaml.Document) (entry : Yaml.Node → NodeReader α)
    (node : Yaml.Node) : NodeReader (Table String α) := do
  match ← target document node with
  | .mapping pairs =>
      let entries ← pairs.mapM fun p => do return (← yamlText document p.1, ← entry p.2)
      return Table.ofList entries
  | node => if isUnwritten node then return Table.empty else throw (.wrongKind "a mapping")

/-- The fields of a mapping by name, each at most once. -/
def yamlFields (document : Yaml.Document) (pairs : List (Yaml.Node × Yaml.Node)) :
    NodeReader (List (String × Yaml.Node)) :=
  pairs.foldlM
    (fun fields p => do
      let name ← yamlText document p.1
      if !fieldNames.contains name then throw (.unknownField name)
      if fields.any (fun f => f.1 == name) then throw (.repeatedField name)
      return fields ++ [(name, p.2)])
    []

/-- The declarations that a document makes. -/
def readYaml (document : Yaml.Document) : NodeReader Declarations := do
  let fields ←
    match document.root with
    | .mapping pairs => yamlFields document pairs
    | node => if isUnwritten node then pure [] else throw (.wrongKind "a mapping")
  let field (name : String) : Option Yaml.Node := (fields.find? (fun f => f.1 == name)).map (·.2)
  let some minimum := field "min_version" | throw (.missingField "min_version")
  let minimum ← yamlVersion document minimum
  let maximum ← (field "max_version").mapM (yamlOptionalVersion document)
  let types ← (field "types").mapM (yamlTexts document)
  let packets ←
    (field "packets").mapM (yamlTable document (yamlTable document (yamlTexts document)))
  return ⟨minimum, maximum.join, types.getD [], packets.getD Table.empty⟩

def ofYaml (document : Yaml.Document) : Except ShapeError Declarations :=
  (readYaml document).run' (referencesPerMark * document.root.size)

end Declarations

end VersionGroups
