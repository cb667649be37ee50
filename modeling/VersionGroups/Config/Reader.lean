import VersionGroups.Config.Yaml
import VersionGroups.Files.Tree

/-!
# Reading slot configurations

A configuration is read from a text in one of two formats, or from a file whose name tells the
format.
-/

namespace VersionGroups

/-- A format of configurations. -/
inductive ConfigFormat where
  | toml
  | yaml
  deriving DecidableEq, Repr

/-- The format of a file by the ending of its name. -/
def ConfigFormat.ofPath? (path : String) : Option ConfigFormat :=
  match (Path.extension? path).map fun e => String.ofList (e.toList.map Char.toLower) with
  | some "toml" => some .toml
  | some "yaml" => some .yaml
  | some "yml" => some .yaml
  | _ => none

namespace Declarations

def ofTomlText (text : String) : Except String Declarations :=
  match Toml.read text with
  | .error e => .error e.message
  | .ok fields => (ofToml fields).mapError ShapeError.message

def ofYamlText (text : String) : Except String Declarations :=
  match Yaml.Node.ofText? text with
  | .error e => .error e.message
  | .ok none => .error "the text is empty"
  | .ok (some document) => (ofYaml document).mapError ShapeError.message

def ofText (text : String) : ConfigFormat → Except ErrorReport Declarations
  | .toml => (ofTomlText text).mapError fun m => rejected s!"TOML parse error: {m}"
  | .yaml => (ofYamlText text).mapError fun m => rejected s!"YAML parse error: {m}"

end Declarations

namespace SlotConfig

def ofText (text : String) (format : ConfigFormat) : Except ErrorReport SlotConfig := do
  (← Declarations.ofText text format).validate

def ofFile (tree : FileTree) (path : String) : Except ErrorReport SlotConfig :=
  match ConfigFormat.ofPath? path with
  | none =>
      .error (Declarations.rejected
        s!"Unsupported configuration file {path}: expected .toml, .yaml or .yml")
  | some format =>
      match tree.readText path with
      | .error e => .error (Declarations.rejected s!"Failed to read {path}: {e.message}")
      | .ok text => ofText text format

end SlotConfig

end VersionGroups
