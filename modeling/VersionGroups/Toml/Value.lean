/-!
# TOML values

The values a TOML document can give a configuration: whole numbers, texts, lists and tables. A table
remembers how it came about, because that decides what may still be added to it. Fields keep the
order in which they were first written.
-/

namespace VersionGroups

namespace Toml

/-- How a table came about: by a header of its own, by a header of a table inside it, by a dotted
key, or by being written as a value. -/
inductive Origin where
  | headed
  | implied
  | dotted
  | inline
  deriving DecidableEq, Repr

/-- A value of a document. -/
inductive Value where
  | integer (value : Int)
  | text (value : String)
  | list (items : List Value)
  | table (origin : Origin) (fields : List (String × Value))
  deriving Inhabited

abbrev Fields := List (String × Value)

def Fields.get? (fields : Fields) (key : String) : Option Value :=
  (fields.find? (fun f => f.1 == key)).map (·.2)

/-- The fields with a value for a key, in the place of the one it had. -/
def Fields.set (fields : Fields) (key : String) (value : Value) : Fields :=
  if fields.any (fun f => f.1 == key) then
    fields.map fun f => if f.1 == key then (key, value) else f
  else fields ++ [(key, value)]

/-- Why a text is no document. -/
inductive SyntaxError where
  | unexpected
  | badEscape
  | duplicateKey (key : String)
  | nestedTooDeep
  deriving DecidableEq, Repr

/-- What went wrong, in words. -/
def SyntaxError.message : SyntaxError → String
  | .unexpected => "unexpected character or end of text"
  | .badEscape => "invalid escape"
  | .duplicateKey key => "duplicate key " ++ key
  | .nestedTooDeep => "values are nested too deep"

/-- Adds a value under a dotted path of keys. The tables on the way may have come about by dotted
keys; one that a header implied may be passed through but not be written to. -/
def addDotted (fields : Fields) (value : Value) : List String → Except SyntaxError Fields
  | [] => .ok fields
  | [key] =>
      match fields.get? key with
      | some _ => .error (.duplicateKey key)
      | none => .ok (fields.set key value)
  | key :: next :: rest =>
      match fields.get? key with
      | none => do
          return fields.set key (.table .dotted (← addDotted [] value (next :: rest)))
      | some (.table .dotted inner) => do
          return fields.set key (.table .dotted (← addDotted inner value (next :: rest)))
      | some (.table .implied inner) =>
          if rest.isEmpty then .error (.duplicateKey next)
          else do return fields.set key (.table .implied (← addDotted inner value (next :: rest)))
      | some _ => .error (.duplicateKey key)

/-- Opens the table of a header. It may have been implied by the header of a table inside it, but
may not have come about in any other way. -/
def openTable (fields : Fields) : List String → Except SyntaxError Fields
  | [] => .ok fields
  | [key] =>
      match fields.get? key with
      | none => .ok (fields.set key (.table .headed []))
      | some (.table .implied inner) => .ok (fields.set key (.table .headed inner))
      | some _ => .error (.duplicateKey key)
  | key :: next :: rest =>
      match fields.get? key with
      | none => do return fields.set key (.table .implied (← openTable [] (next :: rest)))
      | some (.table .inline _) => .error (.duplicateKey key)
      | some (.table origin inner) => do
          return fields.set key (.table origin (← openTable inner (next :: rest)))
      | some _ => .error (.duplicateKey key)

/-- Adds a value under a dotted path of keys to the table of a header. -/
def addBelow (fields : Fields) (path : List String) (value : Value) :
    List String → Except SyntaxError Fields
  | [] => addDotted fields value path
  | key :: rest =>
      match fields.get? key with
      | some (.table origin inner) => do
          return fields.set key (.table origin (← addBelow inner path value rest))
      | _ => .error (.duplicateKey key)

end Toml

end VersionGroups
