import VersionGroups.Fault

/-!
# Written directions and type paths

A direction is written `c2s` or `s2c`, in letters of either case and with blanks around it. A type
path is a name, or a direction, a state and a name with points between them. A lone name must not be
a direction, because scoped types are filed under their direction.
-/

namespace VersionGroups

/-- The direction that a text names. -/
def Direction.parse (text : String) : Except Fault Direction :=
  match Direction.ofName? (normalized text) with
  | some d => .ok d
  | none => .error (.unknownDirection text)

/-- The segments of a path between its points, without the blanks at both ends of the path. -/
def pathSegments (path : String) : List String :=
  ((trimBlanks path.toList).splitOn '.').map String.ofList

/-- The type that a path names. -/
def TypeName.parse (path : String) : Except Fault TypeName :=
  let segments := pathSegments path
  if segments.any (· == "") then .error (.invalidTypePath path)
  else
    match segments with
    | [name] =>
        match Direction.parse name with
        | .ok _ => .error (.invalidTypePath path)
        | .error _ => .ok ⟨.common, name⟩
    | [direction, state, name] => do
        return ⟨.scoped (← Direction.parse direction) state, name⟩
    | _ => .error (.invalidTypePath path)

end VersionGroups
