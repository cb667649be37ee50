/-!
# Logging profiles

How the events of a command are written out.
-/

namespace VersionGroups

/-- A form of the log: for people, for other programs, or for tests. -/
inductive Profile where
  | development
  | production
  | test
  deriving DecidableEq, Repr

/-- The profile that a name stands for. -/
def Profile.ofName? (name : String) : Option Profile :=
  match name with
  | "dev" => some .development
  | "development" => some .development
  | "prod" => some .production
  | "production" => some .production
  | "json" => some .production
  | "test" => some .test
  | _ => none

end VersionGroups
