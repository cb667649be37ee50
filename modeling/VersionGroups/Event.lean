import VersionGroups.ErrorReport

/-!
# Events of a computation

A computation tells when an activity starts and how it ends, which artifacts were not generated and
when a manifest was found to be out of date. A logged value carries the events of its computation in
their order.
-/

namespace VersionGroups

/-- What a computation is doing. -/
inductive Activity where
  | deduplication
  | grouping (slot : String)
  | run
  | untrackedReport
  | corpusLoading (directory : String)
  deriving DecidableEq, Repr

/-- The operation under which an activity is logged. -/
def Activity.operation : Activity → String
  | .deduplication => "deduplicate"
  | .grouping _ => "group_slot"
  | .run => "run"
  | .untrackedReport => "untracked_packets"
  | .corpusLoading _ => "load_corpus"

/-- One event; counts are named. -/
inductive Event where
  | started (activity : Activity) (counts : List (String × Nat))
  | finished (activity : Activity) (counts : List (String × Nat))
  | failed (activity : Activity) (kind : ErrorKind)
  | gap (slot : String) (version : Version) (kind : ErrorKind) (reason : String)
  | manifestStale (expected : String) (found : Option String)
  deriving DecidableEq, Repr

/-- A value with the events of its computation. -/
structure Logged (α : Type) where
  events : List Event
  value : α

namespace Logged

/-- A value without events. -/
def silent {α : Type} (value : α) : Logged α := ⟨[], value⟩

/-- The events of a computation followed by those of the next. -/
def next {α β : Type} (first : Logged α) (second : α → Logged β) : Logged β :=
  let result := second first.value
  ⟨first.events ++ result.events, result.value⟩

/-- Goes on with the value of a computation that succeeded. -/
def thenTry {ε α β : Type} (first : Logged (Except ε α)) (second : α → Logged (Except ε β)) :
    Logged (Except ε β) :=
  match first.value with
  | .ok a =>
      let result := second a
      ⟨first.events ++ result.events, result.value⟩
  | .error e => ⟨first.events, .error e⟩

/-- The events of an activity around those of its computation. -/
def bracket {ε α : Type} (activity : Activity) (before : List (String × Nat))
    (after : α → List (String × Nat)) (kind : ε → ErrorKind) (body : Logged (Except ε α)) :
    Logged (Except ε α) :=
  let last :=
    match body.value with
    | .ok a => Event.finished activity (after a)
    | .error e => Event.failed activity (kind e)
  ⟨Event.started activity before :: body.events ++ [last], body.value⟩

end Logged

end VersionGroups
