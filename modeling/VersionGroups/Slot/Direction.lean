/-!
# Directions

A packet travels from the client to the server or back.
-/

namespace VersionGroups

/-- The way a packet travels. -/
inductive Direction where
  | toServer
  | toClient
  deriving DecidableEq, Repr

namespace Direction

/-- Both directions in their order. -/
def all : List Direction := [.toServer, .toClient]

/-- The short name of a direction. -/
def name : Direction → String
  | .toServer => "c2s"
  | .toClient => "s2c"

/-- The key under which a document holds the packets of a direction. -/
def documentKey : Direction → String
  | .toServer => "toServer"
  | .toClient => "toClient"

/-- The direction with exactly this short name. -/
def ofName? (s : String) : Option Direction :=
  if s = "c2s" then some .toServer else if s = "s2c" then some .toClient else none

@[simp] theorem ofName?_name (d : Direction) : ofName? d.name = some d := by
  cases d <;> decide

theorem name_injective {d e : Direction} (h : d.name = e.name) : d = e := by
  have := ofName?_name d
  rw [h, ofName?_name] at this
  exact (Option.some.inj this).symm

end Direction

end VersionGroups
