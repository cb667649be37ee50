import VersionGroups.Files.Tree

/-!
# Child processes

A program that another one starts lies outside the library. What starting it comes to is a
function, the launcher, of what is started and of the files that it finds; every way in which it can
fail is an answer of that function.
-/

namespace VersionGroups

namespace Child

/-- The numbers of signals by name. -/
def signals : List (String × Nat) :=
  [("HUP", 1), ("INT", 2), ("QUIT", 3), ("ILL", 4), ("TRAP", 5), ("ABRT", 6), ("BUS", 7),
    ("FPE", 8), ("KILL", 9), ("USR1", 10), ("SEGV", 11), ("USR2", 12), ("PIPE", 13), ("ALRM", 14),
    ("TERM", 15), ("STKFLT", 16), ("CHLD", 17), ("CONT", 18), ("URG", 23), ("XCPU", 24),
    ("XFSZ", 25), ("VTALRM", 26), ("PROF", 27), ("WINCH", 28), ("IO", 29), ("PWR", 30),
    ("SYS", 31)]

/-- How a process ends. One that a signal ends may leave a dump. -/
inductive Exit where
  | status (code : Nat)
  | signal (number : Nat) (dumped : Bool)
  deriving DecidableEq, Repr

/-- The name of a signal behind its number, where it has one. -/
def signalText (number : Nat) : String :=
  match signals.find? (fun s => s.2 == number) with
  | some (name, _) => s!"signal: {number} (SIG{name})"
  | none => s!"signal: {number}"

/-- How a process ended, in words; a status of zero is a success. -/
def Exit.failureText? : Exit → Option String
  | .status 0 => none
  | .status code => some s!"exit status: {code}"
  | .signal number dumped => some (signalText number ++ if dumped then " (core dumped)" else "")

/-- A process that has ended. -/
structure Ended where
  exit : Exit
  output : ByteArray
  errors : ByteArray

/-- Why nothing can be said about the end of a process: it was not started, it was lost, or its
input could not be written. -/
inductive Failure where
  | notStarted (cause : String)
  | notFinished (cause : String)
  | notFed (cause : String)
  deriving DecidableEq, Repr

/-- What is started. -/
structure Launch where
  program : String
  arguments : List String
  environment : List (String × String)
  input : ByteArray

/-- What starting programs comes to, with the files after it. -/
abbrev Launcher := Launch → FileTree → Except Failure Ended × FileTree

end Child

end VersionGroups
