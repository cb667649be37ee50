import VersionGroups.Generator.Child

/-!
# The host of the program

What the program finds around it, apart from the files: its environment, how programs are started,
the manual that goes with the arguments, and where texts are printed. Printing can fail. A program
that cannot print the outcome of a command stops at once with a code of its own, whatever it has
done by then; a manual, or what is wrong with the arguments, is printed as far as it goes.
-/

namespace VersionGroups

namespace CommandLine

/-- What a command leaves behind. -/
structure Result where
  exitCode : Nat
  output : String
  errors : String
  tree : FileTree

structure Host where
  environment : List (String × String)
  launcher : Child.Launcher
  /-- The manual of the program, or of one of its commands. -/
  manual : Option String → String
  /-- How much of a text has been printed when printing it fails; nothing if it does not fail. -/
  brokenOutput? : String → Option String
  /-- The same for the errors. -/
  brokenErrors? : String → Option String

namespace Host

/-- Every text can be printed. -/
structure Prints (host : Host) : Prop where
  output : ∀ text, host.brokenOutput? text = none
  errors : ∀ text, host.brokenErrors? text = none

/-- The exit code of a program that stops because it cannot print. -/
def stopped : Nat := 101

/-- The end of a command that tells its outcome. -/
def tell (host : Host) (output : String) (tree : FileTree) : Result :=
  match host.brokenOutput? output with
  | none => ⟨0, output, "", tree⟩
  | some printed => ⟨stopped, printed, "failed printing to stdout\n", tree⟩

/-- The end of a command that complains. -/
def complain (host : Host) (code : Nat) (errors : String) (tree : FileTree) : Result :=
  match host.brokenErrors? errors with
  | none => ⟨code, "", errors, tree⟩
  | some printed => ⟨stopped, "", printed, tree⟩

/-- The end of a command: it has a text to tell, or it has failed for a reason. -/
def conclude (host : Host) : Except String String × FileTree → Result
  | (.ok output, tree) => host.tell output tree
  | (.error message, tree) => host.complain 1 s!"Error: {message}\n" tree

/-- The end of a program that shows a manual. -/
def showManual (host : Host) (command : Option String) (tree : FileTree) : Result :=
  let text := host.manual command
  ⟨0, (host.brokenOutput? text).getD text, "", tree⟩

/-- The end of a program that was called in a wrong way. -/
def reject (host : Host) (errors : String) (tree : FileTree) : Result :=
  ⟨2, "", (host.brokenErrors? errors).getD errors, tree⟩

@[simp] theorem tree_tell (host : Host) (output : String) (tree : FileTree) :
    (host.tell output tree).tree = tree := by
  rw [tell]
  split <;> rfl

@[simp] theorem tree_complain (host : Host) (code : Nat) (errors : String) (tree : FileTree) :
    (host.complain code errors tree).tree = tree := by
  rw [complain]
  split <;> rfl

@[simp] theorem tree_conclude (host : Host) (done : Except String String × FileTree) :
    (host.conclude done).tree = done.2 := by
  rcases done with ⟨_ | _, tree⟩ <;> simp [conclude]

theorem exitCode_complain_ne_zero (host : Host) {code : Nat} (hcode : code ≠ 0) (errors : String)
    (tree : FileTree) : (host.complain code errors tree).exitCode ≠ 0 := by
  rw [complain]
  split
  · exact hcode
  · exact Nat.succ_ne_zero 100

/-- A command that has a text to tell succeeds if the text can be printed. -/
theorem exitCode_tell (host : Host) (output : String) (tree : FileTree) :
    (host.tell output tree).exitCode =
      if host.brokenOutput? output = none then 0 else stopped := by
  rw [tell]
  split <;> rename_i h <;> simp [h]

/-- A command that succeeds had a text to tell. -/
theorem exists_ok_of_exitCode_conclude {host : Host} {done : Except String String × FileTree}
    (h : (host.conclude done).exitCode = 0) : ∃ output, done.1 = .ok output := by
  rcases done with ⟨message | output, tree⟩
  · exact absurd h (host.exitCode_complain_ne_zero Nat.one_ne_zero _ tree)
  · exact ⟨output, rfl⟩

end Host

end CommandLine

end VersionGroups
