import VersionGroups.Shell.Characters
import VersionGroups.Shell.Checksums
import VersionGroups.Shell.Conditions
import VersionGroups.Shell.Counting
import VersionGroups.Shell.Editing
import VersionGroups.Shell.Encoding
import VersionGroups.Shell.Expressions
import VersionGroups.Shell.Fields
import VersionGroups.Shell.Filing
import VersionGroups.Shell.Finding
import VersionGroups.Shell.Search
import VersionGroups.Shell.Sorting

/-!
# The programs that there are

Commands name programs by a name, or by a path in one of the directories of programs.
-/

namespace VersionGroups

namespace Shell

def Filter.program (filter : Filter) : Program := fun _ args input => filter args input

/-- The programs that use no files, by name. -/
def filter? (name : String) : Option Filter :=
  match name with
  | "echo" => some plainEcho
  | "printf" => some plainPrintf
  | "true" => some succeed
  | "false" => some fail
  | "sleep" => some succeed
  | "sync" => some succeed
  | "seq" => some seq
  | "yes" => some yes
  | "tr" => some tr
  | "basename" => some basename
  | "dirname" => some dirname
  | "expr" => some expr
  | "uname" => some fun args input =>
      { output := octets (if args = [] ∨ args = ["-s"] then "Linux\n" else "\n"), input }
  | _ => none

/-- The programs that use files, by name. -/
def fileProgram? (name : String) : Option Program :=
  match name with
  | "cat" => some cat
  | "tac" => some tac
  | "head" => some head
  | "tail" => some tail
  | "tee" => some tee
  | "dd" => some dd
  | "wc" => some wc
  | "grep" => some grep
  | "egrep" => some (search "egrep" true false)
  | "fgrep" => some (search "fgrep" false true)
  | "sed" => some sed
  | "sort" => some sort
  | "uniq" => some uniq
  | "comm" => some comm
  | "cut" => some cut
  | "paste" => some paste
  | "nl" => some nl
  | "rev" => some rev
  | "fold" => some fold
  | "expand" => some expandTabs
  | "base64" => some base64
  | "od" => some od
  | "md5sum" => some md5sum
  | "sha1sum" => some sha1sum
  | "sha256sum" => some sha256sum
  | "cksum" => some cksum
  | "test" => some (test "test: ")
  | "[" => some (bracketTest "[: ")
  | _ => none

/-- The programs that list or change files, by name. -/
def filingProgram? (name : String) : Option Program :=
  match name with
  | "ls" => some ls
  | "stat" => some stat
  | "realpath" => some realpath
  | "mkdir" => some mkdir
  | "rmdir" => some rmdir
  | "rm" => some rm
  | "cp" => some cp
  | "mv" => some mv
  | "ln" => some ln
  | "touch" => some touch
  | "chmod" => some chmod
  | "truncate" => some truncate
  | "mktemp" => some mktemp
  | _ => none

/-- The programs by name, apart from those that start others. -/
def program? (name : String) : Option Program :=
  ((filter? name).map Filter.program).or ((fileProgram? name).or (filingProgram? name))

def startingPrograms : List String :=
  ["sh", "dash", "bash", "env", "printenv", "xargs", "find", "timeout", "nice", "nohup", "stdbuf"]

def programDirectories : List String := ["/bin/", "/usr/bin/"]

/-- The name of the program that a command names by its name or its path. -/
def programName (command : String) : String :=
  match programDirectories.find? (fun (d : String) => command.startsWith d) with
  | some directory => String.ofList (command.toList.drop directory.length)
  | none => command

end Shell

end VersionGroups
