import VersionGroups.CommandLine.Commands
import VersionGroups.Shell.Run

/-!
# The command line on the machine

The machine runs the usual small programs and scripts made of them. On it the program can be tried
with generators of that kind, and every text can be printed.
-/

namespace VersionGroups

/-- The generator that a command is on the machine. -/
def GeneratorCommand.generator (command : GeneratorCommand) (environment : List (String × String)) :
    Generator FileTree :=
  command.generatorBy Shell.launcher environment

namespace CommandLine

/-- The options of a command, one a line. -/
def optionLines (options : Options) : String :=
  String.join (options.map fun o =>
    match o.2 with
    | .flag => s!"  --{o.1}\n"
    | _ => s!"  --{o.1} <value>\n")

def shortManual : Option String → String
  | none => "usage: wiregroup [--log <value>] run|check|untracked|help [options]\n"
  | some command =>
      s!"usage: wiregroup {command} [options]\n" ++ optionLines ((optionsOf? command).getD [])

/-- The machine as a host. -/
def machineHost (environment : List (String × String)) : Host where
  environment := environment
  launcher := Shell.launcher
  manual := shortManual
  brokenOutput? _ := none
  brokenErrors? _ := none

/-- What the program does on the machine. -/
def respond (environment : List (String × String)) (arguments : List String) (tree : FileTree) :
    Result :=
  serve (machineHost environment) arguments tree

end CommandLine

end VersionGroups
