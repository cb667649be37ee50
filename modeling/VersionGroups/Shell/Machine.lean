import VersionGroups.Shell.Arithmetic
import VersionGroups.Shell.Reader

/-!
# The state of a running script

A machine has variables, a file tree, numbered sources of input and numbered buffers of output, and
says where the streams of the next command lead, so that pipes and redirections only change that.
-/

namespace VersionGroups

namespace Shell

/-- How a run goes on: with the next command, out of some loops, at the next turn of a loop, out of
a function, or not at all, because the script has ended or a signal has come. -/
inductive Flow where
  | onward
  | leave (loops : Nat)
  | again (loops : Nat)
  | returning
  | ended
  | killed (signal : Nat)
  deriving DecidableEq, Repr

/-- What leaving or repeating a loop amounts to outside of it. -/
def Flow.outside : Flow → Flow
  | .leave (n + 2) => .leave (n + 1)
  | .leave _ => .onward
  | .again (n + 2) => .again (n + 1)
  | .again _ => .onward
  | flow => flow

def Flow.repeats : Flow → Bool
  | .onward => true
  | .again n => decide (n ≤ 1)
  | _ => false

/-- What a flow in a copy of the machine amounts to for the machine itself. -/
def Flow.afterCopy : Flow → Flow
  | .killed signal => .killed signal
  | _ => .onward

/-- Where a stream leads: nowhere, to a numbered source of input, to a numbered buffer of output, or
to the end of a file. -/
inductive Channel where
  | nowhere
  | source (index : Nat)
  | buffer (index : Nat)
  | file (location : Location)
  deriving DecidableEq, Repr

/-- What is left of a source of input: some bytes, or a file from a place on. -/
inductive Supply where
  | held (rest : List UInt8)
  | file (location : Location) (offset : Nat)

/-- The state of a run. The streams say where the numbered streams of the next command lead, and a
machine is halted when a word could not be expanded. Inside a function `saved` holds the former
values of the variables that are local to it; `context` precedes what is told of the commands of a
script within a script. -/
structure Machine where
  name : String
  parameters : List String
  bindings : List (String × String)
  exported : List String
  frozen : List String := []
  inputs : Array Supply
  outputs : Array ByteArray
  streams : List (Nat × Channel)
  tree : FileTree
  directory : Location := []
  functions : List (String × Command) := []
  traps : List (Nat × String) := []
  saved : Option (List (String × Option String)) := none
  loops : Nat := 0
  line : Nat := 1
  context : String := ""
  optionPlace : Nat := 1
  status : Nat := 0
  strict : Bool := false
  careful : Bool := false
  literal : Bool := false
  traced : Bool := false
  halted : Bool := false

namespace Machine

def processId : String := "4242"

def furnished (tree : FileTree) : FileTree :=
  standardDirectories.foldl
    (fun tree location =>
      if (tree.entry? location).isSome then tree else tree.put location .directory)
    tree

def start (name : String) (parameters : List String) (bindings : List (String × String))
    (tree : FileTree) (input : List UInt8) : Machine :=
  { name, parameters
    bindings := bindings ++ [("PWD", home), ("OPTIND", "1"), ("PPID", "4200")]
    exported := bindings.map (·.1)
    inputs := #[.held input]
    outputs := #[.empty, .empty]
    streams := [(0, .source 0), (1, .buffer 0), (2, .buffer 1)]
    tree := furnished tree }

/-! ## Streams -/

/-- Where a stream leads, if it is open. -/
def channel? (machine : Machine) (stream : Nat) : Option Channel :=
  (machine.streams.find? (fun s => s.1 == stream)).map (·.2)

/-- The machine with a stream that leads elsewhere; with `none` it is closed. -/
def lead (machine : Machine) (stream : Nat) (channel : Option Channel) : Machine :=
  let others := machine.streams.filter fun s => s.1 != stream
  { machine with streams := (channel.map (stream, ·)).toList ++ others }

def supplied (machine : Machine) : Supply → List UInt8
  | .held rest => rest
  | .file location offset =>
      match machine.tree.entry? location with
      | some (.file content) => content.toList.drop offset
      | _ => []

def input (machine : Machine) : List UInt8 :=
  match machine.channel? 0 with
  | some (.source i) => (machine.inputs[i]?.map machine.supplied).getD []
  | _ => []

def seekable (machine : Machine) : Bool :=
  match machine.channel? 0 with
  | some (.source i) =>
      match machine.inputs[i]? with
      | some (.file _ _) => true
      | _ => false
  | _ => false

def withInput (machine : Machine) (rest : List UInt8) : Machine :=
  match machine.channel? 0 with
  | some (.source i) =>
      match machine.inputs[i]? with
      | some (.held _) => { machine with inputs := machine.inputs.setIfInBounds i (.held rest) }
      | some (.file location offset) =>
          let used := (machine.supplied (.file location offset)).length - rest.length
          { machine with
            inputs := machine.inputs.setIfInBounds i (.file location (offset + used)) }
      | none => machine
  | _ => machine

def write (machine : Machine) (stream : Nat) (content : ByteArray) : Machine :=
  match machine.channel? stream with
  | some (.buffer i) => { machine with outputs := machine.outputs.modify i (· ++ content) }
  | some (.file location) => { machine with tree := machine.tree.append location content }
  | _ => machine

def print (machine : Machine) (stream : Nat) (text : String) : Machine :=
  machine.write stream (octets text)

/-- The machine with a new source of input, to which a stream leads. -/
def feed (machine : Machine) (stream : Nat) (supply : Supply) : Machine :=
  let index := machine.inputs.size
  { machine with inputs := machine.inputs.push supply }.lead stream (some (.source index))

def surroundings (machine : Machine) : Surroundings :=
  ⟨machine.tree, machine.directory, machine.seekable⟩

/-! ## Complaints -/

def caller (machine : Machine) : String := s!"{machine.name}: {machine.line}: "

/-- Writes a complaint under the name of the script. -/
def complain (machine : Machine) (message : String) : Machine :=
  machine.print 2 s!"{machine.caller}{message}\n"

def withStatus (machine : Machine) (status : Nat) : Machine := { machine with status }

def refuse (machine : Machine) (message : String) (status : Nat) : Machine :=
  (machine.complain message).withStatus status

/-- Complains of something in the text of a script and fails. -/
def refuseText (machine : Machine) (message : String) (status : Nat) : Machine :=
  machine.refuse (machine.context ++ message) status

def halt (machine : Machine) (message : String) : Machine :=
  { machine.refuse message 2 with halted := true }

/-- Complains of something in the text of a script and halts. -/
def haltText (machine : Machine) (message : String) : Machine :=
  machine.halt (machine.context ++ message)

def settled (machine : Machine) (flow : Flow) : Machine × Flow :=
  if machine.halted then (machine, .ended) else (machine, flow)

def letters (machine : Machine) : String :=
  String.ofList
    ((if machine.strict then ['e'] else []) ++ (if machine.literal then ['f'] else []) ++
      (if machine.traced then ['x'] else []) ++ if machine.careful then ['u'] else [])

/-- The value of a parameter, if it is set. -/
def value? (machine : Machine) (name : String) : Option String :=
  match name with
  | "0" => some machine.name
  | "#" => some (toString machine.parameters.length)
  | "?" => some (toString machine.status)
  | "$" => some processId
  | "!" => none
  | "-" => some machine.letters
  | "@" => allParameters
  | "*" => allParameters
  | _ =>
      match baseValue? 10 name.toList with
      | some n => machine.parameters[n - 1]?
      | none => (machine.bindings.find? (fun v => v.1 == name)).map (·.2)
where
  /-- All parameters with spaces between them. -/
  allParameters : Option String :=
    if machine.parameters.isEmpty then none
    else some (String.intercalate " " machine.parameters)

def unset (machine : Machine) (name : String) : Machine :=
  { machine with bindings := machine.bindings.filter fun v => v.1 != name }

def set (machine : Machine) (name value : String) : Machine :=
  let machine := machine.unset name
  { machine with bindings := (name, value) :: machine.bindings }

/-- Gives a variable back a former value, or none. -/
def restore (machine : Machine) (former : String × Option String) : Machine :=
  match former.2 with
  | some value => machine.set former.1 value
  | none => machine.unset former.1

/-- Sets the variable that an argument assigns to, if it does, and tells its name. -/
def assignArgument (machine : Machine) (text : String) : Machine × String :=
  match assignment? text.toList with
  | some (name, value) => (machine.set name (String.ofList value), name)
  | none => (machine, text)

def numberOf (machine : Machine) (name : String) : Except ArithmeticError Int :=
  match machine.value? name with
  | none => .ok 0
  | some "" => .ok 0
  | some text =>
      match wholeNumber? text with
      | some n => .ok n
      | none => .error (.noNumber text)

def environment (machine : Machine) : List (String × String) :=
  machine.bindings.filter fun v => machine.exported.contains v.1

/-- The machine after commands that ran in a copy of it. -/
def afterCopy (machine copy : Machine) : Machine :=
  let { inputs, outputs, tree, status, .. } := copy
  { machine with inputs, outputs, tree, status }

def separators (machine : Machine) : List Char :=
  match machine.value? "IFS" with
  | some text => text.toList
  | none => [' ', '\t', '\n']

end Machine

end Shell

end VersionGroups
