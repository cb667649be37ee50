import VersionGroups.Generator.Child
import VersionGroups.Shell.Expansion

/-!
# Commands of the shell itself

Commands that change the machine: they read variables, send and catch signals, turn options on and
off, and read the options of a script.
-/

namespace VersionGroups

namespace Shell

/-- The next line of the input, whether it has an end, and the input after it. Unless `raw` is set,
a backslash is dropped, together with a line break after it. -/
def takeLine (raw : Bool) : List UInt8 → List UInt8 × Bool × List UInt8
  | [] => ([], false, [])
  | b :: c :: rest =>
      if b = 10 then ([], true, c :: rest)
      else if b = 92 ∧ !raw then
        let (line, ended, rest) := takeLine raw rest
        (if c = 10 then line else c :: line, ended, rest)
      else
        let (line, ended, rest) := takeLine raw (c :: rest)
        (b :: line, ended, rest)
  | [b] => if b = 10 then ([], true, []) else ([b], false, [])

/-- Gives the words of a line to names; the last name takes what is left. -/
def assignWords (machine : Machine) (separators : List Char) : List String → List Char → Machine
  | [], _ => machine
  | [name], cs =>
      let cs := cs.dropWhile (isGap separators)
      machine.set name (String.ofList (cs.reverse.dropWhile (isGap separators)).reverse)
  | name :: rest, cs =>
      let cs := cs.dropWhile (isGap separators)
      let first := cs.takeWhile (!separators.contains ·)
      let after := (cs.drop first.length).dropWhile (isGap separators)
      let after :=
        if after.head?.any fun c => separators.contains c then after.tail else after
      assignWords (machine.set name (String.ofList first)) separators rest after

/-- The options of reading a line and the names behind them. -/
def readNames (raw : Bool) : List String → Bool × List String
  | "-p" :: _ :: rest => readNames raw rest
  | "-r" :: rest => readNames true rest
  | "--" :: rest => (raw, rest)
  | names => (raw, names)

def readLine (machine : Machine) (args : List String) : Machine :=
  let (raw, names) := readNames false args
  if names.isEmpty then machine.refuse "read: arg count" 2
  else
    let (line, ended, rest) := takeLine raw machine.input
    let machine := machine.withInput rest
    (assignWords machine machine.separators names (line.map byteChar)).withStatus
      (if ended then 0 else 1)

/-! ## Signals -/

/-- The signals that a process ignores unless it says otherwise. -/
def ignoredSignals : List Nat := [0, 17, 18, 23, 28]

def signal? (text : String) : Option Nat :=
  let text := if text.startsWith "SIG" then String.ofList (text.toList.drop 3) else text
  ((baseValue? 10 text.toList).filter (· < 65)).or
    ((Child.signals.find? (fun s => s.1 == text)).map (·.2))

/-- The signal and the processes that the arguments of a kill name, or why they name none. -/
def killTargets (args : List String) : Except String (Nat × List String) :=
  match args with
  | [] =>
      .error ("Usage: kill [-s sigspec | -signum | -sigspec] [pid | job]... or\n" ++
        "kill -l [exitstatus]")
  | "-s" :: name :: rest =>
      match signal? name with
      | some n => .ok (n, rest)
      | none => .error s!"invalid signal number or name: {name}"
  | first :: rest =>
      match first.toList with
      | '-' :: name =>
          match signal? (String.ofList name) with
          | some n => .ok (n, rest)
          | none => .error s!"Illegal option -{String.ofList (name.take 1)}"
      | _ => .ok (15, args)

/-- Sends a signal. Only the process of the script itself can be reached. -/
def kill (machine : Machine) (args : List String) : Machine × Option Nat :=
  if args.head? = some "-l" then (machine.withStatus 0, none)
  else
    match killTargets args with
    | .error message => (machine.refuse s!"kill: {message}" 2, none)
    | .ok (signal, targets) =>
        if targets.contains Machine.processId then
          (machine.withStatus 0, if ignoredSignals.contains signal then none else some signal)
        else (machine.refuse "kill: No such process" 1, none)

/-- Sets what is to be done at a signal, or at the end, which has the number zero. -/
def setTrap (machine : Machine) (action : String) (name : String) : Machine :=
  match if name = "EXIT" then some 0 else signal? name with
  | some number =>
      let others := machine.traps.filter fun t => t.1 != number
      { machine with traps := if action = "-" then others else (number, action) :: others }
  | none => machine

/-! ## Statuses and options of the shell -/

def statusOf (machine : Machine) (args : List String) : Except String Nat :=
  match args with
  | [] => .ok machine.status
  | text :: _ =>
      match baseValue? 10 text.toList with
      | some n => .ok (n % 256)
      | none => .error text

/-- Turns options on or off by their letters. -/
def setLetters (machine : Machine) (on : Bool) (letters : List Char) : Machine :=
  match letters.find? (fun c => !"abCefhimnuvxV".toList.contains c) with
  | some c => machine.halt s!"set: Illegal option -{c}"
  | none =>
      { machine with
        strict := if letters.contains 'e' then on else machine.strict
        careful := if letters.contains 'u' then on else machine.careful
        literal := if letters.contains 'f' then on else machine.literal
        traced := if letters.contains 'x' then on else machine.traced
        status := 0 }

/-- Turns options on or off, and sets the parameters to the other arguments. -/
def setOptions (machine : Machine) : List String → Machine
  | [] => machine.withStatus 0
  | "--" :: rest => { machine with parameters := rest, status := 0 }
  | option :: name :: rest =>
      match option.toList with
      | ['-', 'o'] => named machine true name rest
      | ['+', 'o'] => named machine false name rest
      | '-' :: letters =>
          setOptions (setLetters machine true letters) (name :: rest)
      | '+' :: letters =>
          setOptions (setLetters machine false letters) (name :: rest)
      | _ => { machine with parameters := option :: name :: rest, status := 0 }
  | [option] =>
      match option.toList with
      | '-' :: letters => setLetters machine true (letters.filter (· != 'o'))
      | '+' :: letters => setLetters machine false (letters.filter (· != 'o'))
      | _ => { machine with parameters := [option], status := 0 }
where
  /-- An option with a longer name. -/
  named (machine : Machine) (on : Bool) (name : String) (rest : List String) : Machine :=
    match name with
    | "errexit" => setOptions { machine with strict := on } rest
    | "nounset" => setOptions { machine with careful := on } rest
    | "noglob" => setOptions { machine with literal := on } rest
    | "xtrace" => setOptions { machine with traced := on } rest
    | _ => machine.halt s!"set: Illegal option -o {name}"

/-! ## Options of a script -/

/-- What reading an option of a script comes to: the name that is set, the value of the option, the
places of the next option, a complaint and whether there was an option. -/
structure OptionRead where
  name : String
  value : Option String := none
  index : Nat
  place : Nat := 1
  complaint : String := ""
  found : Bool := true

/-- Reads the option at a place of a word, of which the next words may be the value. -/
def optionAt (known : List Char) (silent : Bool) (words : List String) (index place : Nat) :
    OptionRead :=
  let word := (words.getD (index - 1) "").toList
  let ended : OptionRead := { name := "?", index, found := false }
  if place ≤ 1 ∧ (word.head? ≠ some '-' ∨ word.length ≤ 1) then ended
  else if place ≤ 1 ∧ word = ['-', '-'] then { ended with index := index + 1 }
  else
    let place := max 1 place
    let c := word.getD place '?'
    let after := word.drop (place + 1)
    let (nextIndex, nextPlace) := if after.isEmpty then (index + 1, 1) else (index, place + 1)
    let letter := String.ofList [c]
    match known.findIdx? (· == c) with
    | none =>
        if silent then
          { name := "?", value := some letter, index := nextIndex, place := nextPlace }
        else
          { name := "?", index := nextIndex, place := nextPlace
            complaint := s!"Illegal option -{letter}\n" }
    | some i =>
        if known[i + 1]? != some ':' then
          { name := letter, index := nextIndex, place := nextPlace }
        else if !after.isEmpty then
          { name := letter, value := some (String.ofList after), index := index + 1 }
        else
          match words[index]? with
          | some value => { name := letter, value := some value, index := index + 2 }
          | none =>
              if silent then { name := ":", value := some letter, index := index + 1 }
              else
                { name := "?", index := index + 1
                  complaint := s!"No arg for -{letter} option\n" }

/-- Reads the next option of the parameters, or of other words, into a variable. -/
def getopts (machine : Machine) (args : List String) : Machine :=
  match args with
  | letters :: name :: rest =>
      let words := if rest.isEmpty then machine.parameters else rest
      let index := max 1 (((machine.value? "OPTIND").bind fun t => baseValue? 10 t.toList).getD 1)
      let silent := letters.startsWith ":"
      let known := if silent then letters.toList.tail else letters.toList
      let read := optionAt known silent words index machine.optionPlace
      let machine := machine.print 2 read.complaint
      let machine := (machine.set name read.name).set "OPTIND" (toString read.index)
      let machine :=
        match read.value with
        | some value => machine.set "OPTARG" value
        | none => machine.unset "OPTARG"
      { machine with optionPlace := read.place, status := if read.found then 0 else 1 }
  | _ => machine.halt "getopts: Usage: getopts optstring var [arg...]"

/-! ## Names of commands -/

/-- The commands that only the shell itself knows. -/
def specialBuiltins : List String :=
  [":", ".", "break", "continue", "eval", "exec", "exit", "export", "readonly", "return", "set",
    "shift", "times", "trap", "unset"]

def otherBuiltins : List String :=
  ["echo", "printf", "read", "kill", "test", "[", "true", "false", "cd", "pwd", "wait", "command",
    "type", "local", "umask", "ulimit", "hash", "alias", "unalias", "getopts", "jobs", "bg", "fg"]

/-- What is told of a program that a signal ended, and the status after it. -/
def signalNotice (signal : Nat) : String :=
  match signal with
  | 1 => "Hangup\n"
  | 3 => "Quit\n"
  | 6 => "Aborted\n"
  | 9 => "Killed\n"
  | 11 => "Segmentation fault\n"
  | 14 => "Alarm clock\n"
  | 15 => "Terminated\n"
  | _ => ""

end Shell

end VersionGroups
