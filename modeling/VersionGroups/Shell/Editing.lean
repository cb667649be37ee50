import VersionGroups.Shell.Copying
import VersionGroups.Shell.EditScript

/-!
# Editing lines

The rules of a script are applied to each line in turn. The line that is edited and a held text are
kept from rule to rule; a line is put out at the end of its turn. The last line of a file may lack
its end, and then what is put out for it does too.
-/

namespace VersionGroups

namespace Shell

/-! ## Replacing matches -/

/-- The text of a replacement with changes of case: the change that lasts, and one for the next
character only. -/
def replacementText (matched : List Char) (place : Regex.Place) :
    CaseChange → CaseChange → List ReplacementPart → List Char
  | _, _, [] => []
  | lasting, next, part :: rest =>
      let shaped (cs : List Char) : List Char :=
        let cs :=
          match lasting with
          | .lower => cs.map Char.toLower
          | .upper => cs.map Char.toUpper
          | _ => cs
        match next, cs with
        | .lowerNext, c :: cs => c.toLower :: cs
        | .upperNext, c :: cs => c.toUpper :: cs
        | _, cs => cs
      let put (cs : List Char) : List Char :=
        shaped cs ++
          replacementText matched place lasting (if cs.isEmpty then next else .unchanged) rest
      match part with
      | .text c => put [c]
      | .matched 0 => put matched
      | .matched n => put (place.group n)
      | .change .lowerNext => replacementText matched place lasting .lowerNext rest
      | .change .upperNext => replacementText matched place lasting .upperNext rest
      | .change change => replacementText matched place change next rest

/-- A line with matches replaced from one of some number on, unless there is none. After a match of
some characters an empty one does not count at the same place. -/
def replaceIn? (regex : Regex) (substitution : Substitution) :
    Nat → Nat → Option Char → Bool → List Char → Option (List Char)
  | 0, _, _, _, _ => none
  | fuel + 1, number, last, afterMatch, rest =>
      match regex.find? last rest with
      | none => none
      | some (skipped, matched, place) =>
          let onward (number : Nat) (afterMatch : Bool) : Option (List Char) :=
            if matched.isEmpty then
              match place.rest with
              | [] => none
              | c :: after =>
                  (replaceIn? regex substitution fuel number (some c) false after).map (c :: ·)
            else replaceIn? regex substitution fuel number place.before afterMatch place.rest
          if matched.isEmpty && skipped.isEmpty && afterMatch then
            (onward number false).map (skipped ++ ·)
          else if number < substitution.number then
            (onward (number + 1) true).map fun after => skipped ++ matched ++ after
          else
            let new := replacementText matched place .unchanged .unchanged substitution.parts
            let after := if substitution.all then onward (number + 1) true else none
            some (skipped ++ new ++ after.getD place.rest)

/-! ## Applying rules -/

/-- A line of the input: its text, whether it has an end, and the file that it comes from. -/
structure InputLine where
  text : List Char
  ended : Bool
  source : String

/-- What remains of a range of lines that has begun. -/
inductive RangeRest where
  | upTo (number : Nat)
  | upToHolding (regex : Option Regex)
  | upToLast

/-- The state of editing. `lacking` says that what was put out last lacks its end; `queue` holds
what follows the line that is edited. -/
structure EditState where
  space : List Char := []
  ended : Bool := true
  source : String := "-"
  held : List Char := []
  number : Nat := 0
  lines : List InputLine
  output : List (List Char) := []
  lacking : Bool := false
  queue : List (List Char) := []
  replaced : Bool := false
  ranges : List (Nat × RangeRest) := []
  files : List (String × List Char) := []
  lastRegex : Option Regex := none

/-- What is the same for all lines: the rules, whether lines are put out by themselves, what ends a
line, and the files that can be inserted. -/
structure EditSetting where
  rules : Array EditRule
  silent : Bool
  mark : Char
  read : String → Option (List Char)

/-- How the turn of a line ends. -/
inductive TurnEnd where
  | finished (shown : Bool)
  | repeated
  | quit (status : Nat) (shown : Bool)

namespace EditState

/-- The output, in which each piece may lack its end. -/
def put (state : EditState) (setting : EditSetting) (cs : List Char) (ended : Bool) : EditState :=
  let start := if state.lacking then [setting.mark] else []
  { state with
    output := (start ++ cs ++ if ended then [setting.mark] else []) :: state.output
    lacking := !ended }

def putRaw (state : EditState) (setting : EditSetting) (cs : List Char) : EditState :=
  if cs.isEmpty then state
  else
    let start := if state.lacking then [setting.mark] else []
    { state with output := (start ++ cs) :: state.output, lacking := false }

def flush (state : EditState) (setting : EditSetting) : EditState :=
  let state := state.queue.foldl (fun state cs => state.putRaw setting cs) state
  { state with queue := [] }

/-- Puts out the line at the end of its turn. -/
def endTurn (state : EditState) (setting : EditSetting) (shown : Bool) : EditState :=
  let state :=
    if shown && !setting.silent then state.put setting (narrow state.space) state.ended else state
  state.flush setting

/-- Writes to a file, or to the output. -/
def writeTo (state : EditState) (setting : EditSetting) (path : String) (cs : List Char) :
    EditState :=
  if path = "/dev/stdout" then state.put setting cs true
  else
    let known := ((state.files.find? fun f => f.1 == path).map (·.2)).getD []
    { state with
      files := (state.files.filter fun f => f.1 != path) ++ [(path, known ++ cs ++ ['\n'])] }

def isLast (state : EditState) : Bool := state.lines.isEmpty

/-- Whether the line is one that is named, and the expression that was used last. -/
def names (state : EditState) (name : LineName) : Bool × EditState :=
  match name with
  | .number n => (n == state.number, state)
  | .every first step =>
      (if step = 0 then state.number == first
        else first ≤ state.number && (state.number - first) % step == 0, state)
  | .last => (state.isLast, state)
  | .holding regex =>
      match regex.or state.lastRegex with
      | some regex => (regex.isIn state.space, { state with lastRegex := some regex })
      | none => (false, state)

/-- The state after a range of a rule has begun or gone on, or with `none` ended. -/
def setRange (state : EditState) (rule : Nat) (rest : Option RangeRest) : EditState :=
  let others := state.ranges.filter fun r => r.1 != rule
  { state with ranges := (rest.map (rule, ·)).toList ++ others }

/-- What remains of a range after the line that it begins with, if anything does. -/
def rangeRest (state : EditState) (last : RangeEnd) : Option RangeRest :=
  let upTo (n : Nat) : Option RangeRest := if n ≤ state.number then none else some (.upTo n)
  match last with
  | .line (.number n) => upTo n
  | .line .last => if state.isLast then none else some .upToLast
  | .line (.holding regex) => some (.upToHolding regex)
  | .line (.every first step) => upTo (if step = 0 then first else
      ((state.number - first + step - 1) / step) * step + first)
  | .more n => upTo (state.number + n)
  | .multiple n => if n = 0 then none else upTo ((state.number + n - 1) / n * n)

/-- Whether a rule applies to the line; the ranges of rules begin and end on the way. -/
def chosen (state : EditState) (index : Nat) (choice : LineChoice) : Bool × EditState :=
  match choice with
  | .every => (true, state)
  | .one name => state.names name
  | .range first last =>
      let begun : Option RangeRest :=
        match first, last with
        | .number 0, .line (.holding regex) =>
            if state.number = 1 then some (.upToHolding regex) else none
        | _, _ => none
      let active := ((state.ranges.find? fun r => r.1 == index).map (·.2)).or begun
      match active with
      | some (.upTo n) =>
          if state.number < n then (true, state)
          else (state.number == n, state.setRange index none)
      | some .upToLast =>
          (true, if state.isLast then state.setRange index none else state)
      | some (.upToHolding regex) =>
          let (ends, state) := state.names (.holding regex)
          (true, state.setRange index (if ends then none else some (.upToHolding regex)))
      | none =>
          let (starts, state) := state.names first
          if starts then (true, state.setRange index (state.rangeRest last)) else (false, state)

def advance (state : EditState) (setting : EditSetting) : Option EditState :=
  match state.lines with
  | [] => none
  | line :: rest =>
      let state := state.flush setting
      some { state with
        space := line.text, ended := line.ended, source := line.source, number := state.number + 1
        lines := rest }

/-- The line as it is shown without doubt: escapes for what is not printed, in pieces. -/
def listed (cs : List Char) : List Char :=
  let shown (c : Char) : List Char :=
    match c.toNat with
    | 7 => ['\\', 'a']
    | 8 => ['\\', 'b']
    | 9 => ['\\', 't']
    | 10 => ['\\', 'n']
    | 11 => ['\\', 'v']
    | 12 => ['\\', 'f']
    | 13 => ['\\', 'r']
    | 92 => ['\\', '\\']
    | n =>
        if 32 ≤ n ∧ n < 127 then [c]
        else
          let digits := Nat.toDigits 8 n
          '\\' :: (List.replicate (3 - digits.length) '0' ++ digits)
  let (lines, column) := cs.foldl
    (fun (done : List Char × Nat) c =>
      let piece := shown c
      if 69 < done.2 + piece.length then (done.1 ++ ['\\', '\n'] ++ piece, piece.length)
      else (done.1 ++ piece, done.2 + piece.length))
    ([], 0)
  if 69 < column then lines ++ ['\\', '\n', '$'] else lines ++ ['$']

end EditState

namespace EditSetting

/-- The place behind the end of the block that begins before a place. -/
def blockEnd (setting : EditSetting) : Nat → Nat → Nat → Nat
  | 0, _, place => place
  | fuel + 1, depth, place =>
      match setting.rules[place]? with
      | none => place
      | some rule =>
          match rule.edit with
          | .openBlock => setting.blockEnd fuel (depth + 1) (place + 1)
          | .closeBlock =>
              if depth = 0 then place + 1 else setting.blockEnd fuel (depth - 1) (place + 1)
          | _ => setting.blockEnd fuel depth (place + 1)

/-- The place that a label marks; without a label the end of the script. -/
def labelPlace (setting : EditSetting) (name : String) : Nat :=
  let marks (rule : EditRule) : Bool :=
    match rule.edit with
    | .label other => other == name
    | _ => false
  if name = "" then setting.rules.size
  else (setting.rules.findIdx? marks).getD setting.rules.size

def replaceMatches (setting : EditSetting) (substitution : Substitution) (state : EditState) :
    EditState :=
  match substitution.regex.or state.lastRegex with
  | none => state
  | some regex =>
      let state := { state with lastRegex := some regex }
      match replaceIn? regex substitution (state.space.length + 2) 1 none false state.space with
      | none => state
      | some space =>
          let state := { state with space, replaced := true }
          let state :=
            if substitution.shown then state.put setting (narrow space) state.ended else state
          match substitution.file with
          | some path => state.writeTo setting path (narrow space)
          | none => state

/-- Applies the rules from a place on; `fuel` bounds the number of steps. -/
def apply (setting : EditSetting) : Nat → Nat → EditState → EditState × TurnEnd
  | 0, _, state => (state, .finished true)
  | fuel + 1, place, state =>
      match setting.rules[place]? with
      | none => (state, .finished true)
      | some rule =>
          let onward (state : EditState) : EditState × TurnEnd :=
            setting.apply fuel (place + 1) state
          let (chosen, state) := state.chosen place rule.choice
          if chosen == rule.spares then
            match rule.edit with
            | .openBlock =>
                setting.apply fuel (setting.blockEnd setting.rules.size 0 (place + 1)) state
            | _ => onward state
          else
            let first := state.space.takeWhile (· != '\n')
            match rule.edit with
            | .openBlock => onward state
            | .closeBlock => onward state
            | .label _ => onward state
            | .nothing => onward state
            | .append text => onward { state with queue := state.queue ++ [text] }
            | .insert text => onward (state.putRaw setting text)
            | .change text =>
                let ranged :=
                  match rule.choice with
                  | .range _ _ => !rule.spares && state.ranges.any fun r => r.1 == place
                  | _ => false
                (if ranged then state else state.putRaw setting text, .finished false)
            | .branch name => setting.apply fuel (setting.labelPlace name) state
            | .branchIf name =>
                if state.replaced then
                  setting.apply fuel (setting.labelPlace name) { state with replaced := false }
                else onward state
            | .branchUnless name =>
                if state.replaced then onward { state with replaced := false }
                else setting.apply fuel (setting.labelPlace name) state
            | .delete => (state, .finished false)
            | .deleteFirst =>
                if first.length = state.space.length then (state, .finished false)
                else ({ state with space := state.space.drop (first.length + 1) }, .repeated)
            | .takeHeld => onward { state with space := state.held }
            | .takeHeldMore =>
                onward { state with space := state.space ++ '\n' :: state.held }
            | .hold => onward { state with held := state.space }
            | .holdMore => onward { state with held := state.held ++ '\n' :: state.space }
            | .exchange => onward { state with space := state.held, held := state.space }
            | .list => onward (state.put setting (EditState.listed (narrow state.space)) true)
            | .next =>
                if state.isLast then (state, .quit 0 true)
                else
                  let state :=
                    if setting.silent then state
                    else state.put setting (narrow state.space) state.ended
                  match state.advance setting with
                  | some state => onward state
                  | none => (state, .quit 0 false)
            | .nextMore =>
                match state.advance setting with
                | none => (state, .quit 0 true)
                | some next =>
                    onward { next with space := state.space ++ '\n' :: next.space }
            | .print => onward (state.put setting (narrow state.space) state.ended)
            | .printFirst => onward (state.put setting (narrow first) true)
            | .quit status => (state, .quit status true)
            | .quitSilently status => (state, .quit status false)
            | .insertFile path =>
                onward { state with queue := state.queue ++ (setting.read path).toList }
            | .writeFile path => onward (state.writeTo setting path (narrow state.space))
            | .substitute substitution => onward (setting.replaceMatches substitution state)
            | .replaceChars pairs =>
                let replaced (c : Char) : Char :=
                  ((pairs.find? fun p => p.1 == c).map (·.2)).getD c
                onward { state with space := state.space.map replaced }
            | .number => onward (state.put setting (toString state.number).toList true)
            | .clear => onward { state with space := [] }

/-- Gives each line its turn; the status is that of quitting. -/
def turns (setting : EditSetting) : Nat → Bool → EditState → EditState × Nat
  | 0, _, state => (state, 0)
  | fuel + 1, again, state =>
      match if again then some state else state.advance setting with
      | none => (state, 0)
      | some state =>
          let (state, ending) := setting.apply 100000 0 { state with replaced := false }
          match ending with
          | .finished shown => setting.turns fuel false (state.endTurn setting shown)
          | .repeated => setting.turns fuel true (state.endTurn setting false)
          | .quit status shown => (state.endTurn setting shown, status)

end EditSetting

def inputLines (mark : Char) (source : Source) : List InputLine :=
  match source.content with
  | .error _ => []
  | .ok content =>
      let pieces := (content.map byteChar).splitOn mark
      let line (ended : Bool) (cs : List Char) : InputLine := ⟨wide cs, ended, source.name⟩
      match pieces.getLast? with
      | none => []
      | some [] => pieces.dropLast.map (line true)
      | some last => pieces.dropLast.map (line true) ++ [line false last]

/-- Edits the lines of files as one list of them. -/
def editFiles (setting : EditSetting) (files : List Source) : EditState × Nat :=
  let lines := files.flatMap (inputLines setting.mark)
  setting.turns (2 * lines.length + 100000) false { lines }

def EditState.text (state : EditState) : List UInt8 :=
  (state.output.reverse.flatten).map charByte

/-- The label that a rule goes to and that no rule marks. -/
def missingLabel? (setting : EditSetting) : Option String :=
  setting.rules.toList.findSome? fun rule =>
    let target :=
      match rule.edit with
      | .branch name => name
      | .branchIf name => name
      | .branchUnless name => name
      | _ => ""
    if target != "" && setting.labelPlace target == setting.rules.size then some target else none

/-- The beginning of what is told about the use of the program. -/
def editUsage : String :=
  "Usage: sed [OPTION]... \x7bscript-only-if-no-other-script\x7d [input-file]...\n\n" ++
    "  -n, --quiet, --silent\n                 suppress automatic printing of pattern space\n" ++
    "      --debug\n                 annotate program execution\n" ++
    "  -e script, --expression=script\n                 add the script to the commands to be "

/-- The number of the script in which a place lies, and the place in it, of scripts that are joined
by line breaks. -/
def scriptPlace : Nat → List Nat → Nat → Nat × Nat
  | number, [], place => (number, place)
  | number, [_], place => (number, place)
  | number, size :: rest, place =>
      if place ≤ size then (number, place) else scriptPlace (number + 1) rest (place - size - 1)

def writtenFiles (rules : List EditRule) : List String :=
  rules.filterMap fun rule =>
    match rule.edit with
    | .writeFile path => some path
    | .substitute substitution => substitution.file
    | _ => none

def sed : Program := fun surroundings args input =>
  let args := args.map fun arg =>
    if arg.startsWith "-i" && arg.length > 2 then
      s!"--in-place={String.ofList (arg.toList.drop 2)}"
    else arg
  let table : OptionTable :=
    ⟨"nErsuziI", "efl",
      [("quiet", 'n'), ("silent", 'n'), ("regexp-extended", 'E'), ("expression", 'e'),
        ("file", 'f'), ("null-data", 'z'), ("separate", 's'), ("unbuffered", 'u'),
        ("in-place", 'i'), ("posix", 'u'), ("debug", 'u')]⟩
  match readOptions table (args.length + 1) args with
  | .error message => failing (s!"sed: {message}\n" ++ editUsage) 1 input
  | .ok options =>
      let given := options.given.filter fun o => o.1 == 'e' || o.1 == 'f'
      let missing := given.find? fun o =>
        o.1 == 'f' && !isInput o.2 && (surroundings.read o.2).toOption.isNone
      let scripts :=
        if given.isEmpty then options.operands.take 1
        else
          given.map fun o =>
            if o.1 == 'e' then o.2
            else
              let content := if isInput o.2 then input else
                (surroundings.read o.2).toOption.getD []
              rawText (if content.getLast? == some 10 then content.dropLast else content)
      let files := if given.isEmpty then options.operands.drop 1 else options.operands
      match missing, scripts with
      | some (_, path), _ =>
          failing s!"sed: couldn't open file {path}: No such file or directory\n" 4 input
      | none, [] => failing editUsage 1 input
      | none, first :: _ =>
          let text := String.intercalate "\n" scripts
          let extended := options.has 'E' || options.has 'r'
          match editRules extended (text.length + 1) 0 text.toList with
          | .error e =>
              let place := (e.left.map (text.length - ·)).getD 0
              let (number, place) := scriptPlace 1 (scripts.map String.length) place
              failing s!"sed: -e expression #{number}, char {place}: {e.message}\n" 1 input
          | .ok rules =>
              let setting : EditSetting :=
                { rules := rules.toArray
                  silent := options.has 'n' || first.startsWith "#n\n" || first == "#n"
                  mark := if options.has 'z' then '\x00' else '\n'
                  read := fun path =>
                    if isInput path then some (input.map byteChar)
                    else (surroundings.read path).toOption.map fun l => l.map byteChar }
              match missingLabel? setting with
              | some name => failing s!"sed: can't find label for jump to `{name}'\n" 1 input
              | none =>
                  edited setting options surroundings files input
where
  /-- Edits the files, each in its place if that is asked for. -/
  edited (setting : EditSetting) (options : Options) (surroundings : Surroundings)
      (files : List String) (input : List UInt8) : Finished :=
    let inPlace := options.has 'i'
    if inPlace && files.isEmpty then failing "sed: no input files\n" 4 input
    else
      let (found, left) := operandSources surroundings files input
      let errors := complaints found fun name e =>
        match e with
        | .isDirectory =>
            if inPlace then s!"sed: couldn't edit {name}: not a regular file\n"
            else s!"sed: read error on {name}: {e.message}\n"
        | _ => s!"sed: can't read {name}: {e.message}\n"
      let groups := if inPlace || options.has 's' then found.map ([·]) else [found]
      let results := groups.map fun group => (group, editFiles setting group)
      let quitStatus := (results.findSome? fun r => if r.2.2 = 0 then none else some r.2.2).getD 0
      let written := results.flatMap fun r => r.2.1.files
      let paths := (writtenFiles setting.rules.toList).eraseDups.filter (· != "/dev/stdout")
      let surroundings := paths.foldl
        (fun s path =>
          let content := (written.filter fun f => f.1 == path).flatMap (·.2)
          (s.store false path (content.map charByte)).2)
        surroundings
      let suffix := (options.value? 'i').getD ""
      let replace (s : Surroundings) (source : Source) (text : List UInt8) : Surroundings :=
        match source.content with
        | .error _ => s
        | .ok content =>
            let s := if suffix = "" then s else (s.store false (source.name ++ suffix) content).2
            (s.store false source.name text).2
      let surroundings :=
        if inPlace then
          results.foldl (fun s r => r.1.foldl (fun s source => replace s source r.2.1.text) s)
            surroundings
        else surroundings
      let output := if inPlace then [] else results.flatMap fun r => r.2.1.text
      { output := bytes output
        errors := octets errors
        status :=
          if quitStatus != 0 then quitStatus
          else if errors = "" then 0
          else if (found.any fun s => match s.content with
            | .error .isDirectory => true
            | _ => false) then 4
          else 2
        input := left
        tree := some surroundings.tree }

end Shell

end VersionGroups
