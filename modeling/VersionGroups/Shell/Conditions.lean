import VersionGroups.Shell.Program

/-!
# Conditions

Tests of texts, numbers and files, joined by negations, conjunctions and disjunctions. What comes
next is read as a comparison if an operator of two operands follows it.
-/

namespace VersionGroups

namespace Shell

/-- The comparison of two numbers that an operator names. -/
def numberTest? (operator : String) : Option (Int → Int → Bool) :=
  match operator with
  | "-eq" => some (· == ·)
  | "-ne" => some (· != ·)
  | "-lt" => some (fun a b => decide (a < b))
  | "-le" => some (fun a b => decide (a ≤ b))
  | "-gt" => some (fun a b => decide (b < a))
  | "-ge" => some (fun a b => decide (b ≤ a))
  | _ => none

namespace Surroundings

def leads (surroundings : Surroundings) (path : String) : Bool :=
  devices.contains path || (surroundings.find path).toOption.isSome

/-- Whether two paths lead to the same place. -/
def samePlace (surroundings : Surroundings) (first second : String) : Bool :=
  let place (path : String) : Option Location :=
    (surroundings.tree.locate (surroundings.path path)).toOption
  surroundings.leads first && surroundings.leads second && place first == place second

def isFilled (surroundings : Surroundings) (path : String) : Bool :=
  match surroundings.find path with
  | .ok (.file content) => content.size != 0
  | .ok .directory => true
  | .error _ => false

end Surroundings

def unaryTest? (surroundings : Surroundings) (operator operand : String) : Option Bool :=
  let known := surroundings.leads operand
  match operator with
  | "-n" => some (operand != "")
  | "-z" => some (operand == "")
  | "-d" => some (surroundings.isDirectory operand)
  | "-f" => some (surroundings.isFile operand)
  | "-s" => some (surroundings.isFilled operand)
  | "-c" => some ((devices.take 3).contains operand)
  | "-p" => some (operand == "/dev/stdin" && !surroundings.seekable)
  | "-x" => some (surroundings.isDirectory operand)
  | _ =>
      if ["-e", "-r", "-w", "-O", "-G"].contains operator then some known
      else if ["-t", "-L", "-h", "-S", "-b", "-g", "-u", "-k"].contains operator then some false
      else none

/-- Whether a condition of two operands holds, or the operand that is no number; `none` stands for
an operator that there is not. -/
def binaryTest? (surroundings : Surroundings) (a operator b : String) :
    Option (Except String Bool) :=
  match operator with
  | "=" => some (.ok (a == b))
  | "!=" => some (.ok (a != b))
  | "<" => some (.ok (decide (a < b)))
  | ">" => some (.ok (decide (b < a)))
  | "-ef" => some (.ok (surroundings.samePlace a b))
  | "-nt" => some (.ok (surroundings.leads a && !surroundings.leads b))
  | "-ot" => some (.ok (!surroundings.leads a && surroundings.leads b))
  | _ =>
      (numberTest? operator).map fun test =>
        do return test (← number a) (← number b)
where
  /-- The number that an operand is: decimal digits, perhaps with blanks around them. -/
  number (text : String) : Except String Int := do
    let cs := text.toList.dropWhile Char.isWhitespace
    let (sign, cs) :=
      match cs with
      | '-' :: rest => ((-1 : Int), rest)
      | '+' :: rest => (1, rest)
      | cs => (1, cs)
    let digits := cs.takeWhile Char.isDigit
    let after := cs.drop digits.length
    match baseValue? 10 digits with
    | some n =>
        if n < 9223372036854775808 ∧ after.all Char.isWhitespace then return sign * n
        else throw s!"Illegal number: {text}"
    | none => throw s!"Illegal number: {text}"

mutual

def conditionTerm (surroundings : Surroundings) : Nat → List String → Except String (Bool × List String)
  | 0, _ => .error "argument expected"
  | fuel + 1, args => do
      match args with
      | [] => throw "argument expected"
      | a :: rest =>
          match rest with
          | operator :: b :: others =>
              match binaryTest? surroundings a operator b with
              | some holds => return (← holds, others)
              | none => conditionSingle surroundings fuel a rest
          | _ => conditionSingle surroundings fuel a rest

/-- A condition that does not begin with an operator of two operands. -/
def conditionSingle (surroundings : Surroundings) : Nat → String → List String → Except String (Bool × List String)
  | 0, _, _ => .error "argument expected"
  | fuel + 1, a, rest => do
      match a, rest with
      | "!", _ :: _ =>
          let (holds, others) ← conditionTerm surroundings fuel rest
          return (!holds, others)
      | "(", _ :: _ =>
          let (holds, others) ← conditionChain surroundings fuel rest
          match others with
          | ")" :: others => return (holds, others)
          | _ => throw "closing paren expected"
      | _, operand :: others =>
          match unaryTest? surroundings a operand with
          | some holds => return (holds, others)
          | none => return (a != "", rest)
      | _, [] => return (a != "", [])

def conditionChain (surroundings : Surroundings) : Nat → List String → Except String (Bool × List String)
  | 0, _ => .error "argument expected"
  | fuel + 1, args => do
      let (first, rest) ← conditionAll surroundings fuel args
      match rest with
      | "-o" :: rest =>
          let (second, rest) ← conditionChain surroundings fuel rest
          return (first || second, rest)
      | rest => return (first, rest)

def conditionAll (surroundings : Surroundings) : Nat → List String → Except String (Bool × List String)
  | 0, _ => .error "argument expected"
  | fuel + 1, args => do
      let (first, rest) ← conditionTerm surroundings fuel args
      match rest with
      | "-a" :: rest =>
          let (second, rest) ← conditionAll surroundings fuel rest
          return (first && second, rest)
      | rest => return (first, rest)

end

def condition (surroundings : Surroundings) (args : List String) : Except String Bool :=
  match args with
  | [] => .ok false
  | [text] => .ok (text != "")
  | args => do
      let (holds, rest) ← conditionChain surroundings (4 * args.length + 4) args
      match rest with
      | [] => return holds
      | [operator] =>
          if (binaryTest? surroundings "0" operator "0").isSome then throw s!"{operator}: argument expected"
          else throw (misplaced args)
      | _ => throw (misplaced args)
where
  /-- The complaint about an operand that no operator follows. -/
  misplaced (args : List String) : String :=
    let operand := (args.dropWhile (· == "!")).head?.getD ""
    s!"{operand}: unexpected operator"

/-- Succeeds if a condition holds; `caller` precedes its complaints. -/
def test (caller : String) : Program := fun surroundings args input =>
  match condition surroundings args with
  | .ok holds => { status := if holds then 0 else 1, input }
  | .error message => failing s!"{caller}{message}\n" 2 input

def bracketTest (caller : String) : Program := fun surroundings args input =>
  if args.getLast? = some "]" then test caller surroundings args.dropLast input
  else failing s!"{caller}missing ]\n" 2 input

end Shell

end VersionGroups
