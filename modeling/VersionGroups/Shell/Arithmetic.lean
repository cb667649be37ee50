import VersionGroups.Shell.Program

/-!
# Arithmetic of the shell

An expression of whole numbers and variables, with the usual operators in their usual order, a
choice between two values, and assignments.
-/

namespace VersionGroups

namespace Shell

/-- Why an expression has no value. -/
inductive ArithmeticError where
  | noOperand
  | trailing
  | zeroDivisor
  | noNumber (text : String)
  deriving DecidableEq, Repr

def ArithmeticError.message (expression : String) : ArithmeticError → String
  | .noOperand => s!"arithmetic expression: expecting primary: \"{expression}\""
  | .trailing => s!"arithmetic expression: expecting EOF: \"{expression}\""
  | .zeroDivisor => s!"arithmetic expression: division by zero: \"{expression}\""
  | .noNumber text => s!"Illegal number: {text}"

/-- Values of variables, the latest first. -/
abbrev Values := List (String × Int)

/-- A calculation reads an expression and may set variables. -/
abbrev Calculation (α : Type) := StateT (List Char × Values) (Except ArithmeticError) α

abbrev Operator := Int → Int → Except ArithmeticError Int

def divided (result : Int → Int → Int) : Operator := fun a b =>
  if b = 0 then .error .zeroDivisor else .ok (result a b)

def bitwise (result : Int64 → Int64 → Int64) : Operator := fun a b =>
  .ok (result (Int64.ofInt a) (Int64.ofInt b)).toInt

/-- The operators of two operands by their text, the longer texts first, with their ranks; those of
higher rank bind more closely. -/
def operators : List (String × Nat × Operator) :=
  let truth (test : Int → Int → Bool) : Operator := fun a b => .ok (if test a b then 1 else 0)
  [("||", 1, truth fun a b => a != 0 || b != 0), ("&&", 2, truth fun a b => a != 0 && b != 0),
    ("==", 6, truth (· == ·)), ("!=", 6, truth (· != ·)),
    ("<<", 8, bitwise (· <<< ·)), (">>", 8, bitwise (· >>> ·)),
    ("<=", 7, truth fun a b => decide (a ≤ b)), (">=", 7, truth fun a b => decide (b ≤ a)),
    ("<", 7, truth fun a b => decide (a < b)), (">", 7, truth fun a b => decide (b < a)),
    ("|", 3, bitwise (· ||| ·)), ("^", 4, bitwise (· ^^^ ·)), ("&", 5, bitwise (· &&& ·)),
    ("+", 9, fun a b => .ok (a + b)), ("-", 9, fun a b => .ok (a - b)),
    ("*", 10, fun a b => .ok (a * b)), ("/", 10, divided Int.tdiv), ("%", 10, divided Int.tmod)]

/-- The operators that may stand before the mark of an assignment. -/
def assigningOperators : List String := ["<<", ">>", "+", "-", "*", "/", "%", "&", "|", "^"]

/-- Skips blanks, and a text if it comes next. -/
def accept? (text : String) : Calculation Bool := do
  let (cs, values) ← get
  let cs := cs.dropWhile Char.isWhitespace
  if text.toList.isPrefixOf cs then
    set (cs.drop text.length, values)
    return true
  else
    set (cs, values)
    return false

/-- The characters that come next, without blanks before them. -/
def ahead : Calculation (List Char) := do
  let _ ← accept? ""
  return (← get).1

def takeWord : Calculation String := do
  let word := (← ahead).takeWhile fun c => c.isAlphanum || c == '_'
  modify fun (cs, values) => (cs.drop word.length, values)
  return String.ofList word

/-- The operator of an assignment, or an empty text for a plain one, if the characters after a name
are an assignment. -/
def assigning? (cs : List Char) : Option String :=
  let cs := cs.dropWhile Char.isWhitespace
  match cs with
  | '=' :: '=' :: _ => none
  | '=' :: _ => some ""
  | cs => assigningOperators.find? fun o => (o.toList ++ ['=']).isPrefixOf cs

def operatorOf (text : String) : Operator :=
  match operators.find? (fun o => o.1 == text) with
  | some (_, _, apply) => apply
  | none => fun _ b => .ok b

mutual

def operand (valueOf : String → Except ArithmeticError Int) : Nat → Calculation Int
  | 0 => throw .noOperand
  | fuel + 1 => do
      if ← accept? "(" then
        let n ← choice valueOf fuel
        if ← accept? ")" then return n else throw .noOperand
      else if ← accept? "-" then return -(← operand valueOf fuel)
      else if ← accept? "+" then operand valueOf fuel
      else if ← accept? "!" then return if (← operand valueOf fuel) = 0 then 1 else 0
      else if ← accept? "~" then return -(← operand valueOf fuel) - 1
      else
        let word ← takeWord
        if word = "" then throw .noOperand
        else if (word.toList.head?.any Char.isDigit) then
          match wholeNumber? word with
          | some n => return n
          | none => throw .trailing
        else
          match assigning? (← ahead) with
          | some operator =>
              let _ ← accept? operator
              let _ ← accept? "="
              let new ← choice valueOf fuel
              let n ← if operator = "" then pure new else
                (operatorOf operator (← current valueOf word) new : Except _ _)
              modify fun (cs, values) => (cs, (word, n) :: values)
              return n
          | none => current valueOf word

def current (valueOf : String → Except ArithmeticError Int) (name : String) : Calculation Int := do
  match (← get).2.find? (fun v => v.1 == name) with
  | some (_, n) => return n
  | none => (valueOf name : Except _ _)

/-- Operators of at least some rank with their operands. -/
def ranked (valueOf : String → Except ArithmeticError Int) (rank : Nat) : Nat → Calculation Int
  | 0 => throw .noOperand
  | fuel + 1 => do rankedRest valueOf rank fuel (← operand valueOf fuel)

/-- The rest of operators with their operands, after the first operand. -/
def rankedRest (valueOf : String → Except ArithmeticError Int) (rank : Nat) :
    Nat → Int → Calculation Int
  | 0, first => return first
  | fuel + 1, first => do
      let cs ← ahead
      match operators.find? (fun o => o.1.toList.isPrefixOf cs) with
      | some (text, own, apply) =>
          if own < rank then return first
          else
            let _ ← accept? text
            let second ← ranked valueOf (own + 1) fuel
            rankedRest valueOf rank fuel (← (apply first second : Except _ _))
      | none => return first

/-- A whole expression, which may choose between two values. -/
def choice (valueOf : String → Except ArithmeticError Int) : Nat → Calculation Int
  | 0 => throw .noOperand
  | fuel + 1 => do
      let n ← ranked valueOf 1 fuel
      if ← accept? "?" then
        let first ← choice valueOf fuel
        if ← accept? ":" then
          let second ← choice valueOf fuel
          return if n = 0 then second else first
        else throw .noOperand
      else return n

end

/-- The value of an expression, with the variables that it sets. -/
def evaluate (valueOf : String → Except ArithmeticError Int) (cs : List Char) :
    Except ArithmeticError (Int × Values) := do
  if cs.all Char.isWhitespace then return (0, [])
  let (n, rest, values) ← (choice valueOf (4 * cs.length + 4)).run (cs, [])
  if rest.all Char.isWhitespace then return (n, values) else throw .trailing

end Shell

end VersionGroups
