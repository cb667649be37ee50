import VersionGroups.Shell.Regex

/-!
# Values of arguments

The arguments are the tokens of an expression over texts and whole numbers. The program succeeds if
its value is neither empty nor zero.
-/

namespace VersionGroups

namespace Shell

/-- Why arguments have no value. -/
inductive ExpressionError where
  | unexpected (token : String)
  | missing (last : String)
  | noNumber
  | zeroDivisor
  | unclosed (last : String)
  | regex (message : String)

def ExpressionError.message : ExpressionError → String
  | .unexpected token => s!"syntax error: unexpected argument {inQuotes token}"
  | .missing last => s!"syntax error: missing argument after {inQuotes last}"
  | .noNumber => "non-integer argument"
  | .zeroDivisor => "division by zero"
  | .unclosed last => s!"syntax error: expecting ')' after {inQuotes last}"
  | .regex message => message

/-- The whole number that a text stands for in decimal. -/
def plainNumber? (text : String) : Option Int :=
  match text.toList with
  | '-' :: digits => (baseValue? 10 digits).filter (fun _ => digits.all Char.isDigit) |>.map (-·)
  | digits => ((baseValue? 10 digits).filter fun _ => digits.all Char.isDigit).map (·)

def isVoid (value : String) : Bool := value == "" || plainNumber? value == some 0

/-- What a pattern matches at the beginning of a text: a part of it if the pattern has a group, and
otherwise the number of characters. -/
def matchedStart (text patternText : String) : Except ExpressionError String := do
  match Regex.ofText false ('^' :: wide patternText.toList) with
  | .error message => throw (.regex message)
  | .ok regex =>
      let found := regex.matchHere? ⟨none, wide text.toList, []⟩
      if regex.openGroups > 0 then
        return (found.map fun p => String.ofList (narrow (p.group 1))).getD ""
      else
        let size := (wide text.toList).length
        return toString ((found.map fun p => size - p.rest.length).getD 0)

def operatorValue (operator a b : String) : Except ExpressionError String := do
  let numbers : Except ExpressionError (Int × Int) :=
    match plainNumber? a, plainNumber? b with
    | some m, some n => .ok (m, n)
    | _, _ => .error .noNumber
  let compared (test : Ordering → Bool) : String :=
    let order :=
      match plainNumber? a, plainNumber? b with
      | some m, some n => compare m n
      | _, _ => compare a b
    if test order then "1" else "0"
  match operator with
  | "|" => return if !isVoid a then a else if isVoid b then "0" else b
  | "&" => return if isVoid a || isVoid b then "0" else a
  | "<" => return compared (· == .lt)
  | "<=" => return compared (·.isLE)
  | "=" => return compared (· == .eq)
  | "==" => return compared (· == .eq)
  | "!=" => return compared (· != .eq)
  | ">=" => return compared (·.isGE)
  | ">" => return compared (· == .gt)
  | ":" => matchedStart a b
  | _ =>
      let (m, n) ← numbers
      match operator with
      | "+" => return toString (m + n)
      | "-" => return toString (m - n)
      | "*" => return toString (m * n)
      | _ =>
          if n = 0 then throw .zeroDivisor
          else return toString (if operator = "/" then Int.tdiv m n else Int.tmod m n)

/-- The operators by rank; those of higher rank bind more closely. -/
def expressionOperators : List (String × Nat) :=
  [("|", 1), ("&", 2), ("<", 3), ("<=", 3), ("=", 3), ("==", 3), ("!=", 3), (">=", 3), (">", 3),
    ("+", 4), ("-", 4), ("*", 5), ("/", 5), ("%", 5), (":", 6)]

mutual

/-- An operand at the beginning of arguments; `last` is the argument before. -/
def expressionOperand : Nat → String → List String → Except ExpressionError (String × List String)
  | 0, last, _ => .error (.missing last)
  | fuel + 1, last, args => do
      match args with
      | [] => throw (.missing last)
      | "(" :: rest =>
          let (value, rest) ← expressionValue fuel 1 "(" rest
          match rest with
          | ")" :: rest => return (value, rest)
          | [] => throw (.unclosed value)
          | token :: _ => throw (.unexpected token)
      | "+" :: token :: rest => return (token, rest)
      | "length" :: token :: rest => return (toString (wide token.toList).length, rest)
      | "match" :: a :: b :: rest => return (← matchedStart a b, rest)
      | "index" :: a :: b :: rest =>
          let place := (wide a.toList).findIdx? fun c => (wide b.toList).contains c
          return (toString ((place.map (· + 1)).getD 0), rest)
      | "substr" :: text :: start :: count :: rest =>
          match plainNumber? start, plainNumber? count with
          | some start, some count =>
              let cs := wide text.toList
              let part := if start ≤ 0 ∨ count ≤ 0 then [] else
                (cs.drop (start.toNat - 1)).take count.toNat
              return (String.ofList (narrow part), rest)
          | _, _ => return ("", rest)
      | ")" :: _ => throw (.unexpected ")")
      | token :: rest => return (token, rest)

/-- Operators of at least some rank with their operands. -/
def expressionValue : Nat → Nat → String → List String →
    Except ExpressionError (String × List String)
  | 0, _, last, _ => .error (.missing last)
  | fuel + 1, rank, last, args => do
      let (first, rest) ← expressionOperand fuel last args
      expressionRest fuel rank first rest

/-- The rest of operators with their operands, after the first operand. -/
def expressionRest : Nat → Nat → String → List String →
    Except ExpressionError (String × List String)
  | 0, _, first, args => .ok (first, args)
  | fuel + 1, rank, first, args => do
      match args with
      | [] => return (first, [])
      | token :: rest =>
          match expressionOperators.find? fun o => o.1 == token with
          | none => return (first, args)
          | some (operator, own) =>
              if own < rank then return (first, args)
              else
                let (second, rest) ← expressionValue fuel (own + 1) operator rest
                expressionRest fuel rank (← operatorValue operator first second) rest

end

def expr : Filter := fun args input =>
  match args with
  | [] => misused "expr" "missing operand" 2 input
  | args =>
      let args := if args.head? = some "--" then args.tail else args
      let result := do
        let (value, rest) ← expressionValue (4 * args.length + 4) 1 "" args
        match rest with
        | [] => return value
        | token :: _ => throw (ExpressionError.unexpected token)
      match result with
      | .ok value =>
          { output := octets (value ++ "\n"), status := if isVoid value then 1 else 0, input }
      | .error e => failing s!"expr: {e.message}\n" 2 input

end Shell

end VersionGroups
