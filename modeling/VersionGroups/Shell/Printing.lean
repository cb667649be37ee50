import VersionGroups.Decimal.Rounded
import VersionGroups.Shell.Program

/-!
# Printing arguments

Programs whose output depends on their arguments only: texts with escapes, formats with conversions,
and the numbers of a range.
-/

namespace VersionGroups

namespace Shell

/-! ## Escapes -/

/-- The code of an escape of one letter, apart from numbers. -/
def escapeCode? (c : Char) : Option UInt8 :=
  match c with
  | 'a' => some 7
  | 'b' => some 8
  | 'e' => some 27
  | 'f' => some 12
  | 'n' => some 10
  | 'r' => some 13
  | 't' => some 9
  | 'v' => some 11
  | '\\' => some 92
  | _ => none

def isOctal (c : Char) : Bool := '0' ≤ c && c ≤ '7'

/-- The value of up to `count` octal digits, and the rest. -/
def octal (count : Nat) (cs : List Char) : Nat × List Char :=
  let digits := (cs.take count).takeWhile isOctal
  ((baseValue? 8 digits).getD 0, cs.drop digits.length)

/-- Which escapes there are besides those of one letter: numbers in base sixteen, and in base eight
without a zero in front. -/
structure EscapeStyle where
  hexadecimal : Bool
  octalAlone : Bool

/-- The bytes of a text with its escapes replaced; `none` stands for the end of all output. -/
def unescaped (style : EscapeStyle) : Nat → List Char → List (Option UInt8)
  | 0, _ => []
  | _ + 1, [] => []
  | fuel + 1, '\\' :: c :: rest =>
      let hex := (rest.take 2).takeWhile fun d => (hexDigit? d).isSome
      if c = 'c' then [none]
      else if c = '0' then
        let (n, rest) := octal 3 rest
        some n.toUInt8 :: unescaped style fuel rest
      else if isOctal c && style.octalAlone then
        let (n, rest) := octal 3 (c :: rest)
        some n.toUInt8 :: unescaped style fuel rest
      else if c = 'x' ∧ style.hexadecimal ∧ !hex.isEmpty then
        some ((baseValue? 16 hex).getD 0).toUInt8 :: unescaped style fuel (rest.drop hex.length)
      else
        match escapeCode? c with
        | some b => some b :: unescaped style fuel rest
        | none => some 92 :: unescaped style fuel (c :: rest)
  | fuel + 1, c :: rest => some (charByte c) :: unescaped style fuel rest

/-- The bytes before the end of all output. -/
def untilEnd (l : List (Option UInt8)) : List UInt8 := (l.takeWhile Option.isSome).filterMap id

/-- Writes the arguments with spaces between them and replaces escapes. The first argument may ask
for no line break. -/
def echo : Filter := fun args input =>
  let bare := args.head? == some "-n"
  let text := String.intercalate " " (if bare then args.tail else args)
  let content := unescaped ⟨false, true⟩ (text.length + 1) text.toList
  { output := bytes (untilEnd (content ++ if bare then [] else [some 10])), input }

/-- Writes the arguments with spaces between them. The first arguments may ask for no line break and
for escapes. -/
def plainEcho : Filter := fun args input =>
  let isOption (arg : String) : Bool :=
    match arg.toList with
    | '-' :: c :: cs => (c :: cs).all fun c => "neE".toList.contains c
    | _ => false
  let letters := (args.takeWhile isOption).flatMap fun arg => arg.toList.tail
  let text := String.intercalate " " (args.dropWhile isOption)
  let escapes := (letters.filter (· != 'n')).getLast? == some 'e'
  let content :=
    if escapes then unescaped ⟨true, false⟩ (text.length + 1) text.toList
    else (textBytes text).map some
  let stop := if letters.contains 'n' then [] else [some 10]
  { output := bytes (untilEnd (content ++ stop)), input }

/-! ## Formats -/

/-- The flags, the width and the precision of a conversion. -/
structure Conversion where
  flags : List Char
  width : Nat
  precision : Option Nat

def Conversion.pad (conversion : Conversion) (zeros : Bool) (mark digits : List Char) :
    List Char :=
  let text := mark ++ digits
  let missing := conversion.width - text.length
  if conversion.flags.contains '-' then text ++ List.replicate missing ' '
  else if zeros && conversion.flags.contains '0' then
    mark ++ List.replicate missing '0' ++ digits
  else List.replicate missing ' ' ++ text

def Conversion.sign (conversion : Conversion) (negative : Bool) : List Char :=
  if negative then ['-']
  else if conversion.flags.contains '+' then ['+']
  else if conversion.flags.contains ' ' then [' ']
  else []

/-- A whole number under a conversion without a sign in some base. -/
def Conversion.unsigned (conversion : Conversion) (base : Nat) (n : Nat) : List Char :=
  let digits := Nat.toDigits base n
  let digits := List.replicate (conversion.precision.getD 1 - digits.length) '0' ++ digits
  let marked := conversion.flags.contains '#' && n != 0
  let mark :=
    if marked && base == 16 then ['0', 'x']
    else if marked && base == 8 && digits.head? != some '0' then ['0']
    else []
  conversion.pad conversion.precision.isNone mark digits

/-- A whole number under a conversion with a sign. -/
def Conversion.signed (conversion : Conversion) (n : Int) : List Char :=
  let digits := Nat.toDigits 10 n.natAbs
  let digits := List.replicate (conversion.precision.getD 1 - digits.length) '0' ++ digits
  conversion.pad conversion.precision.isNone (conversion.sign (n < 0)) digits

def Conversion.float (conversion : Conversion) (letter : Char) (x : Binary64) : List Char :=
  let (num, den) := x.ratio
  let count := conversion.precision.getD 6
  let digits :=
    if letter = 'f' then Decimal.fixed count num den
    else if letter = 'e' then Decimal.scientific count num den
    else Decimal.general (conversion.flags.contains '#') (max 1 count) num den
  conversion.pad true (conversion.sign x.negative) digits

/-- The float that a text stands for, and what follows it. -/
def floatPrefix (cs : List Char) : Binary64 × List Char :=
  let body := cs.dropWhile Char.isWhitespace
  let (negative, body) :=
    match body with
    | '-' :: rest => (true, rest)
    | '+' :: rest => (false, rest)
    | body => (false, body)
  match decimalPrefix? body with
  | none => (Binary64.zero false, cs)
  | some (units, power, rest) =>
      let (num, den) := Shortest.decimalRatio units (max (-400) (min power 400))
      ((Binary64.ofRatio? negative num den).getD (Binary64.zero negative), rest)

/-- The words in which a program complains of the numbers among its arguments. -/
structure NumberWords where
  shown : String → String
  noNumber : String
  noWholeNumber : String

/-- What was formatted so far: the output, the complaints, the arguments left, whether any was used,
and the status. -/
structure Formatted where
  output : List (Option UInt8)
  errors : String
  args : List String
  used : Bool
  status : Nat

namespace Formatted

def put (done : Formatted) (cs : List Char) : Formatted :=
  { done with output := done.output ++ cs.map fun c => some (charByte c) }

def take (done : Formatted) : String × Formatted :=
  (done.args.head?.getD "", { done with args := done.args.tail, used := true })

def complain (done : Formatted) (caller message : String) (status : Nat) : Formatted :=
  { done with errors := done.errors ++ s!"{caller}printf: {message}\n", status }

/-- With a complaint about the number that an argument should be, unless `rest` of it is empty. -/
def checked (done : Formatted) (caller : String) (words : NumberWords) (argument : String)
    (rest : List Char) : Formatted :=
  if rest.isEmpty then done
  else
    let cause :=
      if rest.length = argument.length then words.noNumber else words.noWholeNumber
    done.complain caller s!"{words.shown argument}: {cause}" 1

/-- The code of the character after a quote, if the argument is one. -/
def quotedCode? (argument : String) : Option Nat :=
  match argument.toList with
  | '\'' :: c :: _ => some c.toNat
  | '"' :: c :: _ => some c.toNat
  | _ => none

def convert (done : Formatted) (caller : String) (words : NumberWords) (conversion : Conversion)
    (c : Char) : Formatted :=
  let (argument, done) := done.take
  let text := argument.toList
  let whole (low high : Int) (render : Int → List Char) : Formatted :=
    match quotedCode? argument with
    | some n => done.put (render n)
    | none =>
        let (n, rest) := numberPrefix text
        let done := done.checked caller words argument rest
        if low ≤ n ∧ n ≤ high then done.put (render n)
        else
          (done.put (render (if n < 0 then low else high))).complain caller
            s!"{words.shown argument}: Numerical result out of range" 1
  let unsigned (base : Nat) : Formatted :=
    whole (-(UInt64.size : Int)) (UInt64.size - 1) fun n =>
      conversion.unsigned base (n % UInt64.size).toNat
  let float (letter : Char) : Formatted :=
    match quotedCode? argument with
    | some n =>
        done.put (conversion.float letter ((Binary64.ofNat? n).getD (Binary64.zero false)))
    | none =>
        let (x, rest) := floatPrefix text
        (done.checked caller words argument rest).put (conversion.float letter x)
  let upper (formatted : Formatted) : Formatted :=
    let new := formatted.output.drop done.output.length
    let raised := new.map fun b => b.map fun b => charByte (byteChar b).toUpper
    { formatted with output := done.output ++ raised }
  match c with
  | 'd' => whole Int64.minValue.toInt Int64.maxValue.toInt conversion.signed
  | 'i' => whole Int64.minValue.toInt Int64.maxValue.toInt conversion.signed
  | 'u' => unsigned 10
  | 'x' => unsigned 16
  | 'X' => upper (unsigned 16)
  | 'o' => unsigned 8
  | 'e' => float 'e'
  | 'E' => upper (float 'e')
  | 'f' => float 'f'
  | 'F' => float 'f'
  | 'g' => float 'g'
  | 'G' => upper (float 'g')
  | 'c' => done.put (conversion.pad false [] (text.take 1))
  | 'b' =>
      let content := unescaped ⟨false, true⟩ (argument.length + 1) text
      let missing := List.replicate (conversion.width - content.length) (some 32)
      { done with
        output := done.output ++
          if conversion.flags.contains '-' then content ++ missing else missing ++ content }
  | _ => done.put (conversion.pad false [] ((conversion.precision.map text.take).getD text))

/-- A count that is written in a format or given by an argument, and what follows it. -/
def count (done : Formatted) (cs : List Char) : Int × List Char × Formatted :=
  match cs with
  | '*' :: rest =>
      let (argument, done) := done.take
      ((numberPrefix argument.toList).1, rest, done)
  | cs =>
      let digits := cs.takeWhile Char.isDigit
      ((baseValue? 10 digits).getD 0, cs.drop digits.length, done)

def pass (caller : String) (words : NumberWords) : Nat → List Char → Formatted → Formatted
  | 0, _, done => done
  | _ + 1, [], done => done
  | fuel + 1, '\\' :: c :: rest, done =>
      let (new, rest) :=
        if isOctal c then
          let (n, rest) := octal 3 (c :: rest)
          ([some n.toUInt8], rest)
        else if c = '"' then ([some 34], rest)
        else if c = 'c' then ([none], [])
        else
          match escapeCode? c with
          | some b => ([some b], rest)
          | none => ([some 92], c :: rest)
      pass caller words fuel rest { done with output := done.output ++ new }
  | fuel + 1, '%' :: '%' :: rest, done => pass caller words fuel rest (done.put ['%'])
  | fuel + 1, '%' :: rest, done =>
      let flags := rest.takeWhile fun c => "-+ 0#".toList.contains c
      let (width, rest, done) := done.count (rest.drop flags.length)
      let flags := if width < 0 then '-' :: flags else flags
      let (precision, rest, done) :=
        match rest with
        | '.' :: rest =>
            let (n, rest, done) := done.count rest
            (if n < 0 then none else some n.toNat, rest, done)
        | rest => (none, rest, done)
      match rest with
      | c :: rest =>
          if "diuxXoeEfFgGcsb".toList.contains c then
            pass caller words fuel rest
              (done.convert caller words ⟨flags, width.natAbs, precision⟩ c)
          else done.complain caller s!"%{c}: invalid directive" 2
      | [] => done.complain caller "missing format character" 2
  | fuel + 1, c :: rest, done => pass caller words fuel rest (done.put [c])

/-- Passes over a format until no argument is left. -/
def passes (caller : String) (words : NumberWords) (format : List Char) :
    Nat → Formatted → Formatted
  | 0, done => done
  | fuel + 1, done =>
      let next := pass caller words (format.length + 1) format { done with used := false }
      if next.args.isEmpty || !next.used || next.output.contains none || next.status == 2 then next
      else passes caller words format fuel next

def finished (done : Formatted) (input : List UInt8) : Finished :=
  { output := bytes (untilEnd done.output), errors := octets done.errors, status := done.status
    input }

end Formatted

/-- Writes its arguments under a format; `caller` precedes its complaints. -/
def printf (caller : String) : Filter := fun args input =>
  let words : NumberWords := ⟨id, "expected numeric value", "not completely converted"⟩
  let plain := args.head? = some "--"
  match if plain then args.tail else args with
  | [] => failing s!"{caller}printf: usage: printf format [arg ...]\n" 2 input
  | format :: args =>
      match if plain then [] else format.toList with
      | '-' :: c :: _ => failing s!"{caller}printf: Illegal option -{c}\n" 2 input
      | _ =>
          (Formatted.passes caller words format.toList (args.length + 1)
            ⟨[], "", args, false, 0⟩).finished input

/-- The same as a program outside of the shell, which warns of arguments that the format leaves
out. -/
def plainPrintf : Filter := fun args input =>
  let words : NumberWords :=
    ⟨inQuotes, "expected a numeric value", "value not completely converted"⟩
  match if args.head? = some "--" then args.tail else args with
  | [] => misused "printf" "missing operand" 1 input
  | format :: args =>
      let done := Formatted.passes "" words format.toList (args.length + 1) ⟨[], "", args, false, 0⟩
      let done :=
        match done.args with
        | first :: _ =>
            if done.status = 0 then
              done.complain ""
                s!"warning: ignoring excess arguments, starting with {inQuotes first}" 0
            else done
        | [] => done
      { done.finished input with status := min done.status 1 }

/-! ## Ranges -/

/-- A decimal number: a count of the last of some places. -/
structure PlacedNumber where
  units : Int
  places : Nat

def placedNumber? (text : String) : Option PlacedNumber :=
  let (sign, cs) :=
    match text.toList with
    | '-' :: rest => ((-1 : Int), rest)
    | '+' :: rest => (1, rest)
    | cs => (1, cs)
  match decimalPrefix? cs with
  | some (units, power, []) =>
      if power ≤ 0 then some ⟨sign * units, (-power).toNat⟩
      else some ⟨sign * (units * Nat.pow 10 power.toNat : Nat), 0⟩
  | _ => none

def PlacedNumber.inPlaces (n : PlacedNumber) (places : Nat) : Int :=
  n.units * (Nat.pow 10 (places - n.places) : Nat)

def placedText (places : Nat) (units : Int) : List Char :=
  (if units < 0 then ['-'] else []) ++ Decimal.pointed places (Nat.toDigits 10 units.natAbs)

/-- The number with zeros after its sign up to a width. -/
def zeroPadded (width : Nat) (cs : List Char) : List Char :=
  let sign := cs.takeWhile (· == '-')
  sign ++ List.replicate (width - cs.length) '0' ++ cs.drop sign.length

def numberRange (first step last : Int) : List Int :=
  let count := if 0 < step then (last - first) / step + 1 else (first - last) / (-step) + 1
  (List.range count.toNat).map fun (i : Nat) => first + step * (i : Int)

/-- Whether an argument is an option of `seq`, and not a negative number. -/
def isRangeOption (arg : String) : Bool :=
  match arg.toList with
  | '-' :: c :: _ => !c.isDigit && c != '.'
  | _ => false

/-- Writes the numbers of a range, one a line or with another text between them. -/
def seq : Filter := fun args input =>
  let options := args.takeWhile isRangeOption
  let split (arg : String) : List String × List String :=
    match options.getLast?, arg with
    | some "-s", arg => (options ++ [arg], (args.drop options.length).tail)
    | _, _ => (options, args.drop options.length)
  let (options, operands) := split ((args.drop options.length).head?.getD "")
  withOptions "seq" ⟨"w", "s", [("equal-width", 'w'), ("separator", 's')]⟩ 1 options input
    fun options =>
      match operands.mapM placedNumber? with
      | none =>
          let bad := (operands.find? (fun a => (placedNumber? a).isNone)).getD ""
          misused "seq" s!"invalid floating point argument: {inQuotes bad}" 1 input
      | some numbers =>
          let one : PlacedNumber := ⟨1, 0⟩
          let write (first step last : PlacedNumber) : Finished :=
            let places := max first.places step.places
            let most := max places last.places
            let units := numberRange (first.inPlaces most) (step.inPlaces most) (last.inPlaces most)
            let scale : Int := (Nat.pow 10 (most - places) : Nat)
            let texts := units.map fun n => placedText places (n / scale)
            let ends := [placedText places (first.inPlaces places), placedText places
              (last.inPlaces most / scale)]
            let width := (ends.map List.length).foldl max 0
            let texts := if options.has 'w' then texts.map (zeroPadded width) else texts
            let separator := (options.value? 's').getD "\n"
            let line := separator.intercalate (texts.map String.ofList)
            { output := octets (if texts.isEmpty then "" else line ++ "\n"), input }
          match numbers with
          | [last] => write one one last
          | [first, last] => write first one last
          | [first, step, last] =>
              if step.units = 0 then
                misused "seq" s!"invalid Zero increment value: {shownArgument operands 1}" 1 input
              else write first step last
          | [] => misused "seq" "missing operand" 1 input
          | _ =>
              misused "seq" s!"extra operand {shownArgument operands 3}" 1 input

/-- Writes a line many times, as long as anyone may read. -/
def yes : Filter := fun args input =>
  let line := (if args.isEmpty then "y" else String.intercalate " " args) ++ "\n"
  { output := bytes (List.replicate 32768 (textBytes line)).flatten, input }

def succeed : Filter := fun _ input => { input }

def fail : Filter := fun _ input => { status := 1, input }

end Shell

end VersionGroups
