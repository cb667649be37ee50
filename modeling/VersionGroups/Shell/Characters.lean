import VersionGroups.Shell.Regex

/-!
# Replacing single characters

Characters of one set are replaced by those at the same place of another one, or removed, or of
several equal ones in a row all but one are removed. A set lists characters, ranges and classes.
-/

namespace VersionGroups

namespace Shell

/-- An item of a set: characters, or one that is repeated as often as there is room, or a fixed
number of times. -/
inductive SetItem where
  | characters (cs : List Char)
  | filling (c : Char)
  deriving DecidableEq, Repr

/-- A character of a set, which may be written as an escape, and the rest. -/
def setChar (cs : List Char) : Option (Char × List Char) :=
  match cs with
  | [] => none
  | ['\\'] => some ('\\', [])
  | '\\' :: c :: rest =>
      if isOctal c then
        let (n, rest) := octal 3 (c :: rest)
        some (Char.ofNat (n % 256), rest)
      else some ((((escapeCode? c).filter fun _ => c != 'e').map byteChar).getD c, rest)
  | c :: rest => some (c, rest)

/-- The items of a set, or why a text is no set. -/
def setItems : Nat → List Char → Except String (List SetItem)
  | 0, _ => .ok []
  | fuel + 1, cs => do
      match cs with
      | [] => return []
      | '[' :: ':' :: rest =>
          let name := rest.takeWhile (· != ':')
          match rest.drop name.length with
          | ':' :: ']' :: rest =>
              match classChars? (String.ofList name) with
              | some members => return .characters members :: (← setItems fuel rest)
              | none => throw s!"invalid character class {inQuotes (String.ofList name)}"
          | _ => return .characters ['['] :: (← setItems fuel (':' :: rest))
      | '[' :: '=' :: c :: '=' :: ']' :: rest =>
          return .characters [c] :: (← setItems fuel rest)
      | '[' :: c :: '*' :: rest =>
          let digits := rest.takeWhile Char.isDigit
          match rest.drop digits.length with
          | ']' :: rest =>
              let base := if digits.head? = some '0' then 8 else 10
              match (baseValue? base digits).getD 0 with
              | 0 => return .filling c :: (← setItems fuel rest)
              | n => return .characters (List.replicate n c) :: (← setItems fuel rest)
          | _ => return .characters ['['] :: (← setItems fuel (c :: '*' :: rest))
      | cs =>
          match setChar cs with
          | none => return []
          | some (first, rest) =>
              match rest with
              | '-' :: more =>
                  match setChar more with
                  | none => return [.characters [first, '-']]
                  | some (last, after) =>
                      if last.toNat < first.toNat then
                        let range := String.ofList ['\'', first, '-', last, '\'']
                        throw s!"range-endpoints of {range} are in reverse collating sequence order"
                      else return .characters (charRange first last) :: (← setItems fuel after)
              | rest => return .characters [first] :: (← setItems fuel rest)

/-- The characters of items that fill up to a number of them. -/
def itemChars (total : Nat) (items : List SetItem) : List Char :=
  let size := items.foldl
    (fun n item =>
      match item with
      | .characters cs => n + cs.length
      | .filling _ => n)
    0
  items.flatMap fun item =>
    match item with
    | .characters cs => cs
    | .filling c => List.replicate (total - size) c

def complement (set : List Char) : List Char :=
  ((List.range 256).map Char.ofNat).filter (!set.contains ·)

/-- Of equal characters in a row that belong to a set only the first. -/
def squeezed (set : List Char) : Option Char → List Char → List Char
  | _, [] => []
  | last, c :: rest =>
      if some c == last && set.contains c then squeezed set last rest
      else c :: squeezed set (some c) rest

/-- Replaces, removes or squeezes characters of the input. -/
def tr : Filter := fun args input =>
  let ordered := args.takeWhile fun arg => arg.startsWith "-" && arg != "-"
  withOptions "tr"
    ⟨"cCdst", "",
      [("complement", 'c'), ("delete", 'd'), ("squeeze-repeats", 's'), ("truncate-set1", 't')]⟩ 1
    ordered input fun options =>
      let operands := options.operands ++ args.drop ordered.length
      let has (c : Char) : Bool := options.has c
      let text := input.map byteChar
      let put (cs : List Char) : Finished := { output := bytes (cs.map charByte), input := [] }
      let sets := operands.mapM fun text => setItems (text.length + 1) text.toList
      match sets with
      | .error message => failing s!"tr: {message}\n" 1 input
      | .ok sets =>
          let turned (set : List Char) : List Char :=
            if has 'c' || has 'C' then complement set else set
          let lacking (reason : String) : Finished :=
            failing (s!"tr: missing operand after {shownArgument operands 0}\n" ++ reason ++
              advice "tr") 1 input
          match sets with
          | [] => misused "tr" "missing operand" 1 input
          | [first] =>
              let set := turned (itemChars 0 first)
              if has 'd' && has 's' then
                lacking "Two strings must be given when both deleting and squeezing repeats.\n"
              else if has 'd' then put (text.filter (!set.contains ·))
              else if has 's' then put (squeezed set none text)
              else lacking "Two strings must be given when translating.\n"
          | [first, second] =>
              let old := turned (itemChars 0 first)
              let new := itemChars old.length second
              if has 'd' && has 's' then
                put (squeezed new none (text.filter (!old.contains ·)))
              else if has 'd' then
                failing (s!"tr: extra operand {shownArgument operands 1}\n" ++
                  "Only one string may be given when deleting without squeezing repeats.\n" ++
                  advice "tr") 1 input
              else
                match new.getLast? with
                | none =>
                    failing "tr: when not truncating set1, string2 must be non-empty\n" 1 input
                | some last =>
                    let replaced (c : Char) : Char :=
                      match (old.length - 1 - ·) <$> old.reverse.findIdx? (· == c) with
                      | some i => if has 't' then new.getD i c else new.getD i last
                      | none => c
                    let result := text.map replaced
                    put (if has 's' then squeezed new none result else result)
          | _ => misused "tr" s!"extra operand {shownArgument operands 2}" 1 input

end Shell

end VersionGroups
