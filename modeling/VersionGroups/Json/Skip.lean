import VersionGroups.Json.Reader

/-!
# Passing over document values

A value that nobody asks for is passed over without being built. Only its form is checked:
containers may be nested to any depth, numbers may have any size and escapes may name any code.
-/

namespace VersionGroups

namespace Json

/-- Gives back the text after what it passes over. -/
abbrev Skipper := List Char → Except SyntaxError (List Char)

/-- Passes over a string after its opening quote. -/
def skipString : Skipper
  | [] => .error .endOfText
  | '"' :: rest => .ok rest
  | '\\' :: 'u' :: a :: b :: c :: d :: rest =>
      if (hexQuad? a b c d).isSome then skipString rest else .error .badEscape
  | '\\' :: c :: rest => if (shortEscape? c).isSome then skipString rest else .error .badEscape
  | c :: rest => if c.toNat < 0x20 then .error .controlCharacter else skipString rest

/-- Passes over an optional exponent. -/
def skipExponent (cs : List Char) : Except SyntaxError (List Char) :=
  match cs with
  | c :: rest =>
      if c = 'e' ∨ c = 'E' then
        let rest :=
          match rest with
          | '+' :: rest => rest
          | '-' :: rest => rest
          | rest => rest
        if startsWithDigit rest then .ok (skipDigits 0 rest).2 else .error .badNumber
      else .ok cs
  | [] => .ok []

/-- Passes over what follows the whole part of a number. -/
def skipFraction (cs : List Char) : Except SyntaxError (List Char) :=
  match cs with
  | '.' :: rest =>
      if startsWithDigit rest then skipExponent (skipDigits 0 rest).2 else .error .badNumber
  | cs => skipExponent cs

/-- Passes over a number after its sign. -/
def skipUnsigned : Skipper
  | '0' :: rest => if startsWithDigit rest then .error .badNumber else skipFraction rest
  | cs =>
      if startsWithDigit cs then skipFraction (skipDigits 0 cs).2 else .error .badNumber

mutual

/-- Passes over a value at the start of the text. -/
def skipValueWithin : Nat → Skipper
  | 0, cs => failAt cs
  | fuel + 1, cs =>
      match cs with
      | 'n' :: 'u' :: 'l' :: 'l' :: rest => .ok rest
      | 't' :: 'r' :: 'u' :: 'e' :: rest => .ok rest
      | 'f' :: 'a' :: 'l' :: 's' :: 'e' :: rest => .ok rest
      | '"' :: rest => skipString rest
      | '-' :: rest => skipUnsigned rest
      | '[' :: rest =>
          match skipSpace rest with
          | ']' :: rest => .ok rest
          | rest => skipItemsWithin fuel rest
      | '{' :: rest =>
          match skipSpace rest with
          | '}' :: rest => .ok rest
          | rest => skipFieldsWithin fuel rest
      | cs => if startsWithDigit cs then skipUnsigned cs else failAt cs

/-- Passes over the items of an array after its opening bracket or a comma. -/
def skipItemsWithin : Nat → Skipper
  | 0, cs => failAt cs
  | fuel + 1, cs => do
      match skipSpace (← skipValueWithin fuel (skipSpace cs)) with
      | ',' :: rest => skipItemsWithin fuel rest
      | ']' :: rest => return rest
      | rest => failAt rest

/-- Passes over the fields of an object after its opening brace or a comma. -/
def skipFieldsWithin : Nat → Skipper
  | 0, cs => failAt cs
  | fuel + 1, cs => do
      match skipSpace cs with
      | '"' :: rest =>
          match skipSpace (← skipString rest) with
          | ':' :: rest =>
              match skipSpace (← skipValueWithin fuel (skipSpace rest)) with
              | ',' :: rest => skipFieldsWithin fuel rest
              | '}' :: rest => return rest
              | rest => failAt rest
          | rest => failAt rest
      | rest => failAt rest

end

/-- Passes over a value at the start of the text. -/
def skipValue (cs : List Char) : Except SyntaxError (List Char) :=
  skipValueWithin (2 * cs.length + 2) cs

end Json

end VersionGroups
