import VersionGroups.Text.Utf8

/-!
# Texts of bytes

Scripts, arguments and the values of variables are texts in which every character stands for one
byte, so nothing is lost where bytes are no characters. What has to do with characters works on the
wide form of such a text, in which a byte outside of every character is marked.
-/

namespace VersionGroups

namespace Shell

def bytes (l : List UInt8) : ByteArray := ⟨l.toArray⟩

def charByte (c : Char) : UInt8 := c.toNat.toUInt8

def byteChar (b : UInt8) : Char := Char.ofNat b.toNat

def textBytes (text : String) : List UInt8 := text.toList.map charByte

def rawText (l : List UInt8) : String := String.ofList (l.map byteChar)

def octets (text : String) : ByteArray := bytes (textBytes text)

def encoded (text : String) : String := rawText text.toUTF8.toList

/-- The text whose encoding a text stands for. -/
def decoded (text : String) : String := Utf8.lenient (octets text)

/-- What is added to a byte outside of every character to mark it. -/
def strayMark : Nat := 0x10ff00

/-- The character that bytes encode, if they encode a single one. -/
def wholeChar? (l : List UInt8) : Option Char :=
  match Utf8.characters none l with
  | [c] => c
  | _ => none

/-- The characters that bytes encode, as far as `fuel` goes. -/
def wideBytes : Nat → List UInt8 → List Char
  | 0, _ => []
  | _ + 1, [] => []
  | fuel + 1, b :: rest =>
      let found := [0, 1, 2, 3].findSome? fun more =>
        (wholeChar? (b :: rest.take more)).map (·, more)
      match found with
      | some (c, more) => c :: wideBytes fuel (rest.drop more)
      | none => Char.ofNat (strayMark + b.toNat) :: wideBytes fuel rest

def wide (cs : List Char) : List Char :=
  if cs.all (·.toNat < 128) then cs else wideBytes cs.length (cs.map charByte)

/-- The text of which characters are the wide form. -/
def narrow (cs : List Char) : List Char :=
  cs.flatMap fun c =>
    if strayMark ≤ c.toNat then [Char.ofNat (c.toNat - strayMark)]
    else if c.toNat < 128 then [c]
    else (encoded (String.ofList [c])).toList

def inQuotes (text : String) : String := encoded "‘" ++ text ++ encoded "’"

def isMeaningful (c : Char) : Bool :=
  " !\"$&()*;<=>?[\\^`|".toList.contains c || c.toNat < 32 || c.toNat == 127

/-- A name as it would be written in a script, between quotes. -/
def quotedName (name : String) : String :=
  let cs := name.toList
  if cs.contains '\'' && !cs.any (fun c => "\"$\\`".toList.contains c) then s!"\"{name}\""
  else
    let inner := cs.flatMap fun c => if c = '\'' then "'\\''".toList else [c]
    s!"'{String.ofList inner}'"

/-- A name as it would be written in a script, between quotes only if it needs them. -/
def shownName (name : String) : String :=
  let cs := name.toList
  let first := cs.head?.all fun c => c == '#' || c == '~'
  if first || cs.any (fun c => isMeaningful c || c == '\'') then quotedName name else name

end Shell

end VersionGroups
