import VersionGroups.Text.LetterCase

/-!
# Names made of words

A name written with underscores between its words, and its spelling with the words run together,
each beginning with a capital. A word's remaining letters are put in lower case, and a word without
characters leaves no trace.
-/

namespace VersionGroups

/-- A word with its first letter in upper case and the others in lower case. -/
def capitalized : List Char → List Char
  | [] => []
  | c :: rest => LetterCase.upper c ++ rest.flatMap LetterCase.lower

/-- The words of an underscored name run together, each beginning with a capital. -/
def pascalCase (name : String) : String :=
  String.ofList ((name.toList.splitOn '_').flatMap capitalized)

end VersionGroups
