/-!
# Shell commands

A script is a command. A simple command has assignments, words and redirections; the others combine
commands. A word is made of pieces, some of which are to be replaced by the value of a parameter or
by the output of a command; what is quoted keeps its blanks and its special characters.
-/

namespace VersionGroups

namespace Shell

/-- What is done with the value of a parameter: it is replaced where the parameter is not set, or
set to the replacement, or missed; it is replaced where it is set; or ends of it are cut off. With
`orEmpty` an empty value counts as not set. -/
inductive Modifier where
  | whenUnset (orEmpty : Bool) (word : List Char)
  | setUnset (orEmpty : Bool) (word : List Char)
  | required (orEmpty : Bool) (message : List Char)
  | whenSet (orEmpty : Bool) (word : List Char)
  | length
  | withoutStart (longest : Bool) (pattern : List Char)
  | withoutEnd (longest : Bool) (pattern : List Char)
  deriving DecidableEq, Repr

/-- A piece of a word. The text of a nested word or script is kept as it is written. -/
inductive Piece where
  | text (quoted : Bool) (characters : List Char)
  | parameter (quoted : Bool) (name : String) (modifier : Option Modifier)
  | output (quoted : Bool) (script : List Char)
  | arithmetic (expression : List Char)
  deriving DecidableEq, Repr

abbrev Word := List Piece

/-- Where a stream of a command leads: to where another one does, to a file that is read, written
anew, continued or both read and continued, or from a text. -/
inductive Redirection where
  | copy (stream : Nat) (source : Word)
  | input (stream : Nat) (file : Word)
  | output (stream : Nat) (file : Word)
  | append (stream : Nat) (file : Word)
  | update (stream : Nat) (file : Word)
  | text (stream : Nat) (content : Word)
  deriving DecidableEq, Repr

/-- A command. A simple one knows the number of its line. -/
inductive Command where
  | nothing
  | simple (line : Nat) (assignments : List (String × Word)) (words : List Word)
      (redirections : List Redirection)
  | pipe (first second : Command)
  | negation (command : Command)
  | sequence (first second : Command)
  | conjunction (first second : Command)
  | disjunction (first second : Command)
  | conditional (test body alternative : Command)
  | loop (whileFails : Bool) (test body : Command)
  | each (name : String) (words : Option (List Word)) (body : Command)
  | choice (subject : Word) (branches : List (List Word × Command))
  | background (command : Command)
  | define (name : String) (body : Command)
  | group (body : Command) (redirections : List Redirection)
  | subshell (body : Command) (redirections : List Redirection)
  deriving Inhabited

end Shell

end VersionGroups
