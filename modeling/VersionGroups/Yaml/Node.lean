import VersionGroups.Yaml.Token

/-!
# YAML documents

A document is a tree of scalars, sequences and mappings in which an alias refers to a node by
number. An anchor gets as its number how many different anchors come before it, so an anchor that is
set again shares its new number with the next different one. A number stands for the last node of
the document that got it, even in front of that node. A mapping keeps its pairs in the order of the
text, repeated keys included.
-/

namespace VersionGroups

namespace Yaml

/-- A node of a document. -/
inductive Node where
  | scalar (text : String) (style : Style) (tag : Option String)
  | sequence (items : List Node)
  | mapping (pairs : List (Node × Node))
  | reference (number : Nat)
  deriving Inhabited

/-- A root and the nodes that bear a number, the last one first. A node is missing only while it is
being read. -/
structure Document where
  root : Node
  numbered : List (Nat × Option Node)

/-- The node that a number stands for. -/
def Document.node? (document : Document) (number : Nat) : Option Node :=
  (document.numbered.find? (fun n => n.1 == number)).bind (·.2)

namespace Node

/-- The node that stands where nothing is written. -/
def absent : Node := .scalar "" .plain none

mutual

/-- How many marks a node is made of: one for a scalar or a reference, two around a collection. -/
def size : Node → Nat
  | .scalar .. => 1
  | .reference _ => 1
  | .sequence items => 2 + sizeOfItems items
  | .mapping pairs => 2 + sizeOfPairs pairs

def sizeOfItems : List Node → Nat
  | [] => 0
  | item :: rest => item.size + sizeOfItems rest

def sizeOfPairs : List (Node × Node) → Nat
  | [] => 0
  | (key, value) :: rest => key.size + value.size + sizeOfPairs rest

end

/-- The handles of tags and what they stand for. -/
abbrev TagHandles := List (String × String)

/-- What nodes are read from. -/
structure Source where
  tokens : List Token
  anchors : List (String × Nat)
  numbered : List (Nat × Option Node)
  handles : TagHandles

/-- A reader of something at the beginning of the tokens. -/
abbrev Reader (α : Type) := Source → Except SyntaxError (α × Source)

/-- The tokens after the first one. -/
def Source.next (source : Source) : Source := { source with tokens := source.tokens.tail }

/-- Whether the first token is one of some tokens, or there is none. -/
def Source.startsWith (source : Source) (tokens : List Token) : Bool :=
  match source.tokens with
  | [] => true
  | token :: _ => tokens.contains token

/-- The error where the first token does not fit. -/
def Source.misplaced {α : Type} (source : Source) (expected : String) : Except SyntaxError α :=
  match source.tokens with
  | [] => .error .endOfText
  | _ :: _ => .error (.misplaced ("something other than " ++ expected))

/-- The properties in front of a node, in either order. -/
structure Properties where
  anchor : Option String := none
  tag : Option (String × String) := none

/-- The properties at the beginning of the tokens, each at most once. -/
def properties (source : Source) : Properties × Source :=
  match source.tokens with
  | .anchor name :: .tag handle suffix :: _ =>
      ({ anchor := some name, tag := some (handle, suffix) }, source.next.next)
  | .tag handle suffix :: .anchor name :: _ =>
      ({ anchor := some name, tag := some (handle, suffix) }, source.next.next)
  | .anchor name :: _ => ({ anchor := some name }, source.next)
  | .tag handle suffix :: _ => ({ tag := some (handle, suffix) }, source.next)
  | _ => ({}, source)

/-- The whole tag of a handle and a suffix. -/
def resolvedTag (handles : TagHandles) (tag : Option (String × String)) :
    Except SyntaxError (Option String) :=
  match tag with
  | none => .ok none
  | some ("", suffix) => .ok (some suffix)
  | some (handle, suffix) =>
      match handles.find? (fun h => h.1 == handle) with
      | some (_, replacement) => .ok (some (replacement ++ suffix))
      | none => .error .badTag

/-- Gives a node that begins the number of its anchor. -/
def Source.announce (source : Source) (anchor : Option String) : Source :=
  match anchor with
  | some name =>
      let number := source.anchors.length
      { source with
        anchors := (name, number) :: source.anchors.filter (fun a => a.1 != name)
        numbered := (number, none) :: source.numbered }
  | none => source

/-- Registers the complete node under the number that it was announced with. -/
def Source.complete (source : Source) (anchor : Option String) (node : Node) : Source :=
  match anchor with
  | some _ =>
      let later := source.numbered.takeWhile fun n => n.2.isSome
      match source.numbered.drop later.length with
      | (number, _) :: earlier =>
          { source with numbered := later ++ (number, some node) :: earlier }
      | [] => source
  | none => source

def Source.aliased (source : Source) (name : String) : Except SyntaxError Node :=
  match source.anchors.find? (fun a => a.1 == name) with
  | some (_, number) => .ok (.reference number)
  | none => .error (.unknownAnchor name)

mutual

/-- The node at the beginning of the tokens. Blocks are admitted only outside of collections on one
line, and a sequence that is not indented only inside a mapping. -/
def read (block unindented : Bool) : Nat → Reader Node
  | 0, source => source.misplaced "a node"
  | fuel + 1, source =>
      match source.tokens with
      | .reference name :: _ => do return (← source.aliased name, source.next)
      | _ => do
          let (properties, source) := properties source
          let tag ← resolvedTag source.handles properties.tag
          let opened := source.announce properties.anchor
          let close (result : Node × Source) : Node × Source :=
            (result.1, result.2.complete properties.anchor result.1)
          match source.tokens with
          | .blockEntry :: _ =>
              if unindented then return close (← readUnindented fuel [] opened)
              else if properties.anchor.isSome || tag.isSome then
                return close (.scalar "" .plain tag, opened)
              else source.misplaced "a node"
          | .scalar text style :: _ =>
              return close (.scalar text style (tag.filter (· ≠ "!")), opened.next)
          | .flowSequenceStart :: _ => return close (← readFlowItems fuel true [] opened.next)
          | .flowMappingStart :: _ => return close (← readFlowPairs fuel true [] opened.next)
          | .blockSequenceStart :: _ =>
              if block then return close (← readItems fuel [] opened.next)
              else source.misplaced "a node"
          | .blockMappingStart :: _ =>
              if block then return close (← readPairs fuel [] opened.next)
              else source.misplaced "a node"
          | _ =>
              if properties.anchor.isSome || tag.isSome then
                return close (.scalar "" .plain tag, opened)
              else source.misplaced "a node"

/-- The items of a block up to its end; `acc` holds those read, last first. -/
def readItems : Nat → List Node → Reader Node
  | 0, _, source => source.misplaced "an item"
  | fuel + 1, acc, source =>
      match source.tokens with
      | .blockEntry :: _ =>
          let source := source.next
          if source.startsWith [.blockEntry, .blockEnd] then readItems fuel (absent :: acc) source
          else do
            let (item, source) ← read true false fuel source
            readItems fuel (item :: acc) source
      | .blockEnd :: _ => .ok (.sequence acc.reverse, source.next)
      | _ => source.misplaced "an item"

/-- The items of a sequence that is not indented. -/
def readUnindented : Nat → List Node → Reader Node
  | 0, _, source => source.misplaced "an item"
  | fuel + 1, acc, source =>
      match source.tokens with
      | .blockEntry :: _ =>
          let source := source.next
          if source.startsWith [.blockEntry, .key, .value, .blockEnd] then
            readUnindented fuel (absent :: acc) source
          else do
            let (item, source) ← read true false fuel source
            readUnindented fuel (item :: acc) source
      | _ => .ok (.sequence acc.reverse, source)

/-- The pairs of a block up to its end. -/
def readPairs : Nat → List (Node × Node) → Reader Node
  | 0, _, source => source.misplaced "a key"
  | fuel + 1, acc, source =>
      match source.tokens with
      | .key :: _ => do
          let source := source.next
          let (key, source) ←
            if source.startsWith [.key, .value, .blockEnd] then pure (absent, source)
            else read true true fuel source
          let (value, source) ← readBlockValue fuel source
          readPairs fuel ((key, value) :: acc) source
      | .blockEnd :: _ => .ok (.mapping acc.reverse, source.next)
      | _ => source.misplaced "a key"

/-- The value of a key in a block. -/
def readBlockValue : Nat → Reader Node
  | 0, source => source.misplaced "a value"
  | fuel + 1, source =>
      match source.tokens with
      | .value :: _ =>
          let source := source.next
          if source.startsWith [.key, .value, .blockEnd] then .ok (absent, source)
          else read true true fuel source
      | _ => .ok (absent, source)

/-- The items of a sequence on one line, of which a pair counts as a mapping. -/
def readFlowItems : Nat → Bool → List Node → Reader Node
  | 0, _, _, source => source.misplaced "an item"
  | fuel + 1, isFirst, acc, source =>
      match source.tokens with
      | .flowSequenceEnd :: _ => .ok (.sequence acc.reverse, source.next)
      | token :: _ =>
          if !isFirst && token != .flowEntry then source.misplaced "a comma"
          else
            let source := if isFirst then source else source.next
            match source.tokens with
            | .key :: _ => do
                let (pair, source) ← readSinglePair fuel source.next
                readFlowItems fuel false (pair :: acc) source
            | .flowSequenceEnd :: _ => .ok (.sequence acc.reverse, source.next)
            | _ => do
                let (item, source) ← read false false fuel source
                readFlowItems fuel false (item :: acc) source
      | [] => source.misplaced "an item"

/-- A pair in a sequence on one line, after the mark of its key. -/
def readSinglePair : Nat → Reader Node
  | 0, source => source.misplaced "a key"
  | fuel + 1, source => do
      let (key, source) ←
        if source.startsWith [.value, .flowEntry, .flowSequenceEnd] then pure (absent, source)
        else read false false fuel source
      let (value, source) ← readFlowValue .flowSequenceEnd fuel source
      return (.mapping [(key, value)], source)

/-- The value of a key in a collection on one line with a given end. -/
def readFlowValue (closing : Token) : Nat → Reader Node
  | 0, source => source.misplaced "a value"
  | fuel + 1, source =>
      match source.tokens with
      | .value :: _ =>
          let source := source.next
          if source.startsWith [.flowEntry, closing] then .ok (absent, source)
          else read false false fuel source
      | _ => .ok (absent, source)

/-- The pairs of a mapping on one line. -/
def readFlowPairs : Nat → Bool → List (Node × Node) → Reader Node
  | 0, _, _, source => source.misplaced "a key"
  | fuel + 1, isFirst, acc, source =>
      match source.tokens with
      | .flowMappingEnd :: _ => .ok (.mapping acc.reverse, source.next)
      | token :: _ =>
          if !isFirst && token != .flowEntry then source.misplaced "a comma"
          else
            let source := if isFirst then source else source.next
            match source.tokens with
            | .key :: _ => do
                let source := source.next
                let (key, source) ←
                  if source.startsWith [.value, .flowEntry, .flowMappingEnd] then
                    pure (absent, source)
                  else read false false fuel source
                let (value, source) ← readFlowValue .flowMappingEnd fuel source
                readFlowPairs fuel false ((key, value) :: acc) source
            | .flowMappingEnd :: _ => .ok (.mapping acc.reverse, source.next)
            | _ => do
                let (key, source) ← read false false fuel source
                readFlowPairs fuel false ((key, absent) :: acc) source
      | [] => source.misplaced "a key"

end

/-- The handles that every document knows. -/
def standardHandles : TagHandles := [("!", "!"), ("!!", "tag:yaml.org,2002:")]

/-- The tag handles of the directives at the beginning of the tokens, whether there are any, and the
tokens after them. -/
def directives (versioned : Bool) (handles : TagHandles) :
    List Token → Except SyntaxError (TagHandles × Bool × List Token)
  | .versionDirective major minor :: rest =>
      if versioned || major ≠ 1 || (minor ≠ 1 && minor ≠ 2) then .error .badDirective
      else do
        let (handles, _, rest) ← directives true handles rest
        return (handles, true, rest)
  | .tagDirective handle replacement :: rest =>
      if handles.any (fun h => h.1 == handle) then .error .badDirective
      else do
        let (handles, _, rest) ← directives versioned (handles ++ [(handle, replacement)]) rest
        return (handles, true, rest)
  | rest => .ok (handles, false, rest)

/-- The content of a document after its directives and its mark. -/
def content (marked : Bool) (handles : TagHandles) (tokens : List Token) :
    Except SyntaxError (Document × List Token) := do
  let source : Source := ⟨tokens, [], [], handles ++ standardHandles⟩
  let (node, source) ←
    if marked && source.startsWith [.documentStart, .documentEnd] then pure (absent, source)
    else read true false (3 * tokens.length + 3) source
  return (⟨node, source.numbered⟩, source.tokens)

/-- The document of a text, which must be the only one; a text without tokens has none. -/
def ofText? (text : String) : Except SyntaxError (Option Document) := do
  let tokens ← tokens text
  if tokens.isEmpty then return none
  let (handles, directed, tokens) ← directives false [] tokens
  let (document, rest) ←
    match tokens with
    | .documentStart :: rest => content true handles rest
    | _ => if directed then throw .badDirective else content false handles tokens
  match rest.dropWhile (· == .documentEnd) with
  | [] => return some document
  | .documentStart :: _ => throw .severalDocuments
  | _ => throw (.misplaced "a second node")

end Node

end Yaml

end VersionGroups
