import VariantMerge.Yaml.Scan

/-!
# Reading YAML

`Yaml.parse?` reads a text that holds at most one document. Aliases get the numbers of their
anchors, so that a document says what they stand for, and tags are replaced by what their handles
abbreviate. An alias stands for the last node with its number, which can come after the alias.
-/

namespace VariantMerge

namespace Yaml

/-- A node of a document with its tag, which is empty where there is none or where it spells no
text. An alias stands for the node that has its number. -/
inductive Node where
  | scalar (tag : String) (style : ScalarStyle) (text : String)
  | sequence (tag : String) (items : List Node)
  | mapping (tag : String) (entries : List (Node × Node))
  | aliasOf (number : Nat)
  deriving Inhabited

/-- A document: its outermost node, and its anchored nodes with their numbers, the one that begins
last first. -/
structure Document where
  root : Node
  anchored : List (Nat × Node)

namespace Document

/-- The node that a node of the document stands for. -/
def follow (document : Document) : Node → Node
  | .aliasOf number => (document.anchored.lookup number).getD (.aliasOf number)
  | node => node

end Document

/-- The lexemes that are left, the prefixes of tags, the numbers of the anchors' names, and the
anchored nodes, the one that begins last first. -/
structure Reader where
  lexemes : List Lexeme
  handles : List (String × Option String)
  numbers : List (String × Nat)
  anchored : List (Nat × Node)

/-- A computation that takes lexemes, or fails. -/
abbrev Composing := StateT Reader Option

namespace Composing

/-- A node without content. -/
def nothing : Node := .scalar "" .plain ""

/-- The lexeme ahead. -/
def ahead : Composing (Option Lexeme) := do
  return (← get).lexemes.head?

/-- Whether one of these lexemes is ahead. -/
def nextIn (lexemes : List Lexeme) : Composing Bool := do
  return (← ahead).any lexemes.contains

def skip : Composing Unit :=
  modify fun r => { r with lexemes := r.lexemes.tail }

/-- Takes a lexeme if it is ahead, and says whether it was. -/
def taken? (lexeme : Lexeme) : Composing Bool := do
  if (← ahead) = some lexeme then
    skip
    return true
  else return false

/-- Takes a lexeme. -/
def exactly (lexeme : Lexeme) : Composing Unit := do
  if ← taken? lexeme then return () else failure

/-- A node, unless one of these lexemes is ahead. -/
def unlessNext (stops : List Lexeme) (node : Composing Node) : Composing Node := do
  if ← nextIn stops then return nothing else node

/-- The tag with its handle replaced. -/
def resolveTag (handle : String) (suffix : Option String) : Composing String := do
  if handle.isEmpty then return suffix.getD ""
  else
    match (← get).handles.lookup handle, suffix with
    | some (some replacement), some suffix => return replacement ++ suffix
    | some _, _ => return ""
    | none, _ => failure

def tag? : Composing (Option String) := do
  match ← ahead with
  | some (.tag handle suffix) =>
    skip
    return some (← resolveTag handle suffix)
  | _ => return none

def anchor? : Composing (Option String) := do
  match ← ahead with
  | some (.anchor name) =>
    skip
    return some name
  | _ => return none

/-- The anchor and the tag in front of a node, in either order. -/
def properties : Composing (Option String × Option String) := do
  match ← anchor? with
  | some name => return (some name, ← tag?)
  | none =>
    match ← tag? with
    | some tag => return (← anchor?, some tag)
    | none => return (none, none)

/-- The numbers of names with a name numbered. Its number is how many names have been numbered so
far, itself included if it is one of them, so that a name that is used again can get the number of
another one. -/
def numberName (name : String) (numbers : List (String × Nat)) : List (String × Nat) :=
  (name, numbers.length) :: numbers.filter (·.1 != name)

/-- Numbers an anchor where its node begins. The place of the node is how many nodes with an anchor
begin before it. -/
def beginAnchored (anchor : Option String) : Composing (Option Nat) := do
  match anchor with
  | none => return none
  | some name =>
    let r ← get
    set { r with
      numbers := numberName name r.numbers
      anchored := (r.numbers.length, nothing) :: r.anchored }
    return some r.anchored.length

/-- Remembers the node at a place. -/
def endAnchored (place : Option Nat) (node : Node) : Composing Unit :=
  match place with
  | none => return ()
  | some place =>
    modify fun r =>
      { r with
        anchored := r.anchored.modify (r.anchored.length - 1 - place) fun entry =>
          (entry.1, node) }

/-- The entries of a list whose sign stands before each of them. -/
def blockItems (stops : List Lexeme) (node : Composing Node) : Nat → Composing (List Node)
  | 0 => failure
  | rounds + 1 => do
    if ← taken? .blockEntry then
      let item ← unlessNext stops node
      return item :: (← blockItems stops node rounds)
    else return []

/-- The entries of a block of keys and values. -/
def blockPairs (node : Composing Node) : Nat → Composing (List (Node × Node))
  | 0 => failure
  | rounds + 1 => do
    if ← taken? .key then
      let stops : List Lexeme := [.key, .value, .blockEnd]
      let key ← unlessNext stops node
      let value ← (do if ← taken? .value then unlessNext stops node else return nothing)
      return (key, value) :: (← blockPairs node rounds)
    else return []

/-- A value after its colon. -/
def flowValue (stops : List Lexeme) (node : Composing Node) : Composing Node := do
  if ← taken? .value then unlessNext stops node else return nothing

/-- Entries in brackets with commas between them. -/
def flowList (close : Lexeme) (entry : Composing α) : Nat → Composing (List α)
  | 0 => failure
  | rounds + 1 => do
    if ← taken? close then return []
    else
      let a ← entry
      if ← taken? close then return [a]
      else
        exactly .flowEntry
        return a :: (← flowList close entry rounds)

/-- An entry of a list in brackets. A key with its value is a mapping of its own. Where nothing is
between the sign of a key and the lexeme that ends it, that lexeme is taken for the key. -/
def flowItem (node : Composing Node) : Composing Node := do
  if ← taken? .key then
    let stops : List Lexeme := [.flowEntry, .flowSequenceEnd]
    let isMissing ← nextIn (.value :: stops)
    if isMissing then skip
    let key ← (if isMissing then return nothing else node)
    return .mapping "" [(key, ← flowValue stops node)]
  else node

/-- An entry of a mapping in brackets. One without a colon has no value. -/
def flowPair (node : Composing Node) : Composing (Node × Node) := do
  if ← taken? .key then
    let stops : List Lexeme := [.flowEntry, .flowMappingEnd]
    let key ← unlessNext (.value :: stops) node
    return (key, ← flowValue stops node)
  else return (← node, nothing)

/-- The content of a node after its properties, if there is any. Block collections stand outside
of brackets only, and lists without indentation directly below a key. -/
def content? (node : Bool → Bool → Composing Node) (block indentless : Bool) (tag : String) :
    Composing (Option Node) := do
  let rounds := (← get).lexemes.length + 1
  match ← ahead with
  | some .blockEntry =>
    if indentless then
      return some (.sequence tag
        (← blockItems [.blockEntry, .key, .value, .blockEnd] (node true false) rounds))
    else return none
  | some (.scalar style text) =>
    skip
    return some (.scalar tag style text)
  | some .flowSequenceStart =>
    skip
    return some (.sequence tag (← flowList .flowSequenceEnd (flowItem (node false false)) rounds))
  | some .flowMappingStart =>
    skip
    return some (.mapping tag (← flowList .flowMappingEnd (flowPair (node false false)) rounds))
  | some .sequenceStart =>
    if block then
      skip
      let items ← blockItems [.blockEntry, .blockEnd] (node true false) rounds
      exactly .blockEnd
      return some (.sequence tag items)
    else return none
  | some .mappingStart =>
    if block then
      skip
      let entries ← blockPairs (node true true) rounds
      exactly .blockEnd
      return some (.mapping tag entries)
    else return none
  | _ => return none

/-- A node in which nodes are nested at most this deep. -/
def node : Nat → Bool → Bool → Composing Node
  | 0, _, _ => failure
  | depth + 1, block, indentless => do
    match ← ahead with
    | some (.aliasOf name) =>
      skip
      match (← get).numbers.lookup name with
      | some number => return .aliasOf number
      | none => failure
    | _ =>
      let (anchor, tag) ← properties
      let place ← beginAnchored anchor
      match ← content? (node depth) block indentless (tag.getD "") with
      | some content =>
        endAnchored place content
        return content
      | none =>
        if anchor.isNone ∧ tag.isNone then failure
        else
          let empty := Node.scalar (tag.getD "") .plain ""
          endAnchored place empty
          return empty

/-! ## Documents -/

/-- The handles that need no directive. -/
def defaultHandles : List (String × Option String) :=
  [("!", some "!"), ("!!", some "tag:yaml.org,2002:")]

/-- The directives before a document: handles of tags, each at most once, and at most one
version. -/
def directivesFrom (versioned : Bool) (handles : List (String × Option String)) :
    Nat → Composing (List (String × Option String))
  | 0 => failure
  | rounds + 1 => do
    match ← ahead with
    | some (.version major minor) =>
      if versioned ∨ major ≠ 1 ∨ (minor ≠ 1 ∧ minor ≠ 2) then failure
      else
        skip
        directivesFrom true handles rounds
    | some (.tagPrefix handle replacement) =>
      if (handles.lookup handle).isSome then failure
      else
        skip
        directivesFrom versioned ((handle, replacement) :: handles) rounds
    | _ => return handles

/-- The node of a document. -/
def root : Composing Node := do
  node ((← get).lexemes.length + 1) true false

/-- A document that begins with its marker, after its directives. -/
def markedDocument : Composing Node := do
  let handles ← directivesFrom false [] ((← get).lexemes.length + 1)
  modify fun r => { r with handles := handles ++ defaultHandles, numbers := [], anchored := [] }
  exactly .documentStart
  match ← ahead with
  | none | some .documentStart | some .documentEnd | some (.version _ _)
  | some (.tagPrefix _ _) => return nothing
  | _ => root

/-- Takes the markers that end documents. -/
def skipEnds : Nat → Composing Unit
  | 0 => return ()
  | rounds + 1 => do
    if ← taken? .documentEnd then skipEnds rounds

/-- The documents after the first. -/
def documentsFrom : Nat → Composing (List Node)
  | 0 => failure
  | rounds + 1 => do
    skipEnds (← get).lexemes.length
    if (← ahead).isNone then return []
    else
      let document ← markedDocument
      return document :: (← documentsFrom rounds)

/-- All documents. The first may begin without a marker. -/
def documents : Composing (List Node) := do
  let rounds := (← get).lexemes.length + 1
  let more (first : Node) : Composing (List Node) := do
    return first :: (← documentsFrom rounds)
  match ← ahead with
  | none => return []
  | some .documentStart | some (.version _ _) | some (.tagPrefix _ _) => more (← markedDocument)
  | _ => more (← root)

end Composing

/-- The document in a text: none if the text has no content. Texts with several documents are
refused. -/
def parse? (text : String) : Option (Option Document) := do
  let lexemes ← lexemes? text
  let (documents, after) ← Composing.documents ⟨lexemes, Composing.defaultHandles, [], []⟩
  match documents with
  | [] => some none
  | [root] => some (some ⟨root, after.anchored⟩)
  | _ => none

end Yaml

end VariantMerge
