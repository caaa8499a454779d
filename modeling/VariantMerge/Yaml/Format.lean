import VariantMerge.Config.Setting
import VariantMerge.Yaml.Document

/-!
# Settings in YAML

Any scalar is a text. Truth values and numbers are plain scalars. A choice is the text of a scalar
or, with something beside its name, a tag that starts with an exclamation mark. A plain scalar
without text is an empty list or an empty document as well.
-/

namespace VariantMerge

namespace Yaml

/-- The number with these digits, if all of them are digits of the base. -/
def numberOf? (base : Nat) (digits : List Char) : Option Nat :=
  if !digits.isEmpty && digits.all fun c => Text.isHexDigit c && Text.digitValue c < base then
    some (Text.numberOf base digits)
  else none

/-- Whether digits start with a zero that does not count. -/
def isPadded (cs : List Char) : Bool :=
  cs.head? == some '0' && 1 < cs.length && cs.all Char.isDigit

/-- A number of one of four bases. -/
def unsigned? (cs : List Char) : Option Nat :=
  match cs with
  | '0' :: 'x' :: digits => numberOf? 16 digits
  | '0' :: 'o' :: digits => numberOf? 8 digits
  | '0' :: 'b' :: digits => numberOf? 2 digits
  | cs => if isPadded cs then none else numberOf? 10 cs

/-- A count, perhaps after a plus sign. -/
def countOf? (text : String) : Option Nat :=
  let n :=
    match text.toList with
    | '+' :: rest => unsigned? rest
    | cs => unsigned? cs
  n.bind fun n => if n < UInt64.size then some n else none

/-- A truth value. -/
def flagOf? (text : String) : Option Bool :=
  if ["true", "True", "TRUE"].contains text then some true
  else if ["false", "False", "FALSE"].contains text then some false
  else none

/-- The name in a tag that starts with an exclamation mark. -/
def localTag? (tag : String) : Option String :=
  match tag.toList with
  | '!' :: c :: rest => some (String.ofList (c :: rest))
  | _ => none

namespace Node

/-- Whether the node is a plain scalar without text. -/
def isBlank : Node → Bool
  | scalar _ style text => style == .plain && text.isEmpty
  | _ => false

def text? : Node → Option String
  | scalar _ _ text => some text
  | _ => none

def flag? : Node → Option Bool
  | scalar tag style text =>
    if style = .plain ∨ (style = .literal ∧ tag = "tag:yaml.org,2002:bool") then flagOf? text
    else none
  | _ => none

def count? : Node → Option Nat
  | scalar _ .plain text => countOf? text
  | _ => none

def items? (node : Node) : Option (List Node) :=
  match node with
  | sequence _ items => some items
  | _ => if node.isBlank then some [] else none

def choice? (node : Node) : Option (String × Option Node) :=
  match node with
  | scalar tag style text =>
    match localTag? tag with
    | some name => some (name, some (scalar "" style text))
    | none => some (text, none)
  | sequence tag items => (localTag? tag).map fun name => (name, some (sequence "" items))
  | mapping tag entries => (localTag? tag).map fun name => (name, some (mapping "" entries))
  | aliasOf _ => none

/-- Whether a node says that there is nothing. -/
def isVoid : Node → Bool
  | scalar _ .plain text => ["", "~", "null", "Null", "NULL"].contains text
  | _ => false

end Node

namespace Document

/-- The entries of a document. -/
def entries? (document : Document) : Option (List (String × Node)) :=
  match document.follow document.root with
  | .mapping _ entries =>
    entries.mapM fun (key, value) => (document.follow key).text?.map fun name => (name, value)
  | node => if node.isBlank then some [] else none

/-- How settings are written in a document: an alias is what it stands for. -/
def format (document : Document) : ValueFormat Node where
  text? := fun node => (document.follow node).text?
  flag? := fun node => (document.follow node).flag?
  count? := fun node => (document.follow node).count?
  items? := fun node => (document.follow node).items?
  choice? := fun node => (document.follow node).choice?
  isVoid := fun node => (document.follow node).isVoid

end Document

/-- The configuration that a text describes, if it is a document. -/
def config? (text : String) : Option Config := do
  match ← parse? text with
  | none => some Config.default
  | some document => Config.ofEntries? document.format (← document.entries?)

end Yaml

end VariantMerge
