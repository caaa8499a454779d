import VariantMerge.Config.Setting
import VariantMerge.Toml.Document

/-!
# Settings in TOML

A choice is a string, or a table whose only key is its name. Kinds of values are never converted
into each other.
-/

namespace VariantMerge

namespace Toml

namespace Value

def text? : Value → Option String
  | text t => some t
  | _ => none

def flag? : Value → Option Bool
  | flag b => some b
  | _ => none

def count? : Value → Option Nat
  | integer n => if 0 ≤ n then some n.toNat else none
  | _ => none

def items? : Value → Option (List Value)
  | array items => some items
  | _ => none

def choice? : Value → Option (String × Option Value)
  | text name => some (name, none)
  | table [(name, value)] => some (name, some value)
  | _ => none

def isVoid : Value → Bool
  | array items => items.isEmpty
  | table entries => entries.isEmpty
  | _ => false

end Value

/-- How settings are written in TOML. -/
def format : ValueFormat Value where
  text? := Value.text?
  flag? := Value.flag?
  count? := Value.count?
  items? := Value.items?
  choice? := Value.choice?
  isVoid := Value.isVoid

/-- The configuration that a document describes, if it is one. -/
def config? (text : String) : Option Config :=
  (parse? text).bind (Config.ofEntries? format)

end Toml

end VariantMerge
