import VariantMerge.ModulePath
import VariantMerge.Syntax.Item
import VariantMerge.Token.Render

/-!
# Imports of single names

An import tree names many things at once, by paths that are read from the module in which it
stands. `Import.ofUse` splits it into imports of one name each, whose paths can be read from any
module: a path that starts with `self`, `super` or a child module is anchored at the root.
-/

namespace VariantMerge

/-- What an import brings into scope: a name, everything, or a name under another one. -/
inductive ImportedName where
  | name (name : String)
  | glob
  | renamed (name newName : String)
  deriving DecidableEq, Repr, Inhabited

namespace ImportedName

/-- The end of the import's path as it is written. -/
def text : ImportedName → String
  | name outer => outer
  | glob => "*"
  | renamed outer newName => outer ++ " as " ++ newName

def isRenamed : ImportedName → Bool
  | renamed .. => true
  | _ => false

/-- The name before renaming, if the import brings in what is called `wanted`. Everything is not
a name. -/
def outerName? (imported : ImportedName) (wanted : String) : Option String :=
  match imported with
  | name outer => if outer == wanted then some outer else none
  | glob => none
  | renamed outer newName => if newName == wanted then some outer else none

end ImportedName

/-- An import of one name. `conditions` are the attributes that it depends on, each with a blank
after it, and `leading` says that the path starts with a double colon. -/
structure Import where
  conditions : String
  leading : Bool
  path : List String
  imported : ImportedName
  deriving DecidableEq, Repr, Inhabited

namespace Import

/-- The path segments, with an empty one in front for a leading double colon. -/
def segments (anchored : Import) : List String :=
  if anchored.leading then "" :: anchored.path else anchored.path

/-- The import as a line of source. -/
def line (anchored : Import) : String :=
  anchored.conditions ++ "use " ++
    String.intercalate "::" (anchored.segments ++ [anchored.imported.text]) ++ ";"

/-- The module that the name comes from, if the path starts at the root. -/
def sourceModule? (anchored : Import) : Option ModulePath :=
  match anchored.leading, anchored.path with
  | false, "crate" :: rest => some ⟨rest⟩
  | _, _ => none

end Import

namespace UseTree

/-- The leaves of an import tree with the paths that lead to them, in order. -/
def leaves (above : List String) : UseTree → List (List String × ImportedName)
  | path first rest => leaves (above ++ [first]) rest
  | name last => [(above, .name last)]
  | rename last newName => [(above, .renamed last newName)]
  | glob => [(above, .glob)]
  | group items _ => leavesOfAll above items
where
  /-- The leaves of all trees of a group. -/
  leavesOfAll (above : List String) : List UseTree → List (List String × ImportedName)
    | [] => []
    | tree :: rest => leaves above tree ++ leavesOfAll above rest

end UseTree

namespace ModulePath

/-- The module that is `count` levels up, unless that is above the root. -/
def ancestor? (module : ModulePath) : Nat → Option ModulePath
  | 0 => some module
  | count + 1 => module.parent?.bind fun above => above.ancestor? count

/-- A path that starts with `self`, `super` or a child module, written so that it starts at the
root. Every other path stays as it is, and so does one that climbs above the root. -/
def anchor (declaring : ModulePath) (children : List String) (path : List String) :
    List String :=
  match path with
  | [] => []
  | first :: rest =>
    if first == "self" then "crate" :: declaring.segments ++ rest
    else if first == "super" then
      match declaring.ancestor? (path.takeWhile (· == "super")).length with
      | some base => "crate" :: base.segments ++ path.dropWhile (· == "super")
      | none => path
    else if children.contains first then "crate" :: declaring.segments ++ path
    else path

end ModulePath

namespace Import

/-- The import of one leaf. A leaf `self` stands for the module that the path leads to, and for
nothing if the path is empty. -/
def ofLeaf? (conditions : String) (leading : Bool) (path : List String)
    (imported : ImportedName) : Option Import :=
  match imported with
  | .name "self" => path.getLast?.map fun name => ⟨conditions, leading, path.dropLast, .name name⟩
  | .renamed "self" newName =>
    path.getLast?.map fun name => ⟨conditions, leading, path.dropLast, .renamed name newName⟩
  | _ => some ⟨conditions, leading, path, imported⟩

/-- The conditional-compilation attributes, each with a blank after it. -/
def conditionsOf (attributes : List Attribute) : String :=
  String.join ((attributes.filter (·.isExactly "cfg")).map fun attr =>
    Token.render attr.tokens ++ " ")

/-- The imports of single names that an import stands for when `declaring`, which has these child
modules, contains it. A path under a leading double colon is not anchored. -/
def ofUse (item : UseItem) (declaring : ModulePath) (children : List String) : List Import :=
  (item.tree.leaves []).filterMap fun (path, imported) =>
    ofLeaf? (conditionsOf item.attributes) item.leading
      (if item.leading then path else declaring.anchor children path) imported

end Import

end VariantMerge
