import VariantMerge.Syntax.Type

/-!
# Attributes and visibilities

What may stand in front of a declaration. An attribute keeps the trees of its arguments as they
were written, since only the one who owns the attribute knows their grammar.
-/

namespace VariantMerge

/-- What follows the path of an attribute. A value remembers whether it is a single literal. -/
inductive AttributeContent where
  | none
  | list (delimiter : Delimiter) (trees : List Tree)
  | value (tokens : List Token) (literal : Option String)
  deriving Repr, Inhabited

/-- An attribute in front of a declaration, or, if `inner`, inside of it. -/
structure Attribute where
  inner : Bool
  leading : Bool
  path : List String
  content : AttributeContent
  deriving Repr, Inhabited

namespace Attribute

/-- The path without arguments. -/
def pathTokens (leading : Bool) (path : List String) : List Token :=
  (if leading then [.op "::"] else []) ++
    Token.separated "::" false (path.map fun name => [.word name])

def tokens (attr : Attribute) : List Token :=
  let content : List Token :=
    match attr.content with
    | .none => []
    | .list delimiter trees => [.group delimiter (Tree.tokens trees)]
    | .value value _ => .op "=" :: value
  .op "#" :: (if attr.inner then [.op "!"] else []) ++
    [.group .bracket (pathTokens attr.leading attr.path ++ content)]

/-- Whether the last name of the attribute's path is this one. -/
def isNamed (attr : Attribute) (name : String) : Bool :=
  attr.path.getLast? == some name

/-- Whether the attribute's path is just this name. -/
def isExactly (attr : Attribute) (name : String) : Bool :=
  !attr.leading && attr.path == [name]

/-- The tokens of the attributes in front of a declaration. -/
def outerTokens (attributes : List Attribute) : List Token :=
  (attributes.filter (!·.inner)).flatMap tokens

/-- The tokens of the attributes inside of a declaration. -/
def innerTokens (attributes : List Attribute) : List Token :=
  (attributes.filter (·.inner)).flatMap tokens

/-- Whether one of the attributes has this name last in its path. -/
def anyNamed (attributes : List Attribute) (name : String) : Bool :=
  attributes.any (·.isNamed name)

end Attribute

/-- Who may see a declaration: its module, everybody, or the modules below a path. -/
inductive Visibility where
  | inherited
  | everywhere
  | restricted (hasIn : Bool) (leading : Bool) (path : List String)
  deriving Repr, Inhabited, DecidableEq

namespace Visibility

def tokens : Visibility → List Token
  | inherited => []
  | everywhere => [.word "pub"]
  | restricted hasIn leading path =>
    [.word "pub",
      .group .paren (Token.keywordIf hasIn "in" ++ Attribute.pathTokens leading path)]

end Visibility

end VariantMerge
