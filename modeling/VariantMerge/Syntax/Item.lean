import VariantMerge.Syntax.Signature

/-!
# Declarations

The items of a module: traits, structs, implementations, imports and modules as trees, and all
others as the tokens they are written with, since they are only passed by.
-/

namespace VariantMerge

/-- A member that a trait declares. A function's attributes include those inside its body. -/
inductive TraitEntry where
  | method (attributes : List Attribute) (signature : Signature) (body : Option (List Token))
  | assocType (name : String) (tokens : List Token)
  | assocConst (name : String) (tokens : List Token)
  | other (tokens : List Token)

namespace TraitEntry

def tokens : TraitEntry → List Token
  | method attributes signature body =>
    Attribute.outerTokens attributes ++ signature.tokens ++
      match body with
      | none => [.op ";"]
      | some statements => [.group .brace (Attribute.innerTokens attributes ++ statements)]
  | assocType _ tokens | assocConst _ tokens | other tokens => tokens

end TraitEntry

/-- A trait declaration. -/
structure TraitItem where
  attributes : List Attribute
  visibility : Visibility
  isUnsafe : Bool
  isAuto : Bool
  name : String
  generics : Generics
  supertraits : List Bound
  trailing : Bool
  entries : List TraitEntry

namespace TraitItem

def tokens (item : TraitItem) : List Token :=
  Attribute.outerTokens item.attributes ++ item.visibility.tokens ++
    Token.keywordIf item.isUnsafe "unsafe" ++ Token.keywordIf item.isAuto "auto" ++
    .word "trait" :: .word item.name :: item.generics.tokens ++
    (if item.supertraits.isEmpty then []
    else .op ":" :: Token.separated "+" item.trailing (boundsEach item.supertraits)) ++
    WhereClause.tokens? item.generics.conditions ++
    [.group .brace
      (Attribute.innerTokens item.attributes ++ item.entries.flatMap TraitEntry.tokens)]

end TraitItem

/-- A declared field; those of a tuple have no name. -/
structure FieldItem where
  attributes : List Attribute
  visibility : Visibility
  name : Option String
  ty : Ty

namespace FieldItem

def tokens (field : FieldItem) : List Token :=
  Attribute.outerTokens field.attributes ++ field.visibility.tokens ++
    (match field.name with
    | none => []
    | some name => [.word name, .op ":"]) ++ field.ty.tokens

end FieldItem

/-- The fields of a struct in one of the three ways to declare them. -/
inductive FieldList where
  | named (fields : List FieldItem) (trailing : Bool)
  | tuple (fields : List FieldItem) (trailing : Bool)
  | unit

/-- A struct declaration. -/
structure StructItem where
  attributes : List Attribute
  visibility : Visibility
  name : String
  generics : Generics
  fields : FieldList

namespace StructItem

def tokens (item : StructItem) : List Token :=
  let conditions := WhereClause.tokens? item.generics.conditions
  let each (fields : List FieldItem) (trailing : Bool) : List Token :=
    Token.separated "," trailing (fields.map FieldItem.tokens)
  Attribute.outerTokens item.attributes ++ item.visibility.tokens ++
    .word "struct" :: .word item.name :: item.generics.tokens ++
    match item.fields with
    | .named fields trailing => conditions ++ [.group .brace (each fields trailing)]
    | .tuple fields trailing => .group .paren (each fields trailing) :: conditions ++ [.op ";"]
    | .unit => conditions ++ [.op ";"]

end StructItem

/-- The trait that an implementation is for; a negative one says that it is not implemented. -/
structure ImplTarget where
  isNegative : Bool
  path : Path

/-- An implementation block. Its members are only passed on. -/
structure ImplItem where
  attributes : List Attribute
  /-- The keywords before `impl`. -/
  qualifiers : List Token
  generics : Generics
  interface : Option ImplTarget
  selfTy : Ty
  members : List Token

namespace ImplItem

def tokens (item : ImplItem) : List Token :=
  Attribute.outerTokens item.attributes ++ item.qualifiers ++
    .word "impl" :: item.generics.tokens ++
    (match item.interface with
    | none => []
    | some target =>
      (if target.isNegative then [.op "!"] else []) ++ target.path.tokens ++ [.word "for"]) ++
    item.selfTy.tokens ++ WhereClause.tokens? item.generics.conditions ++
    [.group .brace (Attribute.innerTokens item.attributes ++ item.members)]

end ImplItem

/-- What an import names: a tree whose leaves are the imported names. -/
inductive UseTree where
  | path (name : String) (rest : UseTree)
  | name (name : String)
  | rename (name newName : String)
  | glob
  | group (items : List UseTree) (trailing : Bool)
  deriving Repr, Inhabited

mutual

def UseTree.tokens : UseTree → List Token
  | .path name rest => .word name :: .op "::" :: rest.tokens
  | .name name => [.word name]
  | .rename name newName => [.word name, .word "as", .word newName]
  | .glob => [.op "*"]
  | .group items trailing =>
    [.group .brace (Token.separated "," trailing (useTreesEach items))]

def useTreesEach : List UseTree → List (List Token)
  | [] => []
  | tree :: rest => tree.tokens :: useTreesEach rest

end

/-- An import. -/
structure UseItem where
  attributes : List Attribute
  visibility : Visibility
  leading : Bool
  tree : UseTree

namespace UseItem

def tokens (item : UseItem) : List Token :=
  Attribute.outerTokens item.attributes ++ item.visibility.tokens ++ .word "use" ::
    (if item.leading then [.op "::"] else []) ++ item.tree.tokens ++ [.op ";"]

end UseItem

/-- The head of a module declaration. -/
structure ModuleHead where
  attributes : List Attribute
  visibility : Visibility
  isUnsafe : Bool
  name : String

namespace ModuleHead

def tokens (head : ModuleHead) : List Token :=
  Attribute.outerTokens head.attributes ++ head.visibility.tokens ++
    Token.keywordIf head.isUnsafe "unsafe" ++ [.word "mod", .word head.name]

end ModuleHead

/-- A declaration. A module without content has its items in a file of its own. -/
inductive Item where
  | trait (item : TraitItem)
  | struct (item : StructItem)
  | impl (item : ImplItem)
  | use (item : UseItem)
  | module (head : ModuleHead) (content : Option (List Item))
  | other (tokens : List Token)

mutual

def Item.tokens : Item → List Token
  | .trait item => item.tokens
  | .struct item => item.tokens
  | .impl item => item.tokens
  | .use item => item.tokens
  | .module head .none => head.tokens ++ [.op ";"]
  | .module head (.some items) =>
    head.tokens ++
      [.group .brace (Attribute.innerTokens head.attributes ++ itemsTokens items)]
  | .other tokens => tokens

def itemsTokens : List Item → List Token
  | [] => []
  | item :: rest => item.tokens ++ itemsTokens rest

end

end VariantMerge
