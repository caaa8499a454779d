import VariantMerge.Syntax.Attribute

/-!
# Generic parameters and function signatures

The head of a function: its qualifiers, its generic parameters with their bounds and conditions,
its receiver and parameters, and its result.
-/

namespace VariantMerge

/-- A lifetime parameter with the lifetimes that it has to outlive. -/
structure LifetimeParam where
  attributes : List Token
  name : String
  bounds : List String
  trailing : Bool
  deriving Repr, Inhabited

namespace LifetimeParam

/-- A parameter without bounds has no colon. -/
def tokens (param : LifetimeParam) : List Token :=
  param.attributes ++ .lifetime param.name ::
    if param.bounds.isEmpty then []
    else .op ":" :: Token.separated "+" param.trailing (param.bounds.map fun b => [.lifetime b])

end LifetimeParam

/-- A parameter between the angle brackets of a declaration. -/
inductive GenericParam where
  | lifetime (param : LifetimeParam)
  | type (attributes : List Token) (name : String) (bounds : List Bound) (trailing : Bool)
      (default : Option Ty)
  | const (attributes : List Token) (name : String) (ty : Ty) (default : Option (List Token))

namespace GenericParam

/-- The tokens of a parameter, and whether it is a lifetime. A type without bounds has no
colon. -/
def tokens : GenericParam → Bool × List Token
  | lifetime param => (true, param.tokens)
  | type attributes name bounds trailing default =>
    (false, attributes ++ .word name ::
      (if bounds.isEmpty then []
        else .op ":" :: Token.separated "+" trailing (boundsEach bounds)) ++
      match default with
      | none => []
      | some ty => .op "=" :: ty.tokens)
  | const attributes name ty default =>
    (false, attributes ++ .word "const" :: .word name :: .op ":" :: ty.tokens ++
      match default with
      | none => []
      | some value => .op "=" :: value)

/-- The name by which a type or constant is passed on; lifetimes are not passed. -/
def argument? : GenericParam → Option String
  | lifetime _ => none
  | type _ name .. => some name
  | const _ name .. => some name

end GenericParam

/-- One condition of a `where` clause. -/
inductive WherePredicate where
  | lifetime (name : String) (bounds : List String) (trailing : Bool)
  | type (binder : Option Binder) (ty : Ty) (bounds : List Bound) (trailing : Bool)

namespace WherePredicate

def tokens : WherePredicate → List Token
  | lifetime name bounds trailing =>
    .lifetime name :: .op ":" ::
      Token.separated "+" trailing (bounds.map fun bound => [.lifetime bound])
  | type binder ty bounds trailing =>
    Binder.tokens? binder ++ ty.tokens ++ .op ":" ::
      Token.separated "+" trailing (boundsEach bounds)

end WherePredicate

/-- The conditions after `where`, of which there may be none. -/
structure WhereClause where
  predicates : List WherePredicate
  trailing : Bool

namespace WhereClause

/-- A clause without conditions is not written. -/
def tokens (clause : WhereClause) : List Token :=
  if clause.predicates.isEmpty then []
  else
    .word "where" ::
      Token.separated "," clause.trailing (clause.predicates.map WherePredicate.tokens)

def tokens? : Option WhereClause → List Token
  | none => []
  | some clause => clause.tokens

end WhereClause

/-- The generic parameters of a declaration with their conditions. -/
structure Generics where
  params : List GenericParam
  trailing : Bool
  conditions : Option WhereClause

namespace Generics

/-- No parameters and no conditions. -/
def none : Generics := ⟨[], false, .none⟩

instance : Inhabited Generics := ⟨none⟩

/-- The parameters between angle brackets, lifetimes first. Empty brackets are not written, and
conditions are written elsewhere. -/
def tokens (generics : Generics) : List Token :=
  if generics.params.isEmpty then []
  else
    .op "<" :: Token.lifetimesFirst generics.trailing (generics.params.map GenericParam.tokens) ++
      [.op ">"]

end Generics

/-- A pattern that a parameter or binding is matched with: a name that binds the whole value, a
range that lacks one of its bounds, or anything else. -/
inductive Pattern where
  | binding (name : String) (tokens : List Token)
  | openRange (tokens : List Token)
  | other (tokens : List Token)
  deriving Repr, Inhabited

namespace Pattern

def tokens : Pattern → List Token
  | binding _ tokens | openRange tokens | other tokens => tokens

/-- The name that the whole value is bound to. -/
def name? : Pattern → Option String
  | binding name _ => some name
  | _ => none

end Pattern

/-- How a method takes the value that it is called on. -/
structure Receiver where
  attributes : List Attribute
  /-- Present for `&self`, with its lifetime if one is written. -/
  reference : Option (Option String)
  isMut : Bool
  /-- Present for a receiver with a type, such as `self: Box<Self>`. -/
  ty : Option Ty

namespace Receiver

def tokens (receiver : Receiver) : List Token :=
  Attribute.outerTokens receiver.attributes ++
    (match receiver.reference with
    | none => []
    | some lifetime => .op "&" :: Token.lifetime? lifetime) ++
    Token.keywordIf receiver.isMut "mut" ++ [.word "self"] ++
    match receiver.ty with
    | none => []
    | some ty => .op ":" :: ty.tokens

end Receiver

/-- An input of a function. -/
inductive FnInput where
  | receiver (self : Receiver)
  | typed (attributes : List Attribute) (pattern : Pattern) (ty : Ty)

namespace FnInput

def tokens : FnInput → List Token
  | receiver self => self.tokens
  | typed attributes pattern ty =>
    Attribute.outerTokens attributes ++ pattern.tokens ++ .op ":" :: ty.tokens

end FnInput

/-- The head of a function. -/
structure Signature where
  isConst : Bool
  isAsync : Bool
  isUnsafe : Bool
  abi : Option Abi
  name : String
  generics : Generics
  inputs : List FnInput
  trailing : Bool
  /-- The tokens of a last parameter that takes any number of arguments. -/
  variadic : Option (List Token)
  output : Option Ty

namespace Signature

def tokens (signature : Signature) : List Token :=
  Token.keywordIf signature.isConst "const" ++ Token.keywordIf signature.isAsync "async" ++
    Token.keywordIf signature.isUnsafe "unsafe" ++ Abi.tokens? signature.abi ++
    .word "fn" :: .word signature.name :: signature.generics.tokens ++
    [.group .paren
      (Token.separated "," signature.trailing (signature.inputs.map FnInput.tokens) ++
        signature.variadic.getD [])] ++
    outputTokens signature.output ++ WhereClause.tokens? signature.generics.conditions

end Signature

end VariantMerge
