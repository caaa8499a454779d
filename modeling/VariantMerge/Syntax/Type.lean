import VariantMerge.Token.Basic

/-!
# Types, paths and bounds

The types that fields, parameters and results are declared with, as trees. `Ty.tokens` gives the
tokens that a type is written with: each piece of grammar is one operator, however the source was
spaced, and lifetimes come first among generic arguments.
-/

namespace VariantMerge

namespace Token

/-- Parts with a separator between them, and after the last one if it is `trailing`. -/
def separated (separator : String) (trailing : Bool) : List (List Token) → List Token
  | [] => []
  | [part] => if trailing then part ++ [.op separator] else part
  | part :: next :: rest => part ++ .op separator :: separated separator trailing (next :: rest)

/-- Comma-separated parts with the lifetimes moved to the front. A comma is added after the last
lifetime if it had none and something follows it now. -/
def lifetimesFirst (trailing : Bool) (parts : List (Bool × List Token)) : List Token :=
  let lifetimes := (parts.filter (·.1)).map (·.2)
  let others := (parts.filter (!·.1)).map (·.2)
  match others, parts.getLast? with
  | [], _ => separated "," trailing lifetimes
  | _, some (true, _) => separated "," true lifetimes ++ separated "," true others
  | _, _ => separated "," true lifetimes ++ separated "," trailing others

/-- The keyword if it is there. -/
def keywordIf (present : Bool) (keyword : String) : List Token :=
  if present then [.word keyword] else []

/-- The lifetime if there is one. -/
def lifetime? : Option String → List Token
  | none => []
  | some name => [.lifetime name]

end Token

/-- The parameters that a bound or function type quantifies over, each as its tokens:
`for<'a, 'b>`. -/
structure Binder where
  params : List (List Token)
  trailing : Bool
  deriving Repr, Inhabited

namespace Binder

def tokens (binder : Binder) : List Token :=
  .word "for" :: .op "<" :: Token.separated "," binder.trailing binder.params ++ [.op ">"]

/-- The tokens of a binder that may be missing. -/
def tokens? : Option Binder → List Token
  | none => []
  | some binder => binder.tokens

end Binder

/-- The calling convention of a function: `extern`, with or without its name as a literal. -/
structure Abi where
  name : Option String
  deriving Repr, Inhabited

namespace Abi

def tokens? : Option Abi → List Token
  | none => []
  | some ⟨none⟩ => [.word "extern"]
  | some ⟨some name⟩ => [.word "extern", .word name]

end Abi

mutual

/-- A type. -/
inductive Ty where
  | path (path : Path)
  | qualified (self : Ty) (interface : Option Path) (rest : List Segment)
  | reference (lifetime : Option String) (isMut : Bool) (target : Ty)
  | pointer (isMut : Bool) (target : Ty)
  | slice (element : Ty)
  | array (element : Ty) (length : List Token)
  | tuple (elements : List Ty) (trailing : Bool)
  | paren (inner : Ty)
  | never
  | infer
  | fnPointer (binder : Option Binder) (isUnsafe : Bool) (abi : Option Abi)
      (params : List FnParam) (trailing : Bool) (variadic : List Token) (output : Option Ty)
  | object (hasDyn : Bool) (bounds : List Bound) (trailing : Bool)
  | implTrait (bounds : List Bound) (trailing : Bool)
  | macroCall (path : Path) (arguments : Token)
  | other (tokens : List Token)

/-- A parameter of a function type, with its name if it has one. -/
inductive FnParam where
  | mk (attributes : List Token) (name : Option String) (ty : Ty)

/-- A path, which may start with a double colon. -/
inductive Path where
  | mk (leading : Bool) (segments : List Segment)

/-- One name of a path with its arguments. -/
inductive Segment where
  | mk (name : String) (arguments : Arguments)

/-- The arguments of a path's segment. -/
inductive Arguments where
  | none
  | angle (turbofish : Bool) (arguments : List GenericArg) (trailing : Bool)
  | paren (inputs : List Ty) (trailing : Bool) (output : Option Ty)

/-- An argument between angle brackets. -/
inductive GenericArg where
  | lifetime (name : String)
  | type (ty : Ty)
  | const (value : List Token)
  | assocType (name : String) (arguments : Arguments) (ty : Ty)
  | assocConst (name : String) (arguments : Arguments) (value : List Token)
  | constraint (name : String) (arguments : Arguments) (bounds : List Bound) (trailing : Bool)

/-- A bound of a type: a trait, perhaps relaxed by a question mark, or a lifetime, or the generic
parameters that are captured, each as its tokens and whether it is a lifetime. A trait that only
counts for constants is passed on as it was written. -/
inductive Bound where
  | trait (parens : Bool) (maybe : Bool) (binder : Option Binder) (path : Path)
  | lifetime (name : String)
  | capture (params : List (Bool × List Token)) (trailing : Bool)
  | other (tokens : List Token)

end

instance : Inhabited Ty := ⟨.never⟩
instance : Inhabited Path := ⟨.mk false []⟩

mutual

def Ty.tokens : Ty → List Token
  | .path path => path.tokens
  | .qualified self interface rest =>
    [.op "<"] ++ self.tokens ++ interfaceTokens interface ++ [.op ">", .op "::"] ++
      Token.separated "::" false (segmentsEach rest)
  | .reference lifetime isMut target =>
    .op "&" :: Token.lifetime? lifetime ++ Token.keywordIf isMut "mut" ++ target.tokens
  | .pointer isMut target => .op "*" :: .word (if isMut then "mut" else "const") :: target.tokens
  | .slice element => [.group .bracket element.tokens]
  | .array element length => [.group .bracket (element.tokens ++ .op ";" :: length)]
  | .tuple elements trailing => [.group .paren (Token.separated "," trailing (typesEach elements))]
  | .paren inner => [.group .paren inner.tokens]
  | .never => [.op "!"]
  | .infer => [.word "_"]
  | .fnPointer binder isUnsafe abi params trailing variadic output =>
    Binder.tokens? binder ++ Token.keywordIf isUnsafe "unsafe" ++ Abi.tokens? abi ++
      [.word "fn",
        .group .paren (Token.separated "," trailing (paramsEach params) ++ variadic)] ++
      outputTokens output
  | .object hasDyn bounds trailing =>
    Token.keywordIf hasDyn "dyn" ++ Token.separated "+" trailing (boundsEach bounds)
  | .implTrait bounds trailing =>
    .word "impl" :: Token.separated "+" trailing (boundsEach bounds)
  | .macroCall path arguments => path.tokens ++ [.op "!", arguments]
  | .other tokens => tokens

/-- The trait that a qualified path goes through. -/
def interfaceTokens : Option Path → List Token
  | .none => []
  | .some path => .word "as" :: path.tokens

/-- The arrow and result type of a function type or bound. -/
def outputTokens : Option Ty → List Token
  | .none => []
  | .some ty => .op "->" :: ty.tokens

def typesEach : List Ty → List (List Token)
  | [] => []
  | ty :: rest => ty.tokens :: typesEach rest

def FnParam.tokens : FnParam → List Token
  | .mk attributes .none ty => attributes ++ ty.tokens
  | .mk attributes (.some name) ty => attributes ++ .word name :: .op ":" :: ty.tokens

def paramsEach : List FnParam → List (List Token)
  | [] => []
  | param :: rest => param.tokens :: paramsEach rest

def Path.tokens : Path → List Token
  | .mk leading segments =>
    (if leading then [.op "::"] else []) ++ Token.separated "::" false (segmentsEach segments)

def Segment.tokens : Segment → List Token
  | .mk name arguments => .word name :: arguments.tokens

def segmentsEach : List Segment → List (List Token)
  | [] => []
  | segment :: rest => segment.tokens :: segmentsEach rest

def Arguments.tokens : Arguments → List Token
  | .none => []
  | .angle turbofish arguments trailing =>
    (if turbofish then [.op "::"] else []) ++ .op "<" ::
      Token.lifetimesFirst trailing (genericsEach arguments) ++ [.op ">"]
  | .paren inputs trailing output =>
    .group .paren (Token.separated "," trailing (typesEach inputs)) :: outputTokens output

/-- The tokens of a generic argument, and whether it is a lifetime. -/
def GenericArg.tokens : GenericArg → Bool × List Token
  | .lifetime name => (true, [.lifetime name])
  | .type ty => (false, ty.tokens)
  | .const value => (false, value)
  | .assocType name arguments ty =>
    (false, .word name :: arguments.tokens ++ .op "=" :: ty.tokens)
  | .assocConst name arguments value =>
    (false, .word name :: arguments.tokens ++ .op "=" :: value)
  | .constraint name arguments bounds trailing =>
    (false, .word name :: arguments.tokens ++ .op ":" ::
      Token.separated "+" trailing (boundsEach bounds))

def genericsEach : List GenericArg → List (Bool × List Token)
  | [] => []
  | argument :: rest => argument.tokens :: genericsEach rest

def Bound.tokens : Bound → List Token
  | .trait parens maybe binder path =>
    let inner := (if maybe then [.op "?"] else []) ++ Binder.tokens? binder ++ path.tokens
    if parens then [.group .paren inner] else inner
  | .lifetime name => [.lifetime name]
  | .capture params trailing =>
    .word "use" :: .op "<" :: Token.lifetimesFirst trailing params ++ [.op ">"]
  | .other tokens => tokens

def boundsEach : List Bound → List (List Token)
  | [] => []
  | bound :: rest => bound.tokens :: boundsEach rest

end

namespace Segment

def name : Segment → String
  | mk name _ => name

def arguments : Segment → Arguments
  | mk _ arguments => arguments

end Segment

namespace Arguments

def isNone : Arguments → Bool
  | none => true
  | _ => false

/-- Nothing is passed: no arguments at all, or empty brackets. -/
def isEmpty : Arguments → Bool
  | none => true
  | angle _ arguments _ => arguments.isEmpty
  | paren .. => false

end Arguments

namespace Path

def segments : Path → List Segment
  | mk _ segments => segments

/-- The names along the path. -/
def names (path : Path) : List String :=
  path.segments.map Segment.name

/-- A path of plain names. -/
def isPlain (path : Path) : Bool :=
  path.segments.all (·.arguments.isNone)

/-- The last segment gets these arguments. -/
def withArguments (path : Path) (arguments : Arguments) : Path :=
  match path with
  | mk leading segments =>
    match segments.getLast? with
    | none => path
    | some last => mk leading (segments.dropLast ++ [.mk last.name arguments])

end Path

namespace Bound

/-- Whether the bound asks for a trait. -/
def isTrait : Bound → Bool
  | lifetime _ | capture .. => false
  | trait .. | other _ => true

end Bound

namespace Ty

/-- A path of plain names. -/
def isPlainPath : Ty → Bool
  | path p => p.isPlain
  | _ => false

/-- The empty tuple. -/
def isUnit : Ty → Bool
  | tuple [] _ => true
  | _ => false

end Ty

end VariantMerge
