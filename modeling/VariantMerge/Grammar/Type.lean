import VariantMerge.Grammar.Basic

/-!
# The grammar of attributes, paths and types

`Parser.ty` reads a type, `Parser.path` a path with its arguments, `Parser.bound` one bound, and
`Parser.attributes` the attributes in front of a declaration. Each takes the grammar for the parts
inside.
-/

namespace VariantMerge

namespace Parser

/-! ## Attributes, blocks and visibilities -/

/-- Whether a word of a plain path comes first. -/
def startsPlainPath (trees : List Tree) : Bool :=
  startsName trees || startsPathKeyword trees

/-- A path of plain words. -/
def plainPath : Parser (Bool × List String) := do
  let leading ← op? "::"
  if ← looks fun trees => !startsPlainPath trees then fail
  let (names, trailing) ← sepWhile (fun trees => !startsPlainPath trees) "::" anyWord
  if trailing then fail
  return (leading, names)

/-- The value of an attribute. A single literal is remembered as such. -/
def attributeValue (g : Grammar) : Parser AttributeContent := do
  match literal? (← ahead) with
  | some (text, []) =>
    moveTo []
    return .value (literalTokens text) (some text)
  | _ =>
    if ← looks fun trees => startsOp "#" trees && startsGroup .bracket (trees.drop 1) then fail
    let trees ← ahead
    let tokens ← g.expr true
    match trees, tokens with
    | tree :: _, [.word text] =>
      return .value tokens (if startsLiteral [tree] then some text else none)
    | _, _ => return .value tokens none

/-- The path and arguments of an attribute. -/
def attributeMeta (g : Grammar) (inner : Bool) : Parser Attribute := do
  let (leading, path) ← (do
    if ← keyword? "unsafe" then return (false, ["unsafe"]) else plainPath)
  match ← ahead with
  | .group _ _ delimiter trees :: rest =>
    moveTo rest
    return ⟨inner, leading, path, .list delimiter trees⟩
  | trees =>
    if startsOpNot "=" ["=="] trees then
      op "="
      return ⟨inner, leading, path, ← attributeValue g⟩
    else return ⟨inner, leading, path, .none⟩

def outerAttribute (g : Grammar) : Parser Attribute := do
  op "#"
  group .bracket (attributeMeta g false)

def innerAttribute (g : Grammar) : Parser Attribute := do
  op "#"
  op "!"
  group .bracket (attributeMeta g true)

/-- The attributes in front of a declaration. -/
def attributes (g : Grammar) : Parser (List Attribute) :=
  many (startsOp "#") (outerAttribute g)

/-- The attributes at the beginning of a body. -/
def innerAttributes (g : Grammar) : Parser (List Attribute) :=
  many (fun trees => startsOp "#" trees && startsOp "!" (trees.drop 1)) (innerAttribute g)

/-- A block in its braces, which may start with attributes of its own. -/
def block (g : Grammar) : Parser Token := do
  let inside ← group .brace do
    let inner := Attribute.innerTokens (← innerAttributes g)
    return inner ++ (← g.statements)
  return .group .brace inside

/-- A visibility. Parentheses after `pub` belong to it only if they hold a restriction. -/
def visibility : Parser Visibility := do
  if ← keyword? "pub" then
    match ← ahead with
    | .group _ closeLine .paren inner :: rest =>
      match inner with
      | [.ident _ name] =>
        if ["crate", "self", "super"].contains name then
          moveTo rest
          return .restricted false false [name]
        else return .everywhere
      | .ident _ "in" :: path =>
        let (leading, names) ← within path closeLine plainPath
        moveTo rest
        return .restricted true leading names
      | _ => return .everywhere
    | _ => return .everywhere
  else return .inherited

/-! ## Generic parameters -/

/-- Whether generic parameters come first, and not a path that starts at a type. -/
def startsGenerics (trees : List Tree) : Bool :=
  let second := trees.drop 1
  let third := trees.drop 2
  startsOp "<" trees &&
    (startsOp ">" second || startsOp "#" second || startsWord "const" second ||
      ((startsLifetime second || startsName second) &&
        (startsOp ">" third || startsOp "," third || startsOpNot ":" ["::"] third ||
          startsOp "=" third)))

/-- Whether what may follow a list of bounds comes first. -/
def endsBounds (trees : List Tree) : Bool :=
  trees.isEmpty || startsGroup .brace trees || startsOp "," trees || startsOp ";" trees ||
    startsOpNot ":" ["::"] trees || startsOp "=" trees

/-- A lifetime parameter after its attributes. -/
def lifetimeParam (attributes : List Attribute) : Parser LifetimeParam := do
  let name ← lifetime
  if ← op? ":" then
    let (bounds, trailing) ←
      sepWhile (fun trees => startsOp "," trees || startsOp ">" trees) "+" lifetime
    return ⟨Attribute.outerTokens attributes, name, bounds, trailing⟩
  else return ⟨Attribute.outerTokens attributes, name, [], false⟩

/-- The parameters quantified over by `for`, if that comes first. -/
def binder? (g : Grammar) : Parser (Option Binder) := do
  if ← keyword? "for" then
    op "<"
    let (params, trailing) ← sepUntil (startsOp ">") "," do
      return (← g.param).tokens.2
    op ">"
    return some ⟨params, trailing⟩
  else return none

/-! ## Bounds -/

/-- The result type after an arrow, if one comes first. -/
def output? (g : Grammar) (allowPlus : Bool) : Parser (Option Ty) := do
  if ← op? "->" then
    return some (← g.ty allowPlus)
  else return none

/-- The argument list of a bound on a function, in parentheses. -/
def parenArguments (g : Grammar) : Parser Arguments := do
  let (inputs, trailing) ← group .paren (commaList (g.ty true))
  return .paren inputs trailing (← output? g false)

/-- The places where bounds stand, which differ in the forms of bounds that they admit. -/
inductive BoundPlace where
  /-- A type that is any value of a trait, and a name that stands for several traits. -/
  | object
  /-- Parameters, conditions, and what traits and types require. -/
  | declaration
  /-- A type that is one type with a trait. -/
  | implTrait
  deriving DecidableEq, Repr

/-- Whether a trait may be marked to count for constants. -/
def BoundPlace.admitsConst (place : BoundPlace) : Bool := place ≠ .object

/-- Whether captured parameters may be listed. -/
def BoundPlace.admitsCapture (place : BoundPlace) : Bool := place = .implTrait

/-- Takes the marker of a trait that counts for constants, `const` or `[const]`, if it comes first
and may stand here. -/
def constMarker? (place : BoundPlace) : Parser Bool := do
  let before ← get
  let isBracketed ← looks (startsGroup .bracket)
  if isBracketed then group .bracket (keyword "const")
  let isMarked ← (if isBracketed then pure true else keyword? "const")
  if isMarked && !place.admitsConst then
    set before
    fail
  return isMarked

/-- A bound by a trait, and whether it is marked to count for constants. Only a bound that is not
relaxed can quantify over parameters. -/
def traitBound (g : Grammar) (place : BoundPlace) (parens : Bool) : Parser (Bool × Bound) := do
  let binder ← binder? g
  let isConst ← constMarker? place
  let atSign ← get
  let maybe ← op? "?"
  let late ← (if maybe && binder.isNone then binder? g else pure none)
  let path ← g.path false
  let callable := path.segments.getLast?.any (·.arguments.isEmpty)
  let path ← (do
    if callable && (← looks fun trees => startsGroup .paren trees ||
        (startsOp "::" trees && startsGroup .paren (trees.drop 2))) then
      let _ ← op? "::"
      return path.withArguments (← parenArguments g)
    else return path)
  if maybe && (binder.isSome || late.isSome) then
    set atSign
    fail
  return (isConst, .trait parens maybe binder path)

/-- The generic parameters that a type captures. -/
def capture : Parser Bound := do
  keyword "use"
  op "<"
  let (params, trailing) ← sepUntil (startsOp ">") "," do
    if ← looks startsLifetime then return (true, [Token.lifetime (← lifetime)])
    else if ← looks (startsWord "Self") then return (false, [Token.word (← anyWord)])
    else return (false, [Token.word (← name)])
  op ">"
  return .capture params trailing

/-- One bound. A marked one is passed on as it was written. -/
def bound (g : Grammar) (place : BoundPlace) : Parser Bound := do
  let before ← get
  if ← looks startsLifetime then
    return .lifetime (← lifetime)
  else if ← looks (startsWord "use") then
    let read ← capture
    if !place.admitsCapture then
      set before
      fail
    return read
  else
    let (isConst, read) ← (do
      if ← looks (startsGroup .paren) then group .paren (traitBound g place true)
      else traitBound g place false)
    if isConst then return .other (← written before) else return read

/-- Whether another bound comes after a plus sign. -/
def startsBound (place : BoundPlace) (trees : List Tree) : Bool :=
  startsAnyWord trees || startsOp "::" trees || startsOp "?" trees || startsLifetime trees ||
    startsGroup .paren trees || (place.admitsConst && startsGroup .bracket trees)

def boundsFrom (g : Grammar) (place : BoundPlace) (allowPlus : Bool) :
    Nat → Parser (List Bound × Bool)
  | 0 => fail
  | rounds + 1 => do
    let first ← bound g place
    if allowPlus && (← looks (startsOp "+")) then
      op "+"
      if ← looks (startsBound place) then
        let (rest, trailing) ← boundsFrom g place allowPlus rounds
        return (first :: rest, trailing)
      else return ([first], true)
    else return ([first], false)

/-- One or more bounds joined by plus signs, of which one at least is a trait. If none is, the
mistake lies where the whole type started. -/
def bounds (g : Grammar) (place : BoundPlace) (allowPlus : Bool) (start : Cursor) :
    Parser (List Bound × Bool) := do
  let (read, trailing) ← boundsFrom g place allowPlus ((← ahead).length + 1)
  if !read.any Bound.isTrait then
    set start
    fail
  return (read, trailing)

/-- The bounds of a parameter or condition, which may be missing or end in a plus sign. -/
def looseBounds (g : Grammar) (stop : List Tree → Bool) : Parser (List Bound × Bool) :=
  sepWhile stop "+" (bound g .declaration)

/-! ## Paths -/

/-- A constant passed as an argument: a literal, a name or a block. -/
def constArgument (g : Grammar) : Parser (List Token) := do
  if ← looks startsLiteral then literal
  else if ← looks startsName then
    return [.word (← name)]
  else return [← block g]

/-- The single name, with its arguments, that a type consists of. -/
def soleSegment? : Ty → Option Segment
  | .path (.mk false [.mk name .none]) => some (.mk name .none)
  | .path (.mk false [.mk name (.angle turbofish arguments trailing)]) =>
    some (.mk name (.angle turbofish arguments trailing))
  | _ => none

/-- An argument between angle brackets. -/
def genericArg (g : Grammar) : Parser GenericArg := do
  if ← looks fun trees => startsLifetime trees && !startsOp "+" (trees.drop 1) then
    return .lifetime (← lifetime)
  else if ← looks fun trees => startsLiteral trees || startsGroup .brace trees then
    return .const (← constArgument g)
  else
    let ty ← g.ty true
    match soleSegment? ty with
    | none => return .type ty
    | some (.mk name arguments) =>
      if ← op? "=" then
        if ← looks fun trees => startsLiteral trees || startsGroup .brace trees then
          return .assocConst name arguments (← constArgument g)
        else return .assocType name arguments (← g.ty true)
      else if ← op? ":" then
        let (read, trailing) ←
          looseBounds g fun trees => startsOp "," trees || startsOp ">" trees
        return .constraint name arguments read trailing
      else return .type ty

/-- Arguments between angle brackets. -/
def angleArguments (g : Grammar) : Parser Arguments := do
  let turbofish ← op? "::"
  op "<"
  let (arguments, trailing) ← sepUntil (startsOp ">") "," (genericArg g)
  op ">"
  return .angle turbofish arguments trailing

/-- One name of a path. In expressions, arguments need a double colon before them. -/
def segment (g : Grammar) (exprStyle : Bool) : Parser Segment := do
  if ← looks fun trees => ["super", "self", "crate", "try"].any (startsWord · trees) then
    return .mk (← anyWord) .none
  else
    let name ← (do if ← looks (startsWord "Self") then anyWord else name)
    if ← looks fun trees =>
        (!exprStyle && startsOpNot "<" ["<=", "<<="] trees) ||
          (startsOp "::" trees && startsOp "<" (trees.drop 2)) then
      return .mk name (← angleArguments g)
    else return .mk name .none

/-- The names that follow in a path, each after a double colon. -/
def segments (g : Grammar) (exprStyle : Bool) (goesOn : List Tree → Bool) :
    Parser (List Segment) := do
  many goesOn do
    op "::"
    segment g exprStyle

/-- A path. A double colon before parentheses belongs to what they hold. -/
def path (g : Grammar) (exprStyle : Bool) : Parser Path := do
  let leading ← op? "::"
  let first ← segment g exprStyle
  let rest ← segments g exprStyle fun trees =>
    startsOp "::" trees && !startsGroup .paren (trees.drop 2)
  return .mk leading (first :: rest)

/-- A path, which may start at a type: `<T as Trait>::Name`. -/
def qualifiedPath (g : Grammar) (exprStyle : Bool) : Parser Ty := do
  if ← op? "<" then
    let self ← g.ty true
    let interface ← (do
      if ← keyword? "as" then return some (← g.path false) else return none)
    op ">"
    op "::"
    let first ← segment g exprStyle
    return .qualified self interface (first :: (← segments g exprStyle (startsOp "::")))
  else return .path (← path g exprStyle)

/-! ## Types -/

/-- What follows the first bound of a list that a type turned out to be. -/
def moreBounds (g : Grammar) (loose : Bool) : Nat → Parser (List Bound × Bool)
  | 0 => fail
  | rounds + 1 => do
    if ← op? "+" then
      if loose && !(← looks (startsBound .object)) then return ([], true)
      let next ← bound g .object
      let (rest, trailing) ← moreBounds g loose rounds
      return (next :: rest, trailing)
    else return ([], false)

/-- The bound that a type in parentheses is when a plus sign follows it. -/
def parenBound? : Ty → Option Bound
  | .path path => some (.trait true false none path)
  | .object false [.trait _ maybe binder path] false => some (.trait true maybe binder path)
  | .object false [.lifetime name] false => some (.lifetime name)
  | .object false [.other tokens] false => some (.other tokens)
  | _ => none

/-- What parentheses at the front of a type hold. -/
inductive ParenType where
  | ty (ty : Ty)
  | bound (bound : Bound)

def insideParens (g : Grammar) : Parser ParenType := do
  if ← atEnd then
    return .ty (.tuple [] false)
  else if ← looks startsLifetime then
    let (read, trailing) ← bounds g .object true (← get)
    return .ty (.paren (.object false read trailing))
  else if ← looks (startsOp "?") then
    return .bound (← traitBound g .object true).2
  else
    let first ← g.ty true
    if ← op? "," then
      let (rest, trailing) ← commaList (g.ty true)
      return .ty (.tuple (first :: rest) trailing)
    else return .ty (.paren first)

/-- A type that starts with parentheses. -/
def parenType (g : Grammar) (allowPlus : Bool) : Parser Ty := do
  let rounds := (← ahead).length + 1
  match ← group .paren (insideParens g) with
  | .bound first =>
    let (rest, trailing) ← moreBounds g false rounds
    return .object false (first :: rest) trailing
  | .ty (.paren inner) =>
    match parenBound? inner with
    | some first =>
      if allowPlus && (← looks (startsOp "+")) then
        let (rest, trailing) ← moreBounds g false rounds
        return .object false (first :: rest) trailing
      else return .paren inner
    | none => return .paren inner
  | .ty ty => return ty

/-- One parameter of a function type after its attributes. Only the first can be called `self`, and
a changeable one is passed on as it was written. -/
def fnParam (g : Grammar) (attrs : List Token) (first : Bool) : Parser FnParam := do
  let before ← get
  if ← looks fun trees =>
      first && startsWord "mut" trees && startsWord "self" (trees.drop 1) then
    keyword "mut"
    keyword "self"
    if ← looks (startsOpNot ":" ["::"]) then
      op ":"
      let _ ← g.ty true
    return .mk attrs none (.other (← written before))
  else if ← looks fun trees =>
      (startsName trees || startsWord "_" trees || (first && startsWord "self" trees)) &&
        startsOpNot ":" ["::"] (trees.drop 1) then
    let name ← anyWord
    op ":"
    if ← looks fun trees => first && name != "self" &&
        startsWord "mut" trees && startsWord "self" (trees.drop 1) then
      keyword "mut"
      keyword "self"
      return .mk attrs none (.other (← written before))
    else return .mk attrs (some name) (← g.ty true)
  else return .mk attrs none (← g.ty true)

/-- Whether a parameter for any number of arguments comes first, with or without a name. -/
def startsVariadic (trees : List Tree) : Bool :=
  startsOp "..." trees ||
    ((startsName trees || startsWord "_" trees) && startsOp ":" (trees.drop 1) &&
      startsOp "..." (trees.drop 2))

/-- A parameter for any number of arguments. -/
def variadic : Parser (List Token) := do
  if ← op? "..." then return [.op "..."]
  let name ← anyWord
  op ":"
  op "..."
  return [.word name, .op ":", .op "..."]

def fnParamsFrom (g : Grammar) (first : Bool) : Nat → Parser (List FnParam × Bool × List Token)
  | 0 => fail
  | rounds + 1 => do
    if ← atEnd then return ([], true, [])
    let attrs := Attribute.outerTokens (← attributes g)
    if ← looks startsVariadic then
      let last ← variadic
      let comma ← op? ","
      return ([], true, attrs ++ last ++ if comma then [.op ","] else [])
    else
      let param ← fnParam g attrs first
      if ← atEnd then return ([param], false, [])
      op ","
      let (rest, trailing, last) ← fnParamsFrom g false rounds
      return (param :: rest, trailing, last)

/-- The parameters of a function type, of which the last may take any number of arguments. -/
def fnParams (g : Grammar) : Parser (List FnParam × Bool × List Token) := do
  fnParamsFrom g true ((← ahead).length + 1)

/-- The calling convention, if one comes first. -/
def abi? : Parser (Option Abi) := do
  if ← keyword? "extern" then
    return some ⟨← stringLiteral?⟩
  else return none

/-- A function type after the lifetimes that it quantifies over. -/
def fnPointer (g : Grammar) (binder : Option Binder) : Parser Ty := do
  let isUnsafe ← keyword? "unsafe"
  let abi ← abi?
  keyword "fn"
  let (params, trailing, last) ← group .paren (fnParams g)
  return .fnPointer binder isUnsafe abi params trailing last (← output? g false)

/-- A type that starts with a path. -/
def pathType (g : Grammar) (allowPlus : Bool) (binder : Option Binder) : Parser Ty := do
  match ← qualifiedPath g false with
  | .path path =>
    if path.isPlain && (← looks (startsOpNot "!" ["!="])) then
      op "!"
      return .macroCall path (← anyGroup)
    else if binder.isSome || (allowPlus && (← looks (startsOp "+"))) then
      let (rest, trailing) ←
        (if allowPlus then do moreBounds g true ((← ahead).length + 1) else pure ([], false))
      return .object false (.trait false false binder path :: rest) trailing
    else return .path path
  | ty => return ty

/-- Whether a path comes first, which may start at a type. -/
def startsPath (trees : List Tree) : Bool :=
  startsName trees || startsPathKeyword trees || startsOp "::" trees || startsOp "<" trees

/-- Whether a function type comes first. -/
def startsFnPointer (trees : List Tree) : Bool :=
  ["fn", "unsafe", "extern"].any (startsWord · trees)

/-- Whether a construct comes first that only the language itself defines. -/
def startsBuiltin (trees : List Tree) : Bool :=
  startsWord "builtin" trees && startsOp "#" (trees.drop 1)

/-- Takes a construct that only the language itself defines: its name and arguments. -/
def builtin : Parser Unit := do
  keyword "builtin"
  op "#"
  let _ ← name
  if ← looks (startsGroup .paren) then
    let _ ← anyGroup
  else fail

/-- A type that starts with a name, a keyword of a path or a function type, and may quantify over
parameters. -/
def namedType (g : Grammar) (allowPlus : Bool) (before : Cursor) (binder : Option Binder) :
    Parser Ty := do
  if ← looks startsFnPointer then fnPointer g binder
  else if ← looks startsBuiltin then
    builtin
    return .other (← written before)
  else pathType g allowPlus binder

/-- A type. -/
def ty (g : Grammar) (allowPlus : Bool) : Parser Ty := do
  let before ← get
  let binder ← binder? g
  if binder.isSome then
    let isNamed ← looks fun trees =>
      startsFnPointer trees || startsName trees || startsPathKeyword trees
    if isNamed then namedType g allowPlus before binder
    else fail
  else if ← looks (startsGroup .paren) then parenType g allowPlus
  else if ← looks fun trees => startsFnPointer trees || startsPath trees then
    namedType g allowPlus before none
  else if ← keyword? "dyn" then
    let star ← op? "*"
    let (read, trailing) ← bounds g .object allowPlus before
    if star then return .other (← written before) else return .object true read trailing
  else if ← looks (startsGroup .bracket) then
    group .bracket do
      let element ← g.ty true
      if ← op? ";" then
        return .array element (← g.expr true)
      else return .slice element
  else if ← op? "*" then
    let isMut ← keyword? "mut"
    if !isMut then keyword "const"
    return .pointer isMut (← g.ty false)
  else if ← op? "&" then
    let lifetime ← lifetime?
    let isMut ← keyword? "mut"
    return .reference lifetime isMut (← g.ty false)
  else if ← op? "!" then return .never
  else if ← keyword? "impl" then
    let (read, trailing) ← bounds g .implTrait allowPlus before
    return .implTrait read trailing
  else if ← keyword? "_" then
    return .infer
  else if ← looks startsLifetime then
    let (read, trailing) ← bounds g .object allowPlus before
    return .object false read trailing
  else fail

end Parser

end VariantMerge
