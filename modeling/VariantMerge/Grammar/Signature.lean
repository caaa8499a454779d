import VariantMerge.Grammar.Expr

/-!
# The grammar of signatures

Generic parameters with their conditions, the inputs of functions, and the heads of functions.
-/

namespace VariantMerge

namespace Parser

/-! ## Generic parameters and conditions -/

/-- One generic parameter after its attributes. -/
def genericParam (g : Grammar) (attrs : List Attribute) : Parser GenericParam := do
  let outer := Attribute.outerTokens attrs
  if ← looks startsLifetime then
    return .lifetime (← lifetimeParam attrs)
  else if ← keyword? "const" then
    let name ← name
    op ":"
    let ty ← g.ty true
    let default ← (do if ← op? "=" then return some (← constArgument g) else return none)
    return .const outer name ty default
  else
    let name ← name
    let (read, trailing) ← (do
      if ← op? ":" then
        looseBounds g fun trees => startsOp "," trees || startsOp ">" trees || startsOp "=" trees
      else return ([], false))
    let default ← (do if ← op? "=" then return some (← g.ty true) else return none)
    return .type outer name read trailing default

/-- One generic parameter that a binder quantifies over. -/
def boundParam (g : Grammar) : Parser GenericParam := do
  genericParam g (← attributes g)

/-- One generic parameter of a declaration, which may be left without a name. -/
def declaredParam (g : Grammar) : Parser GenericParam := do
  let attrs ← attributes g
  if ← keyword? "_" then return .type (Attribute.outerTokens attrs) "_" [] false none
  else genericParam g attrs

/-- The generic parameters of a declaration, which may be missing. -/
def generics (g : Grammar) : Parser Generics := do
  if ← op? "<" then
    let (params, trailing) ← sepUntil (startsOp ">") "," (declaredParam g)
    op ">"
    return ⟨params, trailing, none⟩
  else return .none

/-- One condition. -/
def wherePredicate (g : Grammar) : Parser WherePredicate := do
  if ← looks fun trees => startsLifetime trees && startsOp ":" (trees.drop 1) then
    let name ← lifetime
    op ":"
    let (read, trailing) ← sepWhile endsBounds "+" lifetime
    return .lifetime name read trailing
  else
    let binder ← binder? g
    let ty ← g.ty true
    op ":"
    let (read, trailing) ← looseBounds g endsBounds
    return .type binder ty read trailing

/-- The conditions after `where`, if that comes first. It cannot have parameters of its own. -/
def whereClause? (g : Grammar) : Parser (Option WhereClause) := do
  if ← keyword? "where" then
    if ← looks startsGenerics then fail
    let (predicates, trailing) ← sepWhile endsBounds "," (wherePredicate g)
    return some ⟨predicates, trailing⟩
  else return none

/-! ## Functions -/

/-- Whether the receiver of a method comes first, whatever its type may be. A path that starts at
`self` is no receiver. -/
def startsReceiver (trees : List Tree) : Bool :=
  let isSelf (trees : List Tree) : Bool :=
    startsWord "self" trees && !startsOp "::" (trees.drop 1)
  let afterMut (trees : List Tree) : Bool :=
    isSelf (if startsWord "mut" trees then trees.drop 1 else trees)
  if startsOp "&" trees then
    afterMut (if startsLifetime (trees.drop 1) then trees.drop 2 else trees.drop 1)
  else afterMut trees

/-- A receiver after its attributes. Only one that is taken by value can have a type, and only the
first input can be one: the mistake of any other lies at its word `self`. -/
def receiver (g : Grammar) (attrs : List Attribute) (first : Bool) : Parser Receiver := do
  let reference ← (do if ← op? "&" then return some (← lifetime?) else return none)
  let isMut ← keyword? "mut"
  let atSelf ← get
  keyword "self"
  let ty ← (do
    if reference.isNone && (← op? ":") then return some (← g.ty true) else return none)
  if !first then
    set atSelf
    fail
  return ⟨attrs, reference, isMut, ty⟩

/-- What a function's parentheses hold. -/
structure Inputs where
  inputs : List FnInput
  trailing : Bool
  variadic : Option (List Token)

/-- The comma after the last parameter, which nothing follows. -/
def lastComma : Parser (List Token) := do
  if ← atEnd then return []
  else
    op ","
    return [.op ","]

/-- A parameter after its attributes, or the tokens of one that takes any number of arguments. A
generic type may stand alone, without a pattern. -/
def typedInput (g : Grammar) (attrs : List Attribute) : Parser (FnInput ⊕ List Token) := do
  if ← looks fun trees => startsName trees && startsOp "<" (trees.drop 1) then
    return .inl (.typed attrs (.other [.word "_"]) (← g.ty true))
  else
    let pattern ← g.pattern
    op ":"
    if ← op? "..." then return .inr (pattern.tokens ++ [.op ":", .op "..."])
    else return .inl (.typed attrs pattern (← g.ty true))

/-- One input after its attributes. -/
def input (g : Grammar) (attrs : List Attribute) (first : Bool) :
    Parser (FnInput ⊕ List Token) := do
  if ← op? "..." then return .inr [.op "..."]
  else if ← looks startsReceiver then return .inl (.receiver (← receiver g attrs first))
  else typedInput g attrs

/-- The inputs of a function. -/
def inputsFrom (g : Grammar) (first : Bool) : Nat → Parser Inputs
  | 0 => fail
  | rounds + 1 => do
    if ← atEnd then return ⟨[], true, none⟩
    let attrs ← attributes g
    match ← input g attrs first with
    | .inr last =>
      return ⟨[], true, some (Attribute.outerTokens attrs ++ last ++ (← lastComma))⟩
    | .inl input =>
      if ← atEnd then return ⟨[input], false, none⟩
      op ","
      let rest ← inputsFrom g false rounds
      return ⟨input :: rest.inputs, rest.trailing, rest.variadic⟩

def inputs (g : Grammar) : Parser Inputs := do
  inputsFrom g true ((← ahead).length + 1)

/-- The head of a function, and whether it is marked as safe, which can be allowed. -/
def signatureWith (mayBeSafe : Bool) (g : Grammar) : Parser (Signature × Bool) := do
  let isConst ← keyword? "const"
  let isAsync ← keyword? "async"
  let isSafe ← (do if mayBeSafe then keyword? "safe" else return false)
  let isUnsafe ← (do if isSafe then return false else keyword? "unsafe")
  let abi ← abi?
  keyword "fn"
  let name ← name
  let params ← generics g
  let read ← group .paren (inputs g)
  let output ← output? g true
  let conditions ← whereClause? g
  return (⟨isConst, isAsync, isUnsafe, abi, name, { params with conditions }, read.inputs,
    read.trailing, read.variadic, output⟩, isSafe)

/-- The head of a function. -/
def signature (g : Grammar) : Parser Signature :=
  return (← signatureWith false g).1

/-- Whether a function's head comes first, which can be allowed to be marked as safe. -/
def startsSignatureWith (mayBeSafe : Bool) (trees : List Tree) : Bool :=
  let skip (word : String) (trees : List Tree) : List Tree :=
    if startsWord word trees then trees.drop 1 else trees
  let skipSafety (trees : List Tree) : List Tree :=
    if mayBeSafe && startsWord "safe" trees then trees.drop 1 else skip "unsafe" trees
  let afterAbi (trees : List Tree) : List Tree :=
    match trees with
    | .ident _ "extern" :: .literal _ _ :: rest => rest
    | .ident _ "extern" :: rest => rest
    | _ => trees
  startsWord "fn" (afterAbi (skipSafety (skip "async" (skip "const" trees))))

/-- Whether a function's head comes first. -/
def startsSignature (trees : List Tree) : Bool :=
  startsSignatureWith false trees

/-- The body of a declaration with the attributes at its beginning. -/
def body (g : Grammar) (inside : Parser α) : Parser (List Attribute × α) :=
  group .brace do
    let inner ← innerAttributes g
    return (inner, ← inside)

end Parser

end VariantMerge
