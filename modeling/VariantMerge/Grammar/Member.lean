import VariantMerge.Grammar.Signature

/-!
# The grammar of members

What the bodies of traits and implementations hold: constants, types, functions and macro calls. A
member in a form that only its tokens can show is passed on as it was written.
-/

namespace VariantMerge

namespace Parser

/-! ## Members of traits and implementations -/

/-- A value after an equals sign, if there is one. -/
def value? (g : Grammar) : Parser (Option (List Token)) := do
  if ← op? "=" then return some (← g.expr true) else return none

/-- A constant or a type as it was declared, without what stands before it. -/
structure Declaration where
  name : String
  tokens : List Token
  /-- Whether it has what its kind of declaration does not have everywhere: parameters or conditions
  of a constant, bounds of a type. -/
  isExtended : Bool
  /-- Whether it says what the name stands for. -/
  isDefined : Bool

/-- A constant, which may have parameters and conditions. -/
def constant (g : Grammar) : Parser Declaration := do
  keyword "const"
  let name ← (do if ← looks (startsWord "_") then anyWord else name)
  let isGeneric ← looks (startsOp "<")
  let _ ← generics g
  op ":"
  let ty ← g.ty true
  let value ← value? g
  let conditions ← whereClause? g
  op ";"
  return {
    name
    tokens := .word "const" :: .word name :: .op ":" :: ty.tokens ++
      (match value with
      | none => []
      | some value => .op "=" :: value) ++ [.op ";"]
    isExtended := isGeneric || conditions.isSome
    isDefined := value.isSome }

/-- Where the conditions of a type stand: before what it is defined as, or after it. -/
inductive ConditionPlace where
  | early
  | late
  | either
  deriving DecidableEq, Repr

/-- A type, which may have bounds and a definition. -/
def typeDeclaration (g : Grammar) (place : ConditionPlace) : Parser Declaration := do
  keyword "type"
  let name ← name
  let params ← generics g
  let hasBounds ← op? ":"
  let (read, trailing) ← (do
    if hasBounds then
      looseBounds g fun trees =>
        startsWord "where" trees || startsOp "=" trees || startsOp ";" trees
    else return ([], false))
  let bounds := if read.isEmpty then [] else
    Token.op ":" :: Token.separated "+" trailing (boundsEach read)
  let early ← (do if place = .late then return none else whereClause? g)
  let definition ← (do
    if ← op? "=" then return Token.op "=" :: (← g.ty true).tokens else return [])
  let late ← (do if place = .early || early.isSome then return none else whereClause? g)
  op ";"
  return {
    name
    tokens := .word "type" :: .word name :: params.tokens ++ bounds ++
      WhereClause.tokens? early ++ definition ++ WhereClause.tokens? late ++ [.op ";"]
    isExtended := hasBounds
    isDefined := !definition.isEmpty }

/-- The tokens of a macro call that stands as a declaration, which can be allowed to have a name.
One without braces ends with a semicolon. -/
def macroItem (mayBeNamed : Bool) : Parser (List Token) := do
  let (leading, names) ← plainPath
  op "!"
  let name ← (do
    if mayBeNamed && (← looks fun trees => startsName trees || startsWord "try" trees) then
      return [Token.word (← anyWord)]
    else return [])
  let arguments ← anyGroup
  let ending ← (do
    match arguments with
    | .group .brace _ => return []
    | _ =>
      op ";"
      return [Token.op ";"])
  return Attribute.pathTokens leading names ++ .op "!" :: name ++ arguments :: ending

/-- The tokens of a macro call that stands as a member. Only attributes can be before it. -/
def memberMacro (visible : Visibility) (isDefault : Bool) : Parser (List Token) :=
  match visible, isDefault with
  | .inherited, false => macroItem false
  | _, _ => fail

/-- A method of a trait after its attributes. -/
def traitMethod (g : Grammar) (attrs : List Attribute) : Parser TraitEntry := do
  let head ← signature g
  if ← op? ";" then
    return .method attrs head none
  else
    let (inner, stmts) ← body g g.statements
    return .method (attrs ++ inner) head (some stmts)

/-- A member of a trait. One with a visibility or a default marker is only passed by. -/
def traitEntry (g : Grammar) : Parser TraitEntry := do
  let before ← get
  let attrs ← attributes g
  let outer := Attribute.outerTokens attrs
  let visible ← visibility
  let isDefault ← keyword? "default"
  let trees ← ahead
  let entry ← (do
    if startsSignature trees then traitMethod g attrs
    else if startsWord "const" trees then
      let read ← constant g
      if read.isExtended then return .other (← written before)
      else return .assocConst read.name (outer ++ read.tokens)
    else if startsWord "type" trees then
      let read ← typeDeclaration g .late
      return .assocType read.name (outer ++ read.tokens)
    else return .other (outer ++ (← memberMacro visible isDefault)))
  match visible, isDefault with
  | .inherited, false => return entry
  | _, _ => return .other (← written before)

/-- The tokens of a member of an implementation. -/
def implMember (g : Grammar) : Parser (List Token) := do
  let before ← get
  let attrs ← attributes g
  let outer := Attribute.outerTokens attrs
  let visible ← visibility
  let isDefault ← looks fun trees => startsWord "default" trees && !startsOp "!" (trees.drop 1)
  if isDefault then keyword "default"
  let head := outer ++ visible.tokens ++ Token.keywordIf isDefault "default"
  let trees ← ahead
  if startsSignature trees then
    let sig ← signature g
    if ← op? ";" then written before
    else
      let (inner, stmts) ← body g g.statements
      return head ++ sig.tokens ++ [.group .brace (Attribute.innerTokens inner ++ stmts)]
  else if startsWord "const" trees then
    let read ← constant g
    if read.isExtended || !read.isDefined then written before else return head ++ read.tokens
  else if startsWord "type" trees then
    let read ← typeDeclaration g .late
    if read.isExtended || !read.isDefined then written before else return head ++ read.tokens
  else return head ++ (← memberMacro visible isDefault)

end Parser

end VariantMerge
