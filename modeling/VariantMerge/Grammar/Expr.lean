import VariantMerge.Grammar.Type
import VariantMerge.Token.Literal

/-!
# The grammar of patterns, expressions and statements

Expressions are only passed on, so their parsers give the tokens that an expression is written
with, and no tree: they find where an expression ends and which punctuation characters form one
operator. An expression is a row of operands with operators between them. How tightly these bind
matters only for what may stand in the row: comparisons cannot be chained, and a range cannot be an
operand on the left.
-/

namespace VariantMerge

namespace Parser

/-- The attributes in front, as tokens. -/
def attributeTokens (g : Grammar) : Parser (List Token) := do
  return Attribute.outerTokens (← attributes g)

/-- Comma-separated parts up to the end of the group, as tokens. -/
def commaTokens (part : Parser (List Token)) : Parser (List Token) := do
  let (parts, trailing) ← commaList part
  return Token.separated "," trailing parts

/-! ## Patterns -/

/-- Whether a bar comes first that divides alternatives. -/
def startsBar (trees : List Tree) : Bool :=
  startsOpNot "|" ["||", "|="] trees

/-- A pattern with alternatives, which may start with a bar. -/
def alternatives (g : Grammar) : Parser Pattern := do
  let leading ← looks startsBar
  if leading then op "|"
  let first ← g.pattern
  let rest ← many startsBar do
    op "|"
    return Token.op "|" :: (← g.pattern).tokens
  if leading then return .other (.op "|" :: first.tokens ++ rest.flatten)
  else if rest.isEmpty then return first
  else return .other (first.tokens ++ rest.flatten)

/-- The tokens of a pattern with alternatives. -/
def alternativeTokens (g : Grammar) : Parser (List Token) := do
  return (← alternatives g).tokens

/-- A bound of a range in a pattern. -/
def patternBound (g : Grammar) : Parser (List Token) := do
  if ← looks startsLiteral then literal
  else if ← looks startsPath then return (← qualifiedPath g true).tokens
  else
    keyword "const"
    return [.word "const", ← block g]

/-- Whether a range in a pattern ends here, without an upper bound. -/
def endsPatternRange (trees : List Tree) : Bool :=
  trees.isEmpty || startsOp "|" trees || startsOp "=" trees || startsOpNot ":" ["::"] trees ||
    startsOp "," trees || startsOp ";" trees || startsWord "if" trees

/-- What goes on from the lower bound of a range in a pattern, which may be missing. Three dots mean
a range with its upper bound, which then has to be there. -/
def patternRange (g : Grammar) (lower : List Token) : Parser Pattern := do
  let isClosed ← (do if ← op? "..=" then return true else op? "...")
  if !isClosed then op ".."
  let dots := Token.op (if isClosed then "..=" else "..")
  if ← looks endsPatternRange then
    if isClosed then fail
    return if lower.isEmpty then .other [dots] else .openRange (lower ++ [dots])
  else
    let upper ← patternBound g
    return if lower.isEmpty then .openRange (dots :: upper) else .other (lower ++ dots :: upper)

/-- A pattern that is what these tokens say, or the range from there if dots follow. -/
def patternFrom (g : Grammar) (lower : List Token) : Parser Pattern := do
  if ← looks (startsOp "..") then patternRange g lower else return .other lower

/-- What names a member of a struct or tuple. A number is written in its shortest form. -/
def member : Parser Token := do
  match ← ahead with
  | .literal _ text :: rest =>
    match Literal.memberNumber? text.toList with
    | some number =>
      moveTo rest
      return .word number
    | none => fail
  | _ => return .word (← name)

/-- A field of a struct pattern after its attributes. Only a name can stand for itself. -/
def fieldPattern (g : Grammar) : Parser (List Token) := do
  let boxed ← keyword? "box"
  let byRef ← keyword? "ref"
  let isMut ← keyword? "mut"
  if boxed || byRef || isMut then
    return Token.keywordIf boxed "box" ++ Token.keywordIf byRef "ref" ++
      Token.keywordIf isMut "mut" ++ [.word (← name)]
  else
    let isNamed ← looks startsName
    let member ← member
    if isNamed && !(← looks (startsOp ":")) then return [member]
    else
      op ":"
      return member :: .op ":" :: (← alternativeTokens g)

/-- The inside of a struct pattern: fields, and at the end perhaps the dots for all others. -/
def fieldPatternsFrom (g : Grammar) : Nat → Parser (List Token)
  | 0 => fail
  | rounds + 1 => do
    if ← atEnd then return []
    let attrs ← attributeTokens g
    if ← op? ".." then return attrs ++ [.op ".."]
    let field ← fieldPattern g
    if ← atEnd then return attrs ++ field
    op ","
    return attrs ++ field ++ .op "," :: (← fieldPatternsFrom g rounds)

/-- The inside of a struct pattern. -/
def fieldPatterns (g : Grammar) : Parser (List Token) := do
  fieldPatternsFrom g ((← ahead).length + 1)

/-- A pattern that starts with a path: a constant, a macro, a struct, a tuple or a range. -/
def pathPattern (g : Grammar) : Parser Pattern := do
  let path ← qualifiedPath g true
  if path.isPlainPath && (← looks (startsOpNot "!" ["!="])) then
    op "!"
    return .other (path.tokens ++ [.op "!", ← anyGroup])
  else if ← looks (startsGroup .brace) then
    return .other (path.tokens ++ [.group .brace (← group .brace (fieldPatterns g))])
  else if ← looks (startsGroup .paren) then
    let inside ← group .paren (commaTokens (alternativeTokens g))
    return .other (path.tokens ++ [.group .paren inside])
  else patternFrom g path.tokens

/-- A name that binds what it matches, perhaps against a pattern of its own. -/
def namePattern (g : Grammar) : Parser Pattern := do
  let byRef ← keyword? "ref"
  let isMut ← keyword? "mut"
  let name ← (do if ← looks (startsWord "self") then anyWord else name)
  let head := Token.keywordIf byRef "ref" ++ Token.keywordIf isMut "mut" ++ [.word name]
  if ← op? "@" then
    return .binding name (head ++ .op "@" :: (← g.pattern).tokens)
  else return .binding name head

/-- The trees from the first dots of a range on. -/
def dropToDots : List Tree → List Tree
  | [] => []
  | tree :: rest => if startsOp ".." (tree :: rest) then tree :: rest else dropToDots rest

/-- An element of a slice pattern. A range that lacks a bound cannot stand there by itself: the
mistake lies at its dots. -/
def sliceElement (g : Grammar) : Parser (List Token) := do
  let before ← get
  match ← alternatives g with
  | .openRange _ =>
    set { before with trees := dropToDots before.trees }
    fail
  | pattern => return pattern.tokens

/-- Whether what follows a name makes it the start of a path pattern. -/
def goesOnAsPath (trees : List Tree) : Bool :=
  startsOp "::" trees || startsOp "!" trees || startsGroup .brace trees ||
    startsGroup .paren trees || startsOp ".." trees

/-- A pattern without alternatives. One in a box is passed on as it was written. -/
def pattern (g : Grammar) : Parser Pattern := do
  let before ← get
  let trees := before.trees
  if (startsName trees && goesOnAsPath (trees.drop 1)) ||
      (startsWord "self" trees && startsOp "::" (trees.drop 1)) ||
      startsOp "::" trees || startsOp "<" trees ||
      ["Self", "super", "crate"].any (startsWord · trees) then
    pathPattern g
  else if ← keyword? "_" then return .other [.word "_"]
  else if ← keyword? "box" then
    let _ ← g.pattern
    return .other (← written before)
  else if startsLiteral trees || startsWord "const" trees then
    patternFrom g (← patternBound g)
  else if startsWord "ref" trees || startsWord "mut" trees || startsWord "self" trees ||
      startsName trees then
    namePattern g
  else if ← op? "&" then
    let isMut ← keyword? "mut"
    return .other (.op "&" :: Token.keywordIf isMut "mut" ++ (← g.pattern).tokens)
  else if startsGroup .paren trees then
    return .other [.group .paren (← group .paren (commaTokens (alternativeTokens g)))]
  else if startsGroup .bracket trees then
    return .other [.group .bracket (← group .bracket (commaTokens (sliceElement g)))]
  else if startsOpNot ".." ["..."] trees then patternRange g []
  else fail

/-! ## Blocks and what is built from them -/

/-- A block in its braces that has no attributes of its own. -/
def bareBlock (g : Grammar) : Parser Token := do
  return .group .brace (← group .brace g.statements)

/-- The condition of `if` or `while`, or what `match` looks at: no struct literal may stand in it
by itself. -/
def condition (g : Grammar) : Parser (List Token) := g.expr false

/-- An `if` with its alternatives. -/
def ifChain (g : Grammar) : Nat → Parser (List Token)
  | 0 => fail
  | rounds + 1 => do
    keyword "if"
    let head := .word "if" :: (← condition g) ++ [← bareBlock g]
    if ← keyword? "else" then
      if ← looks (startsWord "if") then
        return head ++ .word "else" :: (← ifChain g rounds)
      else return head ++ [.word "else", ← bareBlock g]
    else return head

/-- Whether an expression comes first that is complete with its closing brace. -/
def startsBlockLike (trees : List Tree) : Bool :=
  ["if", "while", "loop", "match", "unsafe"].any (startsWord · trees) ||
    (startsWord "for" trees && !startsGenerics (trees.drop 1)) ||
    (["try", "const"].any (startsWord · trees) && startsGroup .brace (trees.drop 1)) ||
    startsGroup .brace trees || startsLifetime trees

/-- Whether an expression comes first that can have a label. -/
def startsLabelled (trees : List Tree) : Bool :=
  ["while", "for", "loop"].any (startsWord · trees) || startsGroup .brace trees

/-- Whether a member access or a question mark goes on with the expression before it. -/
def startsTrailer (trees : List Tree) : Bool :=
  startsOpNot "." [".."] trees || startsOp "?" trees

/-- Whether anything goes on with the operand before it: a member access, a question mark, a call
or an index. -/
def startsSuffix (trees : List Tree) : Bool :=
  startsTrailer trees || startsGroup .paren trees || startsGroup .bracket trees

/-- The body of a `match`. -/
def arm (g : Grammar) : Parser (List Token) := do
  let attrs ← attributeTokens g
  let pattern ← alternativeTokens g
  let guard ← (do
    if ← keyword? "if" then return Token.word "if" :: (← g.expr true) else return [])
  op "=>"
  let body ← g.statement
  let comma ← (do
    if body.isClosed then op? ","
    else if ← atEnd then return false
    else
      op ","
      return true)
  return attrs ++ pattern ++ guard ++ .op "=>" :: body.tokens ++ if comma then [.op ","] else []

/-- An expression that is complete with its closing brace, after its label. -/
def blockLikeBody (g : Grammar) : Parser (List Token) := do
  let trees ← ahead
  if startsWord "if" trees then ifChain g (trees.length + 1)
  else if ← keyword? "while" then
    return .word "while" :: (← condition g) ++ [← block g]
  else if ← keyword? "loop" then return [.word "loop", ← block g]
  else if ← keyword? "for" then
    let pattern ← alternativeTokens g
    keyword "in"
    return .word "for" :: pattern ++ .word "in" :: (← condition g) ++ [← block g]
  else if ← keyword? "match" then
    let subject ← condition g
    let arms ← group .brace do
      let inner := Attribute.innerTokens (← innerAttributes g)
      return inner ++ (← many (!·.isEmpty) (arm g)).flatten
    return .word "match" :: subject ++ [.group .brace arms]
  else if ← keyword? "try" then return [.word "try", ← bareBlock g]
  else if startsGroup .brace trees then return [← block g]
  else return [.word (← anyWord), ← block g]

/-- An expression that is complete with its closing brace. Loops and plain blocks can have a
label. -/
def blockLike (g : Grammar) : Parser (List Token) := do
  match ← lifetime? with
  | some label =>
    op ":"
    if !(← looks startsLabelled) then fail
    return .lifetime label :: .op ":" :: (← blockLikeBody g)
  | none => blockLikeBody g

/-! ## Operands -/

/-- Whether an expression comes first. -/
def startsExpr (trees : List Tree) : Bool :=
  (startsAnyWord trees && !startsWord "as" trees) || startsGroup .paren trees ||
    startsGroup .bracket trees || startsGroup .brace trees || startsLiteral trees ||
    startsOpNot "!" ["!="] trees || startsOpNot "-" ["-=", "->"] trees ||
    startsOpNot "*" ["*="] trees || startsOpNot "|" ["|="] trees ||
    startsOpNot "&" ["&="] trees || startsOp ".." trees || startsOpNot "<" ["<=", "<<="] trees ||
    startsOp "::" trees || startsLifetime trees || startsOp "#" trees

/-- The value that `return`, `yield` or `break` passes on, if there is one. -/
def passedValue (g : Grammar) : Parser (List Token) := do
  if ← looks startsExpr then g.expr true else return []

/-- Whether a range ends after two dots, without an upper bound. -/
def endsRange (allowStruct : Bool) (trees : List Tree) : Bool :=
  trees.isEmpty || startsOpNot "." [".."] trees || startsWord "as" trees ||
    (!allowStruct && startsGroup .brace trees) ||
    [",", ";", "?", "=", "+", "/", "%", "^", ">", "<=", "!=", "-=", "*=", "&=", "|=",
      "<<="].any (startsOp · trees)

/-- The dots of a range with its upper bound, which only two dots can lack. -/
def rangeEnd (g : Grammar) (allowStruct : Bool) : Parser (List Token) := do
  if ← looks (startsOp "...") then fail
  if ← op? "..=" then return .op "..=" :: (← g.exprFrom .logic allowStruct)
  op ".."
  if ← looks (endsRange allowStruct) then return [.op ".."]
  return .op ".." :: (← g.exprFrom .logic allowStruct)

/-- A field of a struct literal. Only a name can stand for its own value. -/
def fieldValue (g : Grammar) : Parser (List Token) := do
  let attrs ← attributeTokens g
  let isNamed ← looks startsName
  let member ← member
  if isNamed && !(← looks (startsOp ":")) then return attrs ++ [member]
  else
    op ":"
    return attrs ++ member :: .op ":" :: (← g.expr true)

/-- The inside of a struct literal: fields, and at the end perhaps the base that gives all
others. -/
def fieldValuesFrom (g : Grammar) : Nat → Parser (List Token)
  | 0 => fail
  | rounds + 1 => do
    if ← atEnd then return []
    if ← op? ".." then
      if ← atEnd then return [.op ".."]
      return .op ".." :: (← g.expr true)
    let field ← fieldValue g
    if ← atEnd then return field
    op ","
    return field ++ .op "," :: (← fieldValuesFrom g rounds)

/-- The inside of a struct literal. -/
def fieldValues (g : Grammar) : Parser (List Token) := do
  fieldValuesFrom g ((← ahead).length + 1)

/-- An expression that starts with a path: a name, a macro call or a struct literal. -/
def pathExpr (g : Grammar) (allowStruct : Bool) : Parser (List Token) := do
  let path ← qualifiedPath g true
  if path.isPlainPath && (← looks (startsOpNot "!" ["!="])) then
    op "!"
    return path.tokens ++ [.op "!", ← anyGroup]
  else if allowStruct && (← looks (startsGroup .brace)) then
    return path.tokens ++ [.group .brace (← group .brace (fieldValues g))]
  else return path.tokens

/-- A parameter of a closure. Attributes of a boxed pattern without a type are not kept. -/
def closureParam (g : Grammar) : Parser (List Token) := do
  let attrs ← attributeTokens g
  let isBoxed ← looks (startsWord "box")
  let pattern ← g.pattern
  if ← op? ":" then
    return attrs ++ pattern.tokens ++ .op ":" :: (← g.ty true).tokens
  else return (if isBoxed then [] else attrs) ++ pattern.tokens

/-- Whether a block comes first that is computed later. -/
def startsAsyncBlock (trees : List Tree) : Bool :=
  startsWord "async" trees && (startsGroup .brace (trees.drop 1) ||
    (startsWord "move" (trees.drop 1) && startsGroup .brace (trees.drop 2)))

/-- Whether a closure comes first. -/
def startsClosure (trees : List Tree) : Bool :=
  startsOp "|" trees || startsWord "move" trees || startsWord "static" trees ||
    (startsWord "for" trees && startsGenerics (trees.drop 1)) ||
    (startsWord "const" trees && !startsGroup .brace (trees.drop 1)) ||
    (startsWord "async" trees && !startsAsyncBlock trees)

/-- A closure. A result type asks for a body in braces. -/
def closure (g : Grammar) (allowStruct : Bool) : Parser (List Token) := do
  let binder ← binder? g
  let isConst ← keyword? "const"
  let isStatic ← keyword? "static"
  let isAsync ← keyword? "async"
  let moves ← keyword? "move"
  op "|"
  let (params, trailing) ← sepUntil (startsOp "|") "," (closureParam g)
  op "|"
  let head := Binder.tokens? binder ++ Token.keywordIf isConst "const" ++
    Token.keywordIf isStatic "static" ++ Token.keywordIf isAsync "async" ++
    Token.keywordIf moves "move" ++ .op "|" :: Token.separated "," trailing params ++ [.op "|"]
  match ← output? g true with
  | some ty => return head ++ .op "->" :: ty.tokens ++ [← bareBlock g]
  | none => return head ++ (← g.expr allowStruct)

/-- The inside of brackets: the elements of an array, or one of them and their count. -/
def arrayInside (g : Grammar) : Parser (List Token) := do
  if ← atEnd then return []
  let first ← g.expr true
  if ← atEnd then return first
  else if ← op? "," then return first ++ .op "," :: (← commaTokens (g.expr true))
  else
    op ";"
    return first ++ .op ";" :: (← g.expr true)

/-- Whether an operand comes first that is passed on as it was written. -/
def startsWritten (trees : List Tree) : Bool :=
  startsBuiltin trees || startsWord "become" trees

/-- An operand that is passed on as it was written: a construct that only the language itself
defines, or a call that replaces the one that is running. -/
def writtenAtom (g : Grammar) : Parser (List Token) := do
  let before ← get
  if ← keyword? "become" then
    let _ ← g.expr true
  else builtin
  written before

/-- The label that `break` leaves, if there is one. A loop with a label cannot be what it passes on:
the mistake lies at the label. -/
def breakLabel? (g : Grammar) : Parser (Option String) := do
  let before ← get
  let label ← lifetime?
  if label.isSome && (← looks (startsOp ":")) then
    set before
    let _ ← g.expr true
    set before
    fail
  return label

/-- An operand without anything before or after it. -/
def atom (g : Grammar) (allowStruct : Bool) : Parser (List Token) := do
  let trees ← ahead
  if startsLiteral trees then literal
  else if startsAsyncBlock trees then
    keyword "async"
    let moves ← keyword? "move"
    return .word "async" :: Token.keywordIf moves "move" ++ [← bareBlock g]
  else if startsClosure trees then closure g allowStruct
  else if startsBlockLike trees then blockLike g
  else if startsWritten trees then writtenAtom g
  else if startsGroup .paren trees then
    return [.group .paren (← group .paren (commaTokens (g.expr true)))]
  else if startsGroup .bracket trees then
    return [.group .bracket (← group .bracket (arrayInside g))]
  else if ← keyword? "return" then return .word "return" :: (← passedValue g)
  else if ← keyword? "yield" then return .word "yield" :: (← passedValue g)
  else if ← keyword? "break" then
    let label ← breakLabel? g
    let value ← (do
      if !allowStruct && (← looks (startsGroup .brace)) then return [] else passedValue g)
    return .word "break" :: Token.lifetime? label ++ value
  else if ← keyword? "continue" then return .word "continue" :: Token.lifetime? (← lifetime?)
  else if ← keyword? "let" then
    let pattern ← alternativeTokens g
    op "="
    return .word "let" :: pattern ++ .op "=" :: (← g.exprFrom .comparison allowStruct)
  else if ← keyword? "_" then return [.word "_"]
  else if startsPath trees || (startsWord "try" trees &&
      (startsOp "!" (trees.drop 1) || startsOp "::" (trees.drop 1))) then
    pathExpr g allowStruct
  else fail

/-- The signs and attributes in front of an operand. -/
def signs (g : Grammar) : Parser (List Token) := do
  let parts ← many (fun trees => ["#", "&", "*", "!", "-"].any (startsOp · trees)) do
    if ← looks (startsOp "#") then
      return (← outerAttribute g).tokens
    else if ← op? "&" then
      let raw ← looks fun trees => startsWord "raw" trees &&
        (startsWord "mut" (trees.drop 1) || startsWord "const" (trees.drop 1))
      if raw then
        keyword "raw"
        return [.op "&", .word "raw", .word (← anyWord)]
      else
        let isMut ← keyword? "mut"
        return .op "&" :: Token.keywordIf isMut "mut"
    else if ← op? "*" then return [.op "*"]
    else if ← op? "!" then return [.op "!"]
    else
      op "-"
      return [.op "-"]
  return parts.flatten

/-- The members that the parts of a number between its dots name, and whether its last part is
missing, so that a member has to follow: `0.1` names a member of a member. -/
def memberRow : List (List Char) → Option (List Token × Bool)
  | [] | [[]] => some ([], true)
  | [part] => (Literal.memberNumber? part).map fun number => ([.word number], false)
  | part :: rest =>
    match Literal.memberNumber? part, memberRow rest with
    | some number, some (row, goesOn) => some (.word number :: .op "." :: row, goesOn)
    | _, _ => none

/-- A member after a dot, or the call of a method, which can have arguments between angle brackets
as well. -/
def memberOrCall (g : Grammar) : Parser (List Token) := do
  if ← keyword? "await" then return [.word "await"]
  let isNamed ← looks startsName
  let member ← member
  if isNamed && (← looks (startsOp "::")) then
    let arguments ← angleArguments g
    let inside ← group .paren (commaTokens (g.expr true))
    return member :: arguments.tokens ++ [.group .paren inside]
  else return [member]

/-- What stands after a dot. A number can name several members in a row. -/
def afterDot (g : Grammar) : Parser (List Token) := do
  match ← ahead with
  | .literal _ text :: rest =>
    match memberRow (text.toList.splitOnP (· == '.')) with
    | some (row, goesOn) =>
      moveTo rest
      if goesOn then return row ++ (← memberOrCall g) else return row
    | none => fail
  | _ => memberOrCall g

/-- What follows an operand and belongs to it: calls, indices, members and question marks. -/
def trailer (g : Grammar) : Parser (List Token) := do
  let trees ← ahead
  if startsGroup .paren trees then
    return [.group .paren (← group .paren (commaTokens (g.expr true)))]
  else if startsGroup .bracket trees then
    return [.group .bracket (← group .bracket (g.expr true))]
  else if ← op? "?" then return [.op "?"]
  else
    op "."
    return .op "." :: (← afterDot g)

/-- All that follows an operand and belongs to it. -/
def trailers (g : Grammar) : Parser (List Token) := do
  return (← many startsSuffix (trailer g)).flatten

/-- The operators between two operands, the longer before their beginnings. -/
def binaryOps : List String :=
  ["<<=", ">>=", "&&", "||", "<<", ">>", "==", "!=", "<=", ">=", "+=", "-=", "*=", "/=", "%=",
   "^=", "&=", "|=", "+", "-", "*", "/", "%", "^", "&", "|", "<", ">", "="]

/-- The operator at the front, unless it is the arrow of an arm. -/
def binaryOp? (trees : List Tree) : Option String :=
  if startsOp "=>" trees then none else binaryOps.find? (startsOp · trees)

/-- Whether the last of these tokens end an attribute. -/
def endsAttribute (tokens : List Token) : Bool :=
  match tokens.getLast? with
  | some (.group _ _) => true
  | _ => false

/-- An operand with its signs and all that belongs to it, and whether it is a range without a lower
bound, which nothing can follow and which cannot have attributes. -/
def operand (g : Grammar) (allowStruct : Bool) : Parser (List Token × Bool) := do
  let before ← signs g
  let start ← get
  if startsOp ".." start.trees then
    let range ← rangeEnd g allowStruct
    if endsAttribute before then
      set start
      fail
    return (before ++ range, true)
  else
    let core ← atom g allowStruct
    let after ← trailers g
    if startsWritten start.trees then return (before ++ (← written start), false)
    else return (before ++ core ++ after, false)

/-- What goes on from an operand by operators that bind at least as tightly as `floor`, and whether
this makes the whole a range. After a comparison, another one cannot follow on the same level. -/
def operandsFrom (g : Grammar) (floor : Binding) (allowStruct compared : Bool) :
    Nat → Parser (List Token × Bool)
  | 0 => fail
  | rounds + 1 => do
    let trees ← ahead
    if ← keyword? "as" then
      let ty ← g.ty false
      if ← looks startsSuffix then fail
      let (rest, isRange) ← operandsFrom g floor allowStruct compared rounds
      return (.word "as" :: ty.tokens ++ rest, isRange)
    else if startsOp ".." trees then
      if Binding.range.rank < floor.rank then return ([], false)
      else return (← rangeEnd g allowStruct, true)
    else
      match binaryOp? trees with
      | none => return ([], false)
      | some operator =>
        let binding := Binding.ofOperator operator
        if binding.rank < floor.rank then return ([], false)
        if binding = .comparison && compared then fail
        op operator
        let (next, isLast) ← operand g allowStruct
        if isLast then return (.op operator :: next, false)
        let stillCompared := binding = .comparison || (binding = .arithmetic && compared)
        let (rest, isRange) ← operandsFrom g floor allowStruct stillCompared rounds
        return (.op operator :: next ++ rest, isRange && binding ≠ .assignment)

/-- What goes on from an operand that has been read, and whether it makes the whole a range. -/
def exprRest (g : Grammar) (floor : Binding) (allowStruct : Bool) : Parser (List Token × Bool) := do
  operandsFrom g floor allowStruct false ((← ahead).length + 1)

/-- An expression whose operators bind at least as tightly as `floor`. -/
def exprFrom (g : Grammar) (floor : Binding) (allowStruct : Bool) : Parser (List Token) := do
  let (first, isLast) ← operand g allowStruct
  if isLast then return first
  else return first ++ (← exprRest g floor allowStruct).1

/-- An expression where a statement or the body of an arm may stand. One that is complete with its
closing brace goes on only by a member or a question mark. -/
def statementExpr (g : Grammar) : Parser StatementExpr := do
  let attrs ← attributeTokens g
  if ← looks fun trees => startsBlockLike trees then
    let block ← blockLike g
    if ← looks startsTrailer then
      let after ← trailers g
      let (rest, isRange) ← exprRest g .assignment true
      return ⟨attrs ++ block ++ after ++ rest, false, isRange⟩
    else return ⟨attrs ++ block, true, false⟩
  else if ← looks (startsOp "..") then
    let range : StatementExpr := ⟨← rangeEnd g true, false, true⟩
    return ⟨range.withAttributes attrs, false, attrs.isEmpty⟩
  else
    let (first, isLast) ← operand g true
    if isLast then return ⟨attrs ++ first, false, false⟩
    else
      let (rest, isRange) ← exprRest g .assignment true
      return ⟨attrs ++ first ++ rest, false, isRange⟩

/-! ## Statements -/

/-- Whether tokens end with a closing brace. -/
def endsWithBrace (tokens : List Token) : Bool :=
  match tokens.getLast? with
  | some (.group .brace _) => true
  | _ => false

/-- A local binding. The block for a value that does not match cannot stand after another brace. -/
def localBinding (g : Grammar) (attrs : List Token) : Parser (List Token) := do
  keyword "let"
  let pattern ← g.pattern
  let ty ← (do
    if ← op? ":" then return Token.op ":" :: (← g.ty true).tokens else return [])
  let value ← (do
    if ← op? "=" then
      let value ← g.expr true
      if !endsWithBrace value && (← keyword? "else") then
        return Token.op "=" :: value ++ [.word "else", ← bareBlock g]
      else return Token.op "=" :: value
    else return [])
  op ";"
  return attrs ++ .word "let" :: pattern.tokens ++ ty ++ value ++ [.op ";"]

/-- Whether a macro call with a name comes first, which is a declaration. -/
def startsNamedMacro (trees : List Tree) : Bool :=
  match plainPath (Cursor.start trees) with
  | .error _ => false
  | .ok (_, after) =>
    let next := after.trees.drop 1
    startsOp "!" after.trees && (startsName next || startsWord "try" next)

/-- Whether a declaration comes first where a statement may stand. -/
def startsItem (trees : List Tree) : Bool :=
  let next := trees.drop 1
  let startsFunction (trees : List Tree) : Bool :=
    ["unsafe", "extern", "fn"].any (startsWord · trees)
  ["pub", "fn", "struct", "enum", "trait", "impl", "use", "mod", "type", "extern", "macro"].any
      (startsWord · trees) ||
    (startsWord "crate" trees && !startsOp "::" next) ||
    (startsWord "union" trees && startsName next) ||
    (startsWord "auto" trees && startsWord "trait" next) ||
    (startsWord "default" trees && ["unsafe", "impl"].any (startsWord · next)) ||
    (startsWord "unsafe" trees && !startsGroup .brace next) ||
    (startsWord "async" trees && startsFunction next) ||
    (startsWord "const" trees && !(startsGroup .brace next || startsWord "static" next ||
      startsWord "move" next || startsOp "|" next ||
      (startsWord "async" next && !startsFunction (trees.drop 2)))) ||
    (startsWord "static" trees && (startsWord "mut" next || startsName next)) ||
    startsNamedMacro trees

/-- Whether an expression is the call of the macro `try` with braces, which is a statement. -/
def isTryCall : List Token → Bool
  | [.word "try", .op "!", .group .brace _] => true
  | _ => false

/-- Whether a macro is called here with braces, as a statement of its own. -/
def macroStatement? (attrs : List Token) : Parser (Option (List Token)) := do
  match plainPath (← get) with
  | .error _ => return none
  | .ok ((leading, names), after) =>
    match after.trees with
    | .punct _ '!' _ :: .group _ _ .brace inner :: rest =>
      if startsTrailer rest then return none
      else
        moveTo rest
        return some (attrs ++ Attribute.pathTokens leading names ++
          [.op "!", .group .brace (Tree.tokens inner)])
    | _ => return none

/-- One statement. The last expression of a block needs no semicolon. -/
def statement (g : Grammar) : Parser (List Token) := do
  if ← op? ";" then
    return [.op ";"]
  let before ← get
  let attrs ← attributeTokens g
  let trees ← ahead
  if startsWord "let" trees then localBinding g attrs
  else if startsItem trees then
    set before
    return (← g.item).tokens
  else
    match ← macroStatement? attrs with
    | some tokens =>
      let semicolon ← op? ";"
      return tokens ++ if semicolon then [.op ";"] else []
    | none =>
      let expr ← statementExpr g
      let tokens := expr.withAttributes attrs
      if ← op? ";" then return tokens ++ [.op ";"]
      else if expr.isClosed || isTryCall expr.tokens || (← atEnd) then return tokens
      else fail

/-- The statements inside a block. -/
def statements (g : Grammar) : Parser (List Token) := do
  return (← many (!·.isEmpty) (statement g)).flatten

end Parser

end VariantMerge
