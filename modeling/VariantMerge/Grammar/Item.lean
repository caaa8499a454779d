import VariantMerge.Grammar.Member

/-!
# The grammar of declarations

`Parser.item` reads one declaration and `Parser.items` all of a file. Traits, structs,
implementations, imports and modules become trees; every other declaration, and any of these in a
form that only the tokens can show, is passed on as its tokens.
-/

namespace VariantMerge

namespace Parser

/-! ## Traits, structs and implementations -/

/-- A trait after its attributes and visibility. -/
def traitItem (g : Grammar) (attrs : List Attribute) (visible : Visibility) :
    Parser TraitItem := do
  let isUnsafe ← keyword? "unsafe"
  let isAuto ← keyword? "auto"
  keyword "trait"
  let name ← name
  let params ← generics g
  let stop (trees : List Tree) : Bool := startsWord "where" trees || startsGroup .brace trees
  let (supertraits, trailing) ← (do
    if ← op? ":" then sepUntil stop "+" (bound g .declaration) else return ([], false))
  let conditions ← whereClause? g
  let (inner, entries) ← body g (many (!·.isEmpty) (traitEntry g))
  return ⟨attrs ++ inner, visible, isUnsafe, isAuto, name, { params with conditions }, supertraits,
    trailing, entries⟩

/-- Whether the definition of a trait alias comes after the head of a trait. -/
def traitAlias? (g : Grammar) (visible : Visibility) (outer : List Token) :
    Parser (Option (List Token)) := do
  let before ← get
  keyword "trait"
  let name ← name
  let params ← generics g
  if ← op? "=" then
    let stop (trees : List Tree) : Bool := startsWord "where" trees || startsOp ";" trees
    let (read, trailing) ← sepUntil stop "+" (bound g .object)
    let conditions ← whereClause? g
    op ";"
    return some (outer ++ visible.tokens ++ .word "trait" :: .word name :: params.tokens ++
      .op "=" :: Token.separated "+" trailing (boundsEach read) ++
      WhereClause.tokens? conditions ++ [.op ";"])
  else
    set before
    return none

/-- A field with a name, or with an underscore for one. A field without a name can hold fields of
its own, and such a type is passed on as it was written. -/
def namedFieldFrom (g : Grammar) : Nat → Parser FieldItem
  | 0 => fail
  | depth + 1 => do
    let attrs ← attributes g
    let visible ← visibility
    let isUnnamed ← looks (startsWord "_")
    let name ← (if isUnnamed then anyWord else name)
    op ":"
    let before ← get
    if isUnnamed && (← looks fun trees => startsWord "struct" trees ||
        (startsWord "union" trees && startsGroup .brace (trees.drop 1))) then
      let _ ← anyWord
      let _ ← group .brace (commaList (namedFieldFrom g depth))
      return ⟨attrs, visible, some name, .other (← written before)⟩
    else return ⟨attrs, visible, some name, ← g.ty true⟩

/-- A field with a name. Fields inside of it start at later trees. -/
def namedField (g : Grammar) : Parser FieldItem := do
  namedFieldFrom g (Tree.sizes (← ahead) + 1)

/-- A field of a tuple. -/
def tupleField (g : Grammar) : Parser FieldItem := do
  let attrs ← attributes g
  let visible ← visibility
  return ⟨attrs, visible, none, ← g.ty true⟩

/-- The fields in braces. -/
def namedFields (g : Grammar) : Parser FieldList := do
  let (fields, trailing) ← group .brace (commaList (namedField g))
  return .named fields trailing

/-- The fields in parentheses. -/
def tupleFields (g : Grammar) : Parser FieldList := do
  let (fields, trailing) ← group .paren (commaList (tupleField g))
  return .tuple fields trailing

/-- The conditions and fields of a struct. Those of a tuple come before its conditions. -/
def structBody (g : Grammar) : Parser (Option WhereClause × FieldList) := do
  let early ← whereClause? g
  if early.isNone && (← looks (startsGroup .paren)) then
    let fields ← tupleFields g
    let conditions ← whereClause? g
    op ";"
    return (conditions, fields)
  else if ← looks (startsGroup .brace) then
    return (early, ← namedFields g)
  else
    op ";"
    return (early, .unit)

/-- A struct after its attributes and visibility. -/
def structItem (g : Grammar) (attrs : List Attribute) (visible : Visibility) :
    Parser StructItem := do
  keyword "struct"
  let name ← name
  let params ← generics g
  let (conditions, fields) ← structBody g
  return ⟨attrs, visible, name, { params with conditions }, fields⟩

/-- An implementation block after its attributes and visibility. One that has a visibility, is
constant, or is for something that is not a trait is only passed by. Only one for a trait can say
that the trait is not implemented. -/
def implItem (g : Grammar) (before : Cursor) (attrs : List Attribute) (visible : Visibility) :
    Parser Item := do
  let isDefault ← keyword? "default"
  let isUnsafe ← keyword? "unsafe"
  keyword "impl"
  let params ← (do if ← looks startsGenerics then generics g else return .none)
  let isConst ← looks fun trees => startsWord "const" trees ||
    (startsOp "?" trees && startsWord "const" (trees.drop 1))
  if isConst then
    let _ ← op? "?"
    keyword "const"
  let atSign ← get
  let isNegative ← looks fun trees => startsOp "!" trees && !startsGroup .brace (trees.drop 1)
  if isNegative then op "!"
  let first ← g.ty true
  let isFor ← keyword? "for"
  if isNegative && !isFor then
    set atSign
    fail
  let selfTy ← (do if isFor then g.ty true else return first)
  let conditions ← whereClause? g
  let (inner, members) ← body g (many (!·.isEmpty) (implMember g))
  let qualifiers := Token.keywordIf isDefault "default" ++ Token.keywordIf isUnsafe "unsafe"
  let make (interface : Option ImplTarget) (selfTy : Ty) : Item :=
    .impl ⟨attrs ++ inner, qualifiers, { params with conditions }, interface, selfTy,
      members.flatten⟩
  match isConst, visible, isFor, first with
  | false, .inherited, true, .path path => return make (some ⟨isNegative, path⟩) selfTy
  | false, .inherited, false, _ => return make none first
  | _, _, _, _ => return .other (← written before)

/-! ## Imports and modules -/

/-- What an import names; whether a group in it starts anew at the root. In such a group every
tree may start with a double colon, but only one that is itself not below another name. -/
def useTreeFrom (atRoot : Bool) : Nat → Parser (Option UseTree)
  | 0 => fail
  | rounds + 1 => do
    if ← looks fun trees =>
        startsName trees || ["self", "super", "crate", "try"].any (startsWord · trees) then
      let name ← anyWord
      if ← op? "::" then
        match ← useTreeFrom false rounds with
        | some rest => return some (.path name rest)
        | none => return none
      else if ← keyword? "as" then
        if ← looks fun trees => startsName trees || startsWord "_" trees then
          return some (.rename name (← anyWord))
        else fail
      else return some (.name name)
    else if ← op? "*" then return some .glob
    else if ← looks (startsGroup .brace) then
      group .brace do
        let (trees, trailing) ← commaList do
          let fresh ← (do if atRoot then op? "::" else return false)
          let tree ← useTreeFrom (atRoot && !fresh) rounds
          return if fresh then none else tree
        return if trees.all Option.isSome then some (.group (trees.filterMap id) trailing) else none
    else fail

/-- An import after its attributes and visibility, if a tree can show it. -/
def useItem? (atRoot : Bool) (attrs : List Attribute) (visible : Visibility) :
    Parser (Option UseItem) := do
  keyword "use"
  let leading ← op? "::"
  let tree ← useTreeFrom (atRoot && !leading) (Tree.sizes (← ahead) + 1)
  op ";"
  return tree.map fun tree => ⟨attrs, visible, leading, tree⟩

/-- A module after its attributes and visibility. -/
def moduleItem (g : Grammar) (attrs : List Attribute) (visible : Visibility) :
    Parser (ModuleHead × Option (List Item)) := do
  let isUnsafe ← keyword? "unsafe"
  keyword "mod"
  let name ← (do if ← looks (startsWord "try") then anyWord else name)
  if ← op? ";" then
    return (⟨attrs, visible, isUnsafe, name⟩, none)
  else
    let (inner, items) ← body g (many (!·.isEmpty) g.item)
    return (⟨attrs ++ inner, visible, isUnsafe, name⟩, some items)

/-! ## Declarations that are passed by -/

/-- A variant of an enumeration. What is written about its visibility does not count. -/
def enumVariant (g : Grammar) : Parser (List Token) := do
  let attrs ← attributeTokens g
  let _ ← visibility
  let name ← name
  let fields ← (do
    if ← looks (startsGroup .brace) then
      let (fields, trailing) ← group .brace (commaList (namedField g))
      return [Token.group .brace (Token.separated "," trailing (fields.map FieldItem.tokens))]
    else if ← looks (startsGroup .paren) then
      let (fields, trailing) ← group .paren (commaList (tupleField g))
      return [Token.group .paren (Token.separated "," trailing (fields.map FieldItem.tokens))]
    else return [])
  let value ← value? g
  return attrs ++ .word name :: fields ++
    match value with
    | none => []
    | some value => .op "=" :: value

/-- An enumeration. -/
def enumItem (g : Grammar) : Parser (List Token) := do
  keyword "enum"
  let name ← name
  let params ← generics g
  let conditions ← whereClause? g
  let variants ← group .brace (commaTokens (enumVariant g))
  return .word "enum" :: .word name :: params.tokens ++ WhereClause.tokens? conditions ++
    [.group .brace variants]

/-- A union. -/
def unionItem (g : Grammar) : Parser (List Token) := do
  keyword "union"
  let name ← name
  let params ← generics g
  let conditions ← whereClause? g
  let (fields, trailing) ← group .brace (commaList (namedField g))
  return .word "union" :: .word name :: params.tokens ++ WhereClause.tokens? conditions ++
    [.group .brace (Token.separated "," trailing (fields.map FieldItem.tokens))]

/-- A static variable: its tokens, and whether it has a type and a value. The type can be left
out where a value is given, but not everywhere. -/
def staticItem (g : Grammar) (needsType : Bool) : Parser (List Token × Bool × Bool) := do
  keyword "static"
  let isMut ← keyword? "mut"
  let name ← name
  let ty ← (do
    if !needsType && (← looks (startsOp "=")) then return []
    else
      op ":"
      return Token.op ":" :: (← g.ty true).tokens)
  let value ← value? g
  op ";"
  let tokens := .word "static" :: Token.keywordIf isMut "mut" ++ .word name :: ty ++
    (match value with
    | none => []
    | some value => .op "=" :: value) ++ [.op ";"]
  return (tokens, !ty.isEmpty, value.isSome)

/-- An external crate. -/
def externCrate : Parser (List Token) := do
  keyword "extern"
  keyword "crate"
  let name ← (do if ← looks (startsWord "self") then anyWord else name)
  let rename ← (do
    if ← keyword? "as" then
      if ← looks (startsWord "_") then return [Token.word "as", .word (← anyWord)]
      else return [Token.word "as", .word (← Parser.name)]
    else return [])
  op ";"
  return .word "extern" :: .word "crate" :: .word name :: rename ++ [.op ";"]

/-- The tokens of an external function. It may be marked as safe, and may have a body. -/
def foreignFunction (g : Grammar) (before : Cursor) (head : List Token) : Parser (List Token) := do
  let (sig, isSafe) ← signatureWith true g
  if ← looks (startsGroup .brace) then
    let _ ← body g g.statements
    written before
  else
    op ";"
    if isSafe then written before else return head ++ sig.tokens ++ [.op ";"]

/-- The tokens of a member of a block of external declarations. -/
def foreignMember (g : Grammar) : Parser (List Token) := do
  let before ← get
  let attrs ← attributeTokens g
  let visible ← visibility
  let trees ← ahead
  let head := attrs ++ visible.tokens
  if startsSignatureWith true trees then foreignFunction g before head
  else if startsWord "static" trees then
    let (tokens, _, hasValue) ← staticItem g true
    if hasValue then written before else return head ++ tokens
  else if ["unsafe", "safe"].any (startsWord · trees) && startsWord "static" (trees.drop 1) then
    let _ ← anyWord
    let _ ← staticItem g true
    written before
  else if startsWord "type" trees then
    let read ← typeDeclaration g .either
    if read.isExtended || read.isDefined then written before else return head ++ read.tokens
  else return head ++ (← memberMacro visible false)

/-- A block of external declarations. -/
def foreignBlock (g : Grammar) : Parser (List Token) := do
  let isUnsafe ← keyword? "unsafe"
  let abi ← abi?
  let (inner, members) ← body g (many (!·.isEmpty) (foreignMember g))
  return Token.keywordIf isUnsafe "unsafe" ++ Abi.tokens? abi ++
    [.group .brace (Attribute.innerTokens inner ++ members.flatten)]

/-- A block of external declarations where a declaration may stand. It cannot have a visibility. -/
def foreignItem (g : Grammar) (atVisible : Cursor) (visible : Visibility) :
    Parser (List Token) := do
  match visible with
  | .inherited => foreignBlock g
  | _ =>
    set atVisible
    fail

/-- A function with its body, or, as its tokens, one without. -/
def functionItem (g : Grammar) (before : Cursor) (outer : List Token) (visible : Visibility) :
    Parser (List Token) := do
  let sig ← signature g
  if ← op? ";" then written before
  else
    let (inner, stmts) ← body g g.statements
    return outer ++ visible.tokens ++ sig.tokens ++
      [.group .brace (Attribute.innerTokens inner ++ stmts)]

/-- A macro declared by the keyword `macro`. -/
def macroDeclaration (before : Cursor) : Parser (List Token) := do
  keyword "macro"
  let _ ← name
  if ← looks (startsGroup .paren) then
    let _ ← anyGroup
  if ← looks (startsGroup .brace) then
    let _ ← anyGroup
    written before
  else fail

/-- What may follow `extern` at the front of a declaration. -/
def startsForeign (trees : List Tree) : Bool :=
  match trees with
  | .ident _ "extern" :: .literal _ _ :: rest => startsGroup .brace rest
  | .ident _ "extern" :: rest => startsGroup .brace rest
  | _ => false

/-! ## All declarations -/

/-- A declaration. -/
def item (g : Grammar) : Parser Item := do
  let before ← get
  let attrs ← attributes g
  let outer := Attribute.outerTokens attrs
  let atVisible ← get
  let visible ← visibility
  let head := outer ++ visible.tokens
  let trees ← ahead
  let next := trees.drop 1
  if startsSignature trees then return .other (← functionItem g before outer visible)
  else if startsWord "extern" trees then
    if startsWord "crate" next then return .other (head ++ (← externCrate))
    else if startsForeign trees then
      return .other (outer ++ (← foreignItem g atVisible visible))
    else
      keyword "extern"
      let _ ← stringLiteral?
      fail
  else if startsWord "use" trees then
    match ← useItem? true attrs visible with
    | some item => return .use item
    | none => return .other (← written before)
  else if startsWord "static" trees then
    let (tokens, hasType, hasValue) ← staticItem g false
    if hasType && hasValue then return .other (head ++ tokens)
    else return .other (← written before)
  else if startsWord "const" trees then
    let read ← constant g
    if read.isExtended || !read.isDefined then return .other (← written before)
    else return .other (head ++ read.tokens)
  else if startsWord "unsafe" trees then
    if startsWord "trait" next || (startsWord "auto" next && startsWord "trait" (next.drop 1)) then
      return .trait (← traitItem g attrs visible)
    else if startsWord "impl" next then implItem g before attrs visible
    else if startsWord "extern" next then
      return .other (outer ++ (← foreignItem g atVisible visible))
    else if startsWord "mod" next then
      let (head, content) ← moduleItem g attrs visible
      return .module head content
    else
      keyword "unsafe"
      fail
  else if startsWord "mod" trees then
    let (head, content) ← moduleItem g attrs visible
    return .module head content
  else if startsWord "type" trees then
    let read ← typeDeclaration g .early
    if read.isExtended || !read.isDefined then return .other (← written before)
    else return .other (head ++ read.tokens)
  else if startsWord "struct" trees then return .struct (← structItem g attrs visible)
  else if startsWord "enum" trees then return .other (head ++ (← enumItem g))
  else if startsWord "union" trees && startsName next then
    return .other (head ++ (← unionItem g))
  else if startsWord "trait" trees then
    match ← traitAlias? g visible outer with
    | some tokens => return .other tokens
    | none => return .trait (← traitItem g attrs visible)
  else if startsWord "auto" trees && startsWord "trait" next then
    return .trait (← traitItem g attrs visible)
  else if startsWord "impl" trees || (startsWord "default" trees && !startsOp "!" next) then
    implItem g before attrs visible
  else if startsWord "macro" trees then return .other (← macroDeclaration before)
  else
    match visible with
    | .inherited => return .other (outer ++ (← macroItem true))
    | _ => fail

/-- All declarations of a file, after the attributes at its beginning. -/
def items (g : Grammar) : Parser (List Attribute × List Item) := do
  let inner ← innerAttributes g
  return (inner, ← many (!·.isEmpty) (item g))

end Parser

namespace Grammar

/-- The grammar in which phrases may contain each other up to the given depth. -/
def upTo : Nat → Grammar
  | 0 => empty
  | depth + 1 =>
    let g := upTo depth
    { ty := Parser.ty g
      path := Parser.path g
      param := Parser.boundParam g
      exprFrom := Parser.exprFrom g
      statement := Parser.statementExpr g
      statements := Parser.statements g
      pattern := Parser.pattern g
      item := Parser.item g }

/-- The grammar for these trees: a phrase inside another starts at a later tree, or at the same
one as a smaller kind of phrase. -/
def forTrees (trees : List Tree) : Grammar :=
  upTo (4 * Tree.sizes trees + 8)

end Grammar

end VariantMerge
