import VariantMerge.Syntax.Item
import VariantMerge.Text.Letter

/-!
# Parsers on token trees

A parser takes trees from the front of the group that it stands in. It fails with a line: that of
the first tree that it cannot accept, or, at the end of the group, the line on which the group
ends. Trees that are left over at the end of a group are a mistake as well, but one that counts
only if nothing fails after it. The grammar is recursive in a few places only, which `Grammar`
collects, so that each part of it can be defined on its own and the knot is tied once.
-/

namespace VariantMerge

/-- The trees of a group that are still to be read, the line that stands for its end, and the line
of the first tree that was left over in a group before. -/
structure Cursor where
  trees : List Tree
  endLine : Nat
  leftOver : Option Nat

namespace Cursor

/-- A cursor at the beginning of a text. What ends too early ends on the first line. -/
def start (trees : List Tree) : Cursor := ⟨trees, 1, none⟩

/-- The line of the first tree that was left over, here or before. -/
def unread? (cursor : Cursor) : Option Nat :=
  cursor.leftOver.or (cursor.trees.head?.map Tree.line)

end Cursor

/-- A parser moves a cursor, or fails with the line of what it cannot accept. -/
abbrev Parser := StateT Cursor (Except Nat)

namespace Parser

/-! ## Looking ahead -/

/-- The trees ahead. -/
def ahead : Parser (List Tree) :=
  return (← get).trees

/-- Whether the trees ahead satisfy a condition. -/
def looks (p : List Tree → Bool) : Parser Bool :=
  return p (← get).trees

/-- Whether the operator made of these characters comes first. All but its last character have to
touch the next one; what touches the last one does not matter. -/
def startsChars : List Char → List Tree → Bool
  | [], _ => true
  | [c], .punct _ d _ :: _ => c == d
  | c :: cs, .punct _ d joint :: rest => c == d && joint && startsChars cs rest
  | _, _ => false

/-- Whether this operator comes first. -/
def startsOp (text : String) (trees : List Tree) : Bool :=
  startsChars text.toList trees

/-- Whether one operator comes first that is not the beginning of any of the others. -/
def startsOpNot (text : String) (others : List String) (trees : List Tree) : Bool :=
  startsOp text trees && !others.any (startsOp · trees)

/-- Whether this word comes first. -/
def startsWord (text : String) : List Tree → Bool
  | .ident _ name :: _ => name == text
  | _ => false

/-- The words that cannot be names. -/
def keywords : List String :=
  ["_", "abstract", "as", "async", "await", "become", "box", "break", "const", "continue",
   "crate", "do", "dyn", "else", "enum", "extern", "false", "final", "fn", "for", "if", "impl",
   "in", "let", "loop", "macro", "match", "mod", "move", "mut", "override", "priv", "pub", "ref",
   "return", "Self", "self", "static", "struct", "super", "trait", "true", "try", "type",
   "typeof", "unsafe", "unsized", "use", "virtual", "where", "while", "yield"]

/-- Whether a name comes first. -/
def startsName : List Tree → Bool
  | .ident _ name :: _ => !keywords.contains name
  | _ => false

/-- Whether any word comes first, keyword or not. -/
def startsAnyWord : List Tree → Bool
  | .ident _ _ :: _ => true
  | _ => false

def startsLifetime : List Tree → Bool
  | .lifetime _ _ :: _ => true
  | _ => false

/-- Whether a group with this delimiter comes first. -/
def startsGroup (delimiter : Delimiter) : List Tree → Bool
  | .group _ _ d _ :: _ => d == delimiter
  | _ => false

/-- Whether a literal's text is that of a number. -/
def isNumber (text : String) : Bool :=
  text.toList.head?.any Char.isDigit

/-- The literal at the front with what follows it. A minus sign belongs to the number after
it. -/
def literal? : List Tree → Option (String × List Tree)
  | .literal _ text :: rest => some (text, rest)
  | .ident _ name :: rest => if name == "true" || name == "false" then some (name, rest) else none
  | .punct _ c _ :: .literal _ text :: rest =>
    if c == '-' && isNumber text then some ("-" ++ text, rest) else none
  | _ => none

def startsLiteral (trees : List Tree) : Bool :=
  (literal? trees).isSome

/-- Whether a word starts a path by its meaning: `self`, `Self`, `super` or `crate`. -/
def startsPathKeyword (trees : List Tree) : Bool :=
  ["self", "Self", "super", "crate"].any (startsWord · trees)

/-! ## Taking trees -/

/-- Fails at the tree ahead. -/
def fail : Parser α := fun cursor =>
  match cursor.trees with
  | [] => .error cursor.endLine
  | tree :: _ => .error tree.line

/-- Goes on with the trees after these. -/
def moveTo (trees : List Tree) : Parser Unit :=
  modify fun cursor => { cursor with trees }

def atEnd : Parser Bool := looks List.isEmpty

/-- Takes an operator. -/
def op (text : String) : Parser Unit := do
  let trees ← ahead
  if startsOp text trees then moveTo (trees.drop text.length) else fail

/-- Takes an operator if it comes first, and says whether it did. -/
def op? (text : String) : Parser Bool := do
  if ← looks (startsOp text) then
    op text
    return true
  else return false

/-- Takes a keyword. -/
def keyword (text : String) : Parser Unit := do
  let trees ← ahead
  if startsWord text trees then moveTo (trees.drop 1) else fail

/-- Takes a keyword if it comes first, and says whether it did. -/
def keyword? (text : String) : Parser Bool := do
  if ← looks (startsWord text) then
    keyword text
    return true
  else return false

/-- Takes any word, keyword or not. The words of a text are made of characters of names. -/
def anyWord : Parser String := do
  match ← ahead with
  | .ident _ name :: rest =>
    if Text.isNameText name then
      moveTo rest
      return name
    else fail
  | _ => fail

/-- Takes a name. -/
def name : Parser String := do
  if ← looks startsName then anyWord else fail

def lifetime : Parser String := do
  match ← ahead with
  | .lifetime _ name :: rest =>
    moveTo rest
    return name
  | _ => fail

def lifetime? : Parser (Option String) := do
  if ← looks startsLifetime then
    return some (← lifetime)
  else return none

/-- The tokens of a literal: a minus sign is an operator of its own. -/
def literalTokens (text : String) : List Token :=
  match text.toList with
  | '-' :: number => [.op "-", .word (String.ofList number)]
  | _ => [.word text]

/-- Takes a literal. -/
def literal : Parser (List Token) := do
  match literal? (← ahead) with
  | some (text, rest) =>
    moveTo rest
    return literalTokens text
  | none => fail

/-- Takes a string literal. -/
def stringLiteral? : Parser (Option String) := do
  match ← ahead with
  | .literal _ text :: rest =>
    if text.toList.head? == some '"' || text.toList.head? == some 'r' then
      moveTo rest
      return some text
    else return none
  | _ => return none

/-- The trees between a place and the cursor, as they were written. -/
def written (before : Cursor) : Parser (List Token) := do
  let left := (← ahead).length
  return Tree.tokens (before.trees.take (before.trees.length - left))

/-- Runs a parser on the inside of a group, of which all has to be read in the end. -/
def within (inner : List Tree) (closeLine : Nat) (inside : Parser α) : Parser α := fun cursor =>
  match inside { cursor with trees := inner, endLine := closeLine } with
  | .error line => .error line
  | .ok (a, after) => .ok (a, { cursor with leftOver := after.unread? })

/-- Runs a parser on the inside of the group ahead. -/
def group (delimiter : Delimiter) (inside : Parser α) : Parser α := do
  match ← ahead with
  | .group _ closeLine d inner :: rest =>
    if d == delimiter then
      let a ← within inner closeLine inside
      moveTo rest
      return a
    else fail
  | _ => fail

/-- Takes the group ahead, whatever is in it. -/
def anyGroup : Parser Token := do
  match ← ahead with
  | .group _ _ d inner :: rest =>
    moveTo rest
    return .group d (Tree.tokens inner)
  | _ => fail

/-! ## Repetition -/

/-- Parts with separators between them up to where `stop` holds; whether a separator comes last.
Each round takes at least one tree, so the count of trees bounds the rounds. -/
def sepUntilFrom (stop : List Tree → Bool) (separator : String) (part : Parser α) :
    Nat → Parser (List α × Bool)
  | 0 => fail
  | rounds + 1 => do
    if ← looks stop then
      return ([], true)
    let a ← part
    if ← looks stop then
      return ([a], false)
    op separator
    let (rest, trailing) ← sepUntilFrom stop separator part rounds
    return (a :: rest, trailing)

/-- Parts with separators between them up to where `stop` holds. -/
def sepUntil (stop : List Tree → Bool) (separator : String) (part : Parser α) :
    Parser (List α × Bool) := do
  sepUntilFrom stop separator part ((← ahead).length + 1)

/-- Parts as long as separators follow them, up to where `stop` holds. -/
def sepWhileFrom (stop : List Tree → Bool) (separator : String) (part : Parser α) :
    Nat → Parser (List α × Bool)
  | 0 => fail
  | rounds + 1 => do
    if ← looks stop then
      return ([], true)
    let a ← part
    if ← op? separator then
      let (rest, trailing) ← sepWhileFrom stop separator part rounds
      return (a :: rest, trailing)
    else return ([a], false)

/-- Parts as long as separators follow them, up to where `stop` holds. -/
def sepWhile (stop : List Tree → Bool) (separator : String) (part : Parser α) :
    Parser (List α × Bool) := do
  sepWhileFrom stop separator part ((← ahead).length + 1)

/-- Comma-separated parts up to the end of the group. -/
def commaList (part : Parser α) : Parser (List α × Bool) :=
  sepUntil List.isEmpty "," part

def manyFrom (more : List Tree → Bool) (part : Parser α) : Nat → Parser (List α)
  | 0 => fail
  | rounds + 1 => do
    if ← looks more then
      let a ← part
      return a :: (← manyFrom more part rounds)
    else return []

/-- Parts as long as `more` holds. -/
def many (more : List Tree → Bool) (part : Parser α) : Parser (List α) := do
  manyFrom more part ((← ahead).length + 1)

/-- Reads all trees of a text. -/
def run (parser : Parser α) (trees : List Tree) : Except Nat α :=
  match parser (Cursor.start trees) with
  | .error line => .error line
  | .ok (a, after) =>
    match after.unread? with
    | none => .ok a
    | some line => .error line

end Parser

/-- How tightly an operator binds, as far as this decides what may stand beside it. -/
inductive Binding where
  | assignment
  | range
  | logic
  | comparison
  | arithmetic
  deriving DecidableEq, Repr

namespace Binding

/-- The place in the order of operators, the loosest first. -/
def rank : Binding → Nat
  | assignment => 0
  | range => 1
  | logic => 2
  | comparison => 3
  | arithmetic => 4

/-- How tightly an operator between two operands binds. -/
def ofOperator (operator : String) : Binding :=
  if ["==", "!=", "<=", ">=", "<", ">"].contains operator then comparison
  else if ["&&", "||"].contains operator then logic
  else if operator.toList.getLast? == some '=' then assignment
  else arithmetic

end Binding

/-- An expression where a statement may stand. -/
structure StatementExpr where
  tokens : List Token
  /-- Whether it is complete with its closing brace. -/
  isClosed : Bool
  /-- Whether the whole is a range. -/
  isRange : Bool

namespace StatementExpr

/-- The expression with attributes in front. They belong to a range only if that stands in
parentheses. -/
def withAttributes (attrs : List Token) (expr : StatementExpr) : List Token :=
  if expr.isRange && !attrs.isEmpty then attrs ++ [.group .paren expr.tokens]
  else attrs ++ expr.tokens

end StatementExpr

/-- The places where the grammar comes back to itself. -/
structure Grammar where
  /-- A type, with or without bounds joined by plus signs at its end. -/
  ty : Bool → Parser Ty
  /-- A path, in the style of expressions or of types. -/
  path : Bool → Parser Path
  /-- A generic parameter that a binder quantifies over. -/
  param : Parser GenericParam
  /-- An expression whose operators bind at least this tightly, in a place where struct literals
  are allowed or not. -/
  exprFrom : Binding → Bool → Parser (List Token)
  /-- An expression where a statement may stand. -/
  statement : Parser StatementExpr
  /-- The statements inside a block. -/
  statements : Parser (List Token)
  /-- A pattern without alternatives. -/
  pattern : Parser Pattern
  /-- A declaration. -/
  item : Parser Item

namespace Grammar

/-- The grammar without any phrase. -/
def empty : Grammar :=
  ⟨fun _ => Parser.fail, fun _ => Parser.fail, Parser.fail, fun _ _ => Parser.fail, Parser.fail,
    Parser.fail, Parser.fail, Parser.fail⟩

/-- An expression, in a place where struct literals are allowed or not. -/
def expr (g : Grammar) (allowStruct : Bool) : Parser (List Token) :=
  g.exprFrom .assignment allowStruct

end Grammar

end VariantMerge
