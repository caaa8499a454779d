import VariantMerge.Grammar.Item
import VariantMerge.Token.Lexer
import VariantMerge.Token.Render

/-!
# Reading source text

A source text is cut into trees first and then read by the grammar, so a broken token is found
before any misplaced one. Failure is told by the line at which reading stops.
-/

namespace VariantMerge

/-- Source text that cannot be read, by the line at which it stops making sense. -/
structure SyntaxError where
  line : Nat
  deriving DecidableEq, Repr

namespace SyntaxError

/-- The wording is the same for all; only the line differs. -/
def message (error : SyntaxError) : String :=
  "<syntax> (line " ++ toString error.line ++ ")"

end SyntaxError

namespace Source

/-- Reads trees that are one phrase. -/
def parseTrees (phrase : Grammar → Parser α) (trees : List Tree) : Except SyntaxError α :=
  (Parser.run (phrase (Grammar.forTrees trees)) trees).mapError SyntaxError.mk

/-- Reads characters that are one phrase. -/
def parseChars (phrase : Grammar → Parser α) (chars : List Char) : Except SyntaxError α := do
  parseTrees phrase (← (Tree.ofChars chars).mapError SyntaxError.mk)

/-- Reads a text that is one phrase. -/
def parse (phrase : Grammar → Parser α) (text : String) : Except SyntaxError α :=
  parseChars phrase text.toList

/-! ## Phrases -/

/-- A type. -/
def ty (g : Grammar) : Parser Ty := g.ty true

/-- Conditions with their keyword. -/
def whereClause (g : Grammar) : Parser WhereClause := do
  match ← Parser.whereClause? g with
  | some clause => return clause
  | none => Parser.fail

/-- An import, of which no group may start anew at the root. -/
def useItem (g : Grammar) : Parser UseItem := do
  let attrs ← Parser.attributes g
  let visible ← Parser.visibility
  match ← Parser.useItem? false attrs visible with
  | some item => return item
  | none => Parser.fail

/-- A struct declaration. -/
def structItem (g : Grammar) : Parser StructItem := do
  let attrs ← Parser.attributes g
  Parser.structItem g attrs (← Parser.visibility)

/-- A trait declaration. -/
def traitItem (g : Grammar) : Parser TraitItem := do
  let attrs ← Parser.attributes g
  Parser.traitItem g attrs (← Parser.visibility)

/-- A module declaration. -/
def moduleItem (g : Grammar) : Parser (ModuleHead × Option (List Item)) := do
  let attrs ← Parser.attributes g
  Parser.moduleItem g attrs (← Parser.visibility)

/-- A single string literal. -/
def stringLiteral (_ : Grammar) : Parser String := do
  match ← Parser.stringLiteral? with
  | some text => return text
  | none => Parser.fail

/-- Attributes' contents with commas between them. -/
def attributeList (g : Grammar) : Parser (List Attribute) := do
  return (← Parser.commaList (Parser.attributeMeta g false)).1

/-! ## Files -/

/-- Skips blanks and comments; every round takes at least one character. -/
def skipSpaceFrom : Nat → List Char → List Char
  | 0, cs => cs
  | _, [] => []
  | rounds + 1, c :: rest =>
    if Lexer.isSpace c then skipSpaceFrom rounds rest
    else
      match Lexer.plainComment? (c :: rest) with
      | some after => skipSpaceFrom rounds after
      | none => c :: rest

/-- The characters after a first line that names an interpreter. Its line feed stays. An inner
attribute also starts with these two signs, but a bracket follows them. -/
def dropShebang : List Char → List Char
  | '#' :: '!' :: rest =>
    if (skipSpaceFrom rest.length rest).head? == some '[' then '#' :: '!' :: rest
    else rest.dropWhile (· != '\n')
  | cs => cs

/-- The characters after a byte order mark. -/
def dropMark : List Char → List Char
  | '\ufeff' :: rest => rest
  | cs => cs

/-- The declarations of a file. -/
def parseFile (text : String) : Except SyntaxError (List Item) := do
  return (← parseChars Parser.items (dropShebang (dropMark text.toList))).2

end Source

end VariantMerge
