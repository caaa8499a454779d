import VariantMerge.Token.Basic
import VariantMerge.Token.Literal
import VariantMerge.Text.Blank
import VariantMerge.Text.Quoted

/-!
# From text to token trees

`Tree.ofText` cuts a text into token trees, or names the line at which it cannot: the line of a
wrong or stray closing delimiter, of a delimiter that stays open, or of a token that is broken or
impossible. Comments vanish, except that a documentation comment stands for the attribute that
holds its text.
-/

namespace VariantMerge

namespace Lexer

open Literal (Reader)

/-- The characters that are punctuation. -/
def punctuation : List Char :=
  ['~', '!', '@', '#', '$', '%', '^', '&', '*', '-', '=', '+', '|', ';', ':', ',', '<', '.', '>',
   '/', '?', '\'']

/-- Whether a comment starts here. -/
def startsComment : List Char → Bool
  | '/' :: '/' :: _ => true
  | '/' :: '*' :: _ => true
  | _ => false

/-- Whether a punctuation character starts here. -/
def startsPunct (cs : List Char) : Bool :=
  cs.head?.any punctuation.contains && !startsComment cs

/-- The starts that are no word, because a literal was meant. -/
def literalStarts : List String :=
  ["r\"", "r#\"", "r##", "b\"", "b'", "br\"", "br#", "c\"", "cr\"", "cr#"]

/-- Reads a word where a token may start. -/
def name : Reader := fun cs =>
  if literalStarts.any fun start => start.toList.isPrefixOf cs then none
  else Literal.rawableWord cs

/-- Reads a lifetime after its quote. A closing quote or a raw marker there is not one. -/
def lifetimeName : Reader := fun cs =>
  match Literal.rawableWord cs with
  | some ('\'' :: _) => none
  | some ('#' :: rest) => if ['r', '#'].isPrefixOf cs then some ('#' :: rest) else none
  | after => after

/-- Reads a block comment from inside, at the given nesting depth above its outermost level. -/
def blockComment : Nat → Reader
  | 0, '*' :: '/' :: rest => some rest
  | depth + 1, '*' :: '/' :: rest => blockComment depth rest
  | depth, '/' :: '*' :: rest => blockComment (depth + 1) rest
  | depth, _ :: rest => blockComment depth rest
  | _, [] => none

/-- The text up to the end of the line, and the rest from its line feed on. -/
def restOfLine : List Char → List Char × List Char
  | [] => ([], [])
  | '\n' :: rest => ([], '\n' :: rest)
  | '\r' :: '\n' :: rest => ([], '\n' :: rest)
  | c :: rest => let (text, after) := restOfLine rest; (c :: text, after)

/-- What of `cs` was read before `after`. -/
def readPart (cs after : List Char) : List Char :=
  cs.take (cs.length - after.length)

/-- A carriage return is allowed only before a line feed. -/
def hasBareReturn : List Char → Bool
  | [] => false
  | '\r' :: '\n' :: rest => hasBareReturn rest
  | c :: rest => c == '\r' || hasBareReturn rest

/-- A documentation comment with its text, whether it belongs to what encloses it, and the rest. -/
def docComment? (cs : List Char) : Option (List Char × Bool × List Char) :=
  match cs with
  | '/' :: '/' :: '!' :: rest =>
    let (text, after) := restOfLine rest
    some (text, true, after)
  | '/' :: '*' :: '!' :: rest =>
    (blockComment 0 ('!' :: rest)).map fun after =>
      ((readPart rest after).dropLast.dropLast, true, after)
  | '/' :: '/' :: '/' :: rest =>
    if rest.head? == some '/' then none
    else
      let (text, after) := restOfLine rest
      some (text, false, after)
  | '/' :: '*' :: '*' :: rest =>
    if rest.head? == some '*' || rest.head? == some '/' then none
    else (blockComment 0 ('*' :: rest)).map fun after =>
      ((readPart rest after).dropLast.dropLast, false, after)
  | _ => none

/-- The rest after a comment that is not documentation. -/
def plainComment? (cs : List Char) : Option (List Char) :=
  if (docComment? cs).isSome then none
  else
    match cs with
    | '/' :: '/' :: rest => if rest.head? == some '!' then none else some (restOfLine rest).2
    | '/' :: '*' :: rest => blockComment 0 rest
    | _ => none

/-- The attribute that a documentation comment stands for. -/
def docAttribute (line : Nat) (text : List Char) (inner : Bool) : List Tree :=
  let bang := if inner then [Tree.punct line '!' false] else []
  Tree.punct line '#' false :: bang ++
    [.group line line .bracket
      [.ident line "doc", .punct line '=' false,
        .literal line (Text.stringLiteral (String.ofList text))]]

/-- The blanks between tokens: white space and the two direction marks. -/
def isSpace (c : Char) : Bool :=
  (Text.isBlankAscii c) || (0x7F < c.toNat && (Text.isBlank c || c == '\u200e' || c == '\u200f'))

/-- The mark that stands where an expression could not be made out. It counts as a literal. -/
def failureMark : List Char := ['(', '/', '*', 'E', 'R', 'R', 'O', 'R', '*', '/', ')']

/-- The delimiter that is opened here. -/
def opened? (cs : List Char) : Option Delimiter :=
  if failureMark.isPrefixOf cs then none else cs.head?.bind Delimiter.ofOpening?

/-- Reads any literal, or the mark that counts as one. -/
def literal : Reader := fun cs =>
  if failureMark.isPrefixOf cs then some (cs.drop failureMark.length) else Literal.literal cs

/-- The token at the start of the characters that is neither blank nor delimiter. -/
def leaf? (line : Nat) (cs : List Char) : Option (Tree × List Char) :=
  match literal cs with
  | some after => some (.literal line (String.ofList (readPart cs after)), after)
  | none =>
    match cs with
    | '\'' :: rest =>
      (lifetimeName rest).map fun after =>
        (.lifetime line (String.ofList (readPart rest after)), after)
    | c :: rest =>
      if startsPunct cs then
        some (.punct line c (startsPunct rest), rest)
      else
        (name cs).map fun after => (.ident line (String.ofList (readPart cs after)), after)
    | [] => none

/-- A group that is still open: where and how it was opened, and the trees before it, last
first. -/
structure OpenGroup where
  line : Nat
  delimiter : Delimiter
  before : List Tree

/-- Reads trees while characters are left. `done` holds the trees read at this depth, last
first. Every step takes at least one character, so as many steps as characters suffice. -/
def read : Nat → Nat → List Char → List OpenGroup → List Tree → Except Nat (List Tree)
  | _, _, [], [], done => .ok done.reverse
  | _, _, [], innermost :: _, _ => .error innermost.line
  | 0, line, _ :: _, _, _ => .error line
  | steps + 1, line, c :: rest, groups, done =>
    if isSpace c then
      read steps (if c == '\n' then line + 1 else line) rest groups done
    else
      match plainComment? (c :: rest) with
      | some after => read steps (line + (readPart rest after).count '\n') after groups done
      | none =>
        match docComment? (c :: rest) with
        | some (text, inner, after) =>
          if hasBareReturn text then .error line
          else
            read steps (line + (readPart rest after).count '\n') after groups
              ((docAttribute line text inner).reverse ++ done)
        | none =>
          match opened? (c :: rest), Delimiter.ofClosing? c, groups with
          | some delimiter, _, _ => read steps line rest (⟨line, delimiter, done⟩ :: groups) []
          | none, some delimiter, group :: outer =>
            if group.delimiter = delimiter then
              read steps line rest outer
                (.group group.line line delimiter done.reverse :: group.before)
            else .error line
          | none, some _, [] => .error line
          | none, none, _ =>
            match leaf? line (c :: rest) with
            | some (tree, after) =>
              read steps (line + (readPart rest after).count '\n') after groups (tree :: done)
            | none => .error line

end Lexer

namespace Tree

/-- The token trees of characters, of which a leading byte order mark is not one, or the line at
which they stop making sense. -/
def ofChars : List Char → Except Nat (List Tree)
  | '\ufeff' :: cs => Lexer.read cs.length 1 cs [] []
  | cs => Lexer.read cs.length 1 cs [] []

/-- The token trees of a text, or the line at which it stops making sense. -/
def ofText (text : String) : Except Nat (List Tree) :=
  ofChars text.toList

end Tree

end VariantMerge
