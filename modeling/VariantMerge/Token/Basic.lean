/-!
# Tokens and token trees

`Tree` is what the lexer makes of a text: words, literals, single punctuation characters that
remember whether another one touches them, and delimited groups, each with the line it stands on.
`Token` is what is written out: there, the characters of an operator have been joined.
`Tree.tokens` takes the first to the second by joining the punctuation that touches. A piece that is
cut out of a text can end between two characters that touch: the operator is then still open, and
`Token.fuseAll` completes it with the operator that comes to stand after it.
-/

namespace VariantMerge

/-- The three kinds of brackets that enclose a group. -/
inductive Delimiter where
  | paren
  | bracket
  | brace
  deriving DecidableEq, Repr, Inhabited

namespace Delimiter

def opening : Delimiter → Char
  | paren => '('
  | bracket => '['
  | brace => '\x7b'

def closing : Delimiter → Char
  | paren => ')'
  | bracket => ']'
  | brace => '\x7d'

/-- The delimiter that a character opens. -/
def ofOpening? (c : Char) : Option Delimiter :=
  [paren, bracket, brace].find? (·.opening == c)

/-- The delimiter that a character closes. -/
def ofClosing? (c : Char) : Option Delimiter :=
  [paren, bracket, brace].find? (·.closing == c)

end Delimiter

/-- A token to be written out. Names, keywords and literals are words; `lifetime` holds the name
without its quote; an open operator goes on with the operator after it, if there is one. -/
inductive Token where
  | word (text : String)
  | lifetime (name : String)
  | op (text : String)
  | openOp (text : String)
  | group (delimiter : Delimiter) (inner : List Token)
  deriving Repr, Inhabited

namespace Token

/-- Puts a token in front of others; an open operator becomes one with the operator after it. -/
def fuseOnto : Token → List Token → List Token
  | openOp text, op more :: rest => op (text ++ more) :: rest
  | openOp text, rest => op text :: rest
  | token, rest => token :: rest

mutual

/-- The token with no open operators inside. -/
def fuse : Token → Token
  | group delimiter inner => group delimiter (fuseAll inner)
  | token => token

/-- The tokens without open operators. -/
def fuseAll : List Token → List Token
  | [] => []
  | token :: rest => token.fuse.fuseOnto (fuseAll rest)

end

end Token

/-- A token tree of a text. A group knows the lines of both of its delimiters. -/
inductive Tree where
  | ident (line : Nat) (text : String)
  | literal (line : Nat) (text : String)
  | lifetime (line : Nat) (name : String)
  | punct (line : Nat) (char : Char) (joint : Bool)
  | group (line closeLine : Nat) (delimiter : Delimiter) (inner : List Tree)
  deriving Repr, Inhabited

namespace Tree

/-- The line on which the tree starts. -/
def line : Tree → Nat
  | ident line _ | literal line _ | lifetime line _ | punct line _ _ | group line _ _ _ => line

def isPunct : Tree → Bool
  | punct _ _ _ => true
  | _ => false

/-- Puts a punctuation character in front of tokens; a joint one becomes part of the operator
that follows. -/
def joinPunct (c : Char) (joined : Bool) : List Token → List Token
  | .op text :: rest => if joined then .op (c.toString ++ text) :: rest
                        else .op c.toString :: .op text :: rest
  | .openOp text :: rest => if joined then .openOp (c.toString ++ text) :: rest
                            else .op c.toString :: .openOp text :: rest
  | rest => .op c.toString :: rest

mutual

/-- The tokens that this tree adds in front of others. -/
def pushTokens (next : Option Tree) : Tree → List Token → List Token
  | ident _ text, rest => .word text :: rest
  | literal _ text, rest => .word text :: rest
  | lifetime _ name, rest => .lifetime name :: rest
  | punct _ c joint, rest =>
    if joint && next.isNone then .openOp c.toString :: rest
    else joinPunct c (joint && next.any isPunct) rest
  | group _ _ delimiter inner, rest => .group delimiter (tokens inner) :: rest

/-- The tokens of a list of trees: punctuation characters that touch form one operator, which is
open if the last one touches what is not in the list. -/
def tokens : List Tree → List Token
  | [] => []
  | tree :: rest => tree.pushTokens rest.head? (tokens rest)

end

mutual

/-- The number of trees in this one, itself included. -/
def size : Tree → Nat
  | group _ _ _ inner => 1 + sizes inner
  | _ => 1

/-- The number of trees in a list, those inside groups included. -/
def sizes : List Tree → Nat
  | [] => 0
  | tree :: rest => tree.size + sizes rest

end

end Tree

end VariantMerge
