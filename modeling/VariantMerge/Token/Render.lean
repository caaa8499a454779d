import VariantMerge.Token.Basic

/-!
# Writing tokens as compact text

`Token.render` writes tokens with as few blanks as keep words apart and source text readable:
`Vec<Option<u8>>`, `&'a mut T`, `Box<dyn Fn(i32) -> u8 + Send>`. What is written before a token
depends only on the kind of the token before it.
-/

namespace VariantMerge

/-- What stands directly before the place where the next token is written. An operator that has
written a blank after itself is told from one that has not. -/
inductive Before where
  | start
  | word
  | lifetime
  | op
  | spacedOp
  | opened
  | closed
  deriving DecidableEq, Repr

namespace Before

/-- A word, literal or lifetime needs a blank here. -/
def partsWords : Before → Bool
  | word | lifetime | closed => true
  | _ => false

/-- A brace or an attribute's `#` needs a blank here. -/
def partsBraces : Before → Bool
  | word | closed => true
  | _ => false

/-- Nothing is written yet, or the last character is a blank. -/
def isClear : Before → Bool
  | start | spacedOp => true
  | _ => false

end Before

namespace Token

/-- The operators that have a blank on either side. -/
def spacedOps : List String :=
  ["->", "=>", "=", "+", "|", "==", "!=", "+=", "-=", "*=", "/=", "&&", "||"]

/-- The operators that have a blank after them only. -/
def trailingOps : List String := [",", ";", ":"]

/-- What the next token finds before it. -/
def after : Token → Before
  | word _ => .word
  | lifetime _ => .lifetime
  | op text | openOp text =>
    if spacedOps.contains text || trailingOps.contains text then .spacedOp else .op
  | group _ _ => .closed

/-- The blank, if any, that `when` calls for. -/
private def blankIf (when : Bool) : String := if when then " " else ""

/-- An operator with the blanks around it. -/
def writeOp (before : Before) (text : String) : String :=
  if trailingOps.contains text then text ++ " "
  else if spacedOps.contains text then blankIf (!before.isClear) ++ text ++ " "
  else blankIf (text == "#" && before.partsBraces) ++ text

mutual

/-- One token with the blanks that it needs after `before`. -/
def write (before : Before) : Token → String
  | word text => blankIf before.partsWords ++ text
  | lifetime name => blankIf before.partsWords ++ "'" ++ name
  | op text | openOp text => writeOp before text
  | group delimiter inner =>
    blankIf (delimiter == .brace && before.partsBraces) ++ delimiter.opening.toString ++
      writeAll .opened inner ++ delimiter.closing.toString

/-- Tokens one after the other. -/
def writeAll (before : Before) : List Token → String
  | [] => ""
  | token :: rest => token.write before ++ writeAll token.after rest

end

/-- Compact text of a list of tokens. -/
def render (tokens : List Token) : String :=
  writeAll .start (fuseAll tokens)

end Token

end VariantMerge
