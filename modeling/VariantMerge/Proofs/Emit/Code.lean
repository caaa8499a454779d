import VariantMerge.Writer

/-!
# Emitted code

Emitted code is a tree of lines and scopes. It is emitted line by line: a scope is opened, its body is
emitted, and the writer is asked to close a scope, which it refuses if none is open. The emitters of the
generator know of no such trees: they open and close scopes themselves.
-/

namespace VariantMerge

/-- A piece of emitted code. -/
inductive Code where
  | line (text : String)
  | blank
  | scope (header : String) (body : List Code)
  deriving Repr, Inhabited

namespace Code

mutual

/-- Emits a piece of code at the writer's depth. -/
def emit (w : SourceWriter) : Code → Except Failure SourceWriter
  | line text => .ok (w.line text)
  | blank => .ok w.blank
  | scope header body => do (← emitAll (w.beginScope header) body).endScope

/-- Emits pieces of code one after the other. -/
def emitAll (w : SourceWriter) : List Code → Except Failure SourceWriter
  | [] => .ok w
  | code :: rest => do emitAll (← code.emit w) rest

end

mutual

/-- The writer after a piece of code, if the scope that it closes is always its own. -/
def write (w : SourceWriter) : Code → SourceWriter
  | line text => w.line text
  | blank => w.blank
  | scope header body => (writeAll (w.beginScope header) body).close ""

/-- The writer after pieces of code. -/
def writeAll (w : SourceWriter) : List Code → SourceWriter
  | [] => w
  | code :: rest => writeAll (code.write w) rest

end

/-- The text of code that stands by itself. -/
def text (indent : Indent) (codes : List Code) : Except Failure String := do
  (← emitAll (← SourceWriter.new indent) codes).finish

/-- An attribute. -/
def attr (body : String) : Code :=
  line ("#[" ++ body ++ "]")

/-- The list of derived traits, unless it is empty. -/
def derives (names : List String) : List Code :=
  if names.isEmpty then [] else [attr ("derive(" ++ String.intercalate ", " names ++ ")")]

/-- Pieces of code with an empty line between each two of them. -/
def spaced : List Code → List Code
  | [] => []
  | [code] => [code]
  | code :: next :: rest => code :: blank :: spaced (next :: rest)

end Code

end VariantMerge
