import VariantMerge.Config
import VariantMerge.Failure
import VariantMerge.Text.Blank

/-!
# Writing indented source text

A writer collects lines and knows which scopes are open. Each line is indented once for every open
scope. Text is complete only when every scope has been closed.
-/

namespace VariantMerge

/-- The lines written so far, and the headers of the open scopes, innermost first. -/
structure SourceWriter where
  unit : String
  lines : List String
  scopes : List String
  deriving DecidableEq, Repr, Inhabited

namespace SourceWriter

/-- A writer without text, unless one level of indentation is longer than any text. -/
def new (indent : Indent) : Except Failure SourceWriter :=
  match indent.unit? with
  | some unit => .ok ⟨unit, [], []⟩
  | none => .error .oversizedIndent

/-- How many scopes are open. -/
def depth (w : SourceWriter) : Nat :=
  w.scopes.length

/-- The text written so far. -/
def text (w : SourceWriter) : String :=
  String.join (w.lines.map (· ++ "\n"))

/-- Writes a line at the current depth. An empty line is not indented. -/
def line (w : SourceWriter) (text : String) : SourceWriter :=
  if text.isEmpty then { w with lines := w.lines ++ [""] }
  else
    { w with lines := w.lines ++ [String.join (List.replicate w.depth w.unit) ++ text] }

/-- Whether an empty line may follow: there is text, and it ends neither with an empty line after
another one nor with an opening brace. -/
def takesBlank (w : SourceWriter) : Bool :=
  match w.lines.getLast? with
  | none => false
  | some last =>
    match last.toList.getLast? with
    | none => w.lines.length == 1
    | some c => c != '\n' && c != '\x7b'

/-- Writes an empty line where one may follow. -/
def blank (w : SourceWriter) : SourceWriter :=
  if w.takesBlank then w.line "" else w

/-- Opens a scope: its header, a brace, and one more level for what follows. -/
def beginScope (w : SourceWriter) (header : String) : SourceWriter :=
  let opened := w.line (if header.isEmpty then "\x7b" else header ++ " \x7b")
  { opened with scopes := header :: w.scopes }

/-- The brace that closes the innermost scope, with a suffix after it. -/
def close (w : SourceWriter) (suffix : String) : SourceWriter :=
  { w with scopes := w.scopes.tail }.line ("\x7d" ++ suffix)

/-- Closes the innermost scope, if one is open. -/
def endScopeWith (w : SourceWriter) (suffix : String) : Except Failure SourceWriter :=
  match w.scopes with
  | [] => .error (.internal .unopenedScope)
  | _ :: _ => .ok (w.close suffix)

/-- Closes the innermost scope. -/
def endScope (w : SourceWriter) : Except Failure SourceWriter :=
  w.endScopeWith ""

/-- The words that are not empty, with blanks between them. -/
def joinWords (words : List String) : String :=
  String.intercalate " " (words.filter fun word => !word.isEmpty)

/-- A visibility with a blank after it, or nothing. -/
def visibilityPrefix (visibility : String) : String :=
  if visibility.isEmpty then "" else visibility ++ " "

/-- Opens a module. -/
def beginModule (w : SourceWriter) (visibility name : String) : SourceWriter :=
  w.beginScope (joinWords [visibility, "mod", name])

/-- The trimmed texts that are not empty, each where it stands first. -/
def distinctTrimmed (texts : List String) : List String :=
  ((texts.map fun text => String.ofList (Text.trim text.toList)).filter
    fun text => !text.isEmpty).eraseDups

/-- Writes imports, without blank ones and repetitions. -/
def uses (w : SourceWriter) (texts : List String) : SourceWriter :=
  (distinctTrimmed texts).foldl line w

/-- Writes an attribute. -/
def attr (w : SourceWriter) (body : String) : SourceWriter :=
  w.line ("#[" ++ body ++ "]")

/-- Writes the list of derived traits, unless it is empty. -/
def derives (w : SourceWriter) (names : List String) : SourceWriter :=
  if names.isEmpty then w else w.attr ("derive(" ++ String.intercalate ", " names ++ ")")

/-- Writes an enumeration of names. -/
def enumeration (w : SourceWriter) (visibility name : String) (members : List String) :
    SourceWriter :=
  (members.foldl (fun w member => w.line (member ++ ","))
    (w.beginScope (joinWords [visibility, "enum", name]))).close ""

/-- Writes an enumeration of names, whose scope the writer is asked to close. -/
def emitEnumeration (w : SourceWriter) (visibility name : String) (members : List String) :
    Except Failure SourceWriter :=
  let opened := w.beginScope (joinWords [visibility, "enum", name])
  (members.foldl (fun w member => w.line (member ++ ",")) opened).endScope

/-- A field as it is written in a struct. -/
def fieldText (visibility name type : String) : String :=
  visibilityPrefix visibility ++ name ++ ": " ++ type ++ ","

/-- Writes a field. -/
def field (w : SourceWriter) (visibility name type : String) : SourceWriter :=
  w.line (fieldText visibility name type)

/-- A local binding. -/
def bindingText (isMut : Bool) (name value : String) : String :=
  (if isMut then "let mut " else "let ") ++ name ++ " = " ++ value ++ ";"

/-- Writes a local binding. -/
def binding (w : SourceWriter) (isMut : Bool) (name value : String) : SourceWriter :=
  w.line (bindingText isMut name value)

/-! ## Blocks of lines -/

/-- How many bytes of a line its blank beginning takes. -/
def indentSize (cs : List Char) : Nat :=
  (cs.takeWhile Text.isBlank).foldr (fun c size => c.utf8Size + size) 0

/-- The smallest blank beginning of the lines that are not blank, in bytes. -/
def commonIndent (lines : List (List Char)) : Nat :=
  ((lines.filter fun cs => !cs.all Text.isBlank).map indentSize).min?.getD 0

/-- The characters after this many bytes, unless that is inside of a character. -/
def dropBytes? : Nat → List Char → Option (List Char)
  | 0, cs => some cs
  | _ + 1, [] => none
  | n + 1, c :: rest => if c.utf8Size ≤ n + 1 then dropBytes? (n + 1 - c.utf8Size) rest else none

/-- A line of a block without the common beginning and without blanks at its end. -/
def blockLine? (common : Nat) (cs : List Char) : Option String :=
  if cs.all Text.isBlank then some ""
  else (dropBytes? common cs).map fun rest => String.ofList (Text.trimEnd rest)

/-- The lines of a block as they are written at any depth. -/
def blockLines? (text : String) : Option (List String) :=
  let lines := Text.lines text.toList
  lines.mapM (blockLine? (commonIndent lines))

/-- Writes a block of lines, which keep their indentation among each other. There is no writer
after a block whose common beginning ends inside of a character. -/
def block? (w : SourceWriter) (text : String) : Option SourceWriter :=
  (blockLines? text).map fun lines => lines.foldl line w

/-- The complete text. -/
def finish (w : SourceWriter) : Except Failure String :=
  match w.scopes with
  | [] => .ok w.text
  | innermost :: _ => .error (.internal (.openScopes w.depth innermost))

end SourceWriter

end VariantMerge
