import VariantMerge.Yaml.Scalar

/-!
# Cutting a YAML document into lexemes

`Yaml.lexemes?` runs the scanner over a whole text. Every step takes at least one character, so
that the length of the text bounds the number of steps.
-/

namespace VariantMerge

namespace Yaml

namespace Scanning

/-- Ends all blocks, as a document marker or directive does. -/
def endBlocks : Scanning Unit := do
  closeBlocks (-1)
  dropCandidate
  allowKey false

/-- The marker of a document's start or end. -/
def marker (lexeme : Lexeme) : Scanning Unit := do
  endBlocks
  skip 3
  emit lexeme

/-- An opening bracket. A key may begin with it, and inside of it. -/
def openFlow (lexeme : Lexeme) : Scanning Unit := do
  saveCandidate
  modify fun s => { s with flow := none :: s.flow }
  allowKey true
  skip 1
  emit lexeme

/-- A closing bracket. -/
def closeFlow (lexeme : Lexeme) : Scanning Unit := do
  dropCandidate
  modify fun s => { s with flow := s.flow.tail }
  allowKey false
  skip 1
  emit lexeme

/-- A comma in brackets. -/
def flowEntry : Scanning Unit := do
  dropCandidate
  allowKey true
  skip 1
  emit .flowEntry

/-- Opens a block for an entry at the current column, which may only stand where a key could. -/
def startEntry (lexeme : Lexeme) : Scanning Unit := do
  let s ← get
  if s.flow.isEmpty then
    if s.keyAllowed then openBlock s.column none lexeme else failure

/-- The sign of an entry of a list. -/
def blockEntry : Scanning Unit := do
  startEntry .sequenceStart
  dropCandidate
  allowKey true
  skip 1
  emit .blockEntry

/-- The sign of a key that is announced. -/
def keySign : Scanning Unit := do
  startEntry .mappingStart
  dropCandidate
  allowKey (!(← inFlow))
  skip 1
  emit .key

/-- The colon before a value. What came before it on the line is its key. -/
def valueSign : Scanning Unit := do
  match ← validCandidate? with
  | some candidate =>
    insertAt candidate.position .key
    openBlock candidate.column (some candidate.position) .mappingStart
    setCandidate none
    allowKey false
  | none =>
    startEntry .mappingStart
    allowKey (!(← inFlow))
  skip 1
  emit .value

/-- A lexeme that a key can begin with. -/
def starting (lexeme : Scanning Lexeme) : Scanning Unit := do
  saveCandidate
  allowKey false
  emit (← lexeme)

/-- A block scalar. -/
def blockLexeme (style : ScalarStyle) (literal : Bool) : Scanning Unit := do
  dropCandidate
  allowKey true
  emit (.scalar style (← blockScalar literal))

/-- The characters that do not begin a plain scalar. -/
def indicators : List Char :=
  ['-', '?', ':', ',', '[', ']', '\x7b', '\x7d', '#', '&', '*', '!', '|', '>', '\'', '"', '%', '@',
   '\x60']

/-- Whether a plain scalar begins with this character before another one. -/
def startsPlain (flow : Bool) (c : Char) (next : Option Char) : Bool :=
  (!endsWord (some c) && !indicators.contains c) ||
    (c == '-' && !next.any isBlank) ||
    (!flow && (c == '?' || c == ':') && !endsWord next)

/-- The lexeme that begins with this character. -/
def lexeme (c : Char) : Scanning Unit := do
  let s ← get
  let next ← peek 1
  let flow ← inFlow
  if s.column = 0 ∧ c = '%' then
    endBlocks
    emit (← directive)
  else if ← startsMarker '-' then marker .documentStart
  else if ← startsMarker '.' then marker .documentEnd
  else if c == '[' then openFlow .flowSequenceStart
  else if c == '\x7b' then openFlow .flowMappingStart
  else if c == ']' then closeFlow .flowSequenceEnd
  else if c == '\x7d' then closeFlow .flowMappingEnd
  else if c == ',' then flowEntry
  else if c == '-' && endsWord next then blockEntry
  else if c == '?' && (flow || endsWord next) then keySign
  else if c == ':' && (flow || endsWord next) then valueSign
  else if c == '*' then starting (do return .aliasOf (← anchorName))
  else if c == '&' then starting (do return .anchor (← anchorName))
  else if c == '!' then starting tag
  else if c == '|' && !flow then blockLexeme .literal true
  else if c == '>' && !flow then blockLexeme .folded false
  else if c == '\'' then starting (do return .scalar .quoted (← quotedScalar true))
  else if c == '"' then starting (do return .scalar .quoted (← quotedScalar false))
  else if startsPlain flow c next then
    saveCandidate
    allowKey false
    emit (.scalar .plain (← plainScalar))
  else failure

/-- Ends the last line and all blocks. -/
def finish : Scanning Unit := do
  modify fun s => if s.column = 0 then s else { s with line := s.line + 1, column := 0 }
  endBlocks

/-- All lexemes. -/
def lexemesFrom : Nat → Scanning Unit
  | 0 => failure
  | rounds + 1 => do
    space
    closeBlocks (← get).column
    match ← peek 0 with
    | none => finish
    | some c =>
      lexeme c
      lexemesFrom rounds

end Scanning

/-- A scanner at the beginning of a text. -/
def Scanner.start (chars : List Char) : Scanner where
  chars
  index := 0
  line := 0
  column := 0
  made := []
  indent := -1
  indents := []
  keyAllowed := true
  candidate := none
  flow := []

/-- The characters after a byte order mark. -/
def dropMark : List Char → List Char
  | '\ufeff' :: cs => cs
  | cs => cs

/-- The lexemes of a text, if it can be cut into lexemes. -/
def lexemes? (text : String) : Option (List Lexeme) :=
  let cs := dropMark text.toList
  if cs.all Scanning.isAllowed then
    (Scanning.lexemesFrom (cs.length + 1) (Scanner.start cs)).map fun (_, s) => s.made.reverse
  else none

end Yaml

end VariantMerge
