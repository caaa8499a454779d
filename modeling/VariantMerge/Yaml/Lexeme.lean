import VariantMerge.Text.Digit

/-!
# YAML lexemes

A YAML document is cut into lexemes before it is read. Indentation becomes explicit here: a block
is opened by a lexeme where its first entry is indented, and closed where the indentation goes
back. A key is only known as one by the colon after it, so the lexeme that announces a key is put
in front of what has been read already.

The scanner keeps the place where a key could begin. A candidate has to be followed by its colon on
the same line, and within 1024 bytes.
-/

namespace VariantMerge

namespace Yaml

/-- How a scalar is written. -/
inductive ScalarStyle where
  | plain
  | quoted
  | literal
  | folded
  deriving DecidableEq, Repr, Inhabited

/-- A lexeme of a document. A tag is given by its handle and what follows it, which is missing where
its percent signs spell no character. -/
inductive Lexeme where
  | version (major minor : Nat)
  | tagPrefix (handle : String) (replacement : Option String)
  | documentStart
  | documentEnd
  | sequenceStart
  | mappingStart
  | blockEnd
  | flowSequenceStart
  | flowSequenceEnd
  | flowMappingStart
  | flowMappingEnd
  | blockEntry
  | flowEntry
  | key
  | value
  | aliasOf (name : String)
  | anchor (name : String)
  | tag (handle : String) (suffix : Option String)
  | scalar (style : ScalarStyle) (text : String)
  deriving DecidableEq, Repr, Inhabited

/-- A place where a key could begin: how many lexemes and bytes are before it, and where it is. A
candidate that has to be a key is required. -/
structure Candidate where
  position : Nat
  required : Bool
  index : Nat
  line : Nat
  column : Nat
  deriving Repr

/-- What is left of a text, where it is, and what has been found so far. -/
structure Scanner where
  chars : List Char
  /-- How many bytes are before it. -/
  index : Nat
  line : Nat
  column : Nat
  /-- The lexemes, last first. -/
  made : List Lexeme
  /-- The column of the innermost block, or -1 outside of all blocks. -/
  indent : Int
  /-- The columns of the blocks around it. -/
  indents : List Int
  keyAllowed : Bool
  /-- The candidate at the outermost level. -/
  candidate : Option Candidate
  /-- The candidates of the levels around the current one, innermost first. The first belongs to
  the innermost open bracket. -/
  flow : List (Option Candidate)
  deriving Repr

/-- A computation that moves a scanner, or fails. -/
abbrev Scanning := StateT Scanner Option

namespace Scanning

/-! ## Characters -/

def isBlank (c : Char) : Bool := c == ' ' || c == '\t'

def isBreak (c : Char) : Bool :=
  c == '\n' || c == '\r' || c == '\x85' || c == '\u2028' || c == '\u2029'

/-- Whether a character ends a word: a blank, a line break, or the end of the text. -/
def endsWord : Option Char → Bool
  | none => true
  | some c => isBlank c || isBreak c

/-- The characters that a document may have. -/
def isAllowed (c : Char) : Bool :=
  let n := c.toNat
  n == 0x9 || n == 0xA || n == 0xD || (0x20 ≤ n && n ≤ 0x7E) || n == 0x85 ||
    (0xA0 ≤ n && n ≤ 0xFFFD) || 0x10000 ≤ n

/-- The character this far ahead. -/
def peek (offset : Nat) : Scanning (Option Char) := do
  return (← get).chars[offset]?

/-- Whether the next character is this one. -/
def nextIs (c : Char) : Scanning Bool := do
  return (← peek 0) == some c

/-- How many bytes these characters take. -/
def byteCount (cs : List Char) : Nat :=
  cs.foldl (fun n c => n + c.utf8Size) 0

/-- Takes this many characters of the current line. -/
def skip (n : Nat) : Scanning Unit :=
  modify fun s =>
    { s with
      chars := s.chars.drop n
      index := s.index + byteCount (s.chars.take n)
      column := s.column + n }

/-- Takes the characters of a class. -/
def takeWhile (p : Char → Bool) : Scanning (List Char) := do
  let cs := (← get).chars.takeWhile p
  skip cs.length
  return cs

/-- Takes a line break. All but two rare ones are read as a line feed. -/
def lineBreak : Scanning (List Char) := do
  let s ← get
  let (text, length) : List Char × Nat :=
    match s.chars with
    | '\r' :: '\n' :: _ => (['\n'], 2)
    | c :: _ => if c == '\u2028' || c == '\u2029' then ([c], 1) else (['\n'], 1)
    | [] => ([], 0)
  set { s with
    chars := s.chars.drop length
    index := s.index + byteCount (s.chars.take length)
    line := s.line + 1
    column := 0 }
  return text

/-- Takes a comment up to the end of its line. -/
def comment : Scanning Unit := do
  if ← nextIs '#' then
    let _ ← takeWhile (!isBreak ·)

/-! ## Levels and lexemes -/

def inFlow : Scanning Bool := do
  return !(← get).flow.isEmpty

/-- Adds a lexeme. -/
def emit (lexeme : Lexeme) : Scanning Unit :=
  modify fun s => { s with made := lexeme :: s.made }

/-- Puts a lexeme behind the first so many. -/
def insertAt (position : Nat) (lexeme : Lexeme) : Scanning Unit :=
  modify fun s =>
    let later := s.made.length - position
    { s with made := s.made.take later ++ lexeme :: s.made.drop later }

def allowKey (allowed : Bool) : Scanning Unit :=
  modify fun s => { s with keyAllowed := allowed }

/-- Opens a block at a column that is deeper than the one around it. -/
def openBlock (column : Nat) (position : Option Nat) (lexeme : Lexeme) : Scanning Unit := do
  let s ← get
  if s.flow.isEmpty ∧ s.indent < column then
    set { s with indent := column, indents := s.indent :: s.indents }
    match position with
    | some position => insertAt position lexeme
    | none => emit lexeme

/-- The blocks that stay open at a column, and how many end. -/
def closed (column : Int) (indent : Int) : List Int → Int × List Int × Nat
  | [] => (indent, [], 0)
  | outer :: rest =>
    if column < indent then
      let (indent, indents, count) := closed column outer rest
      (indent, indents, count + 1)
    else (indent, outer :: rest, 0)

/-- Closes all blocks that are deeper than a column. -/
def closeBlocks (column : Int) : Scanning Unit := do
  let s ← get
  if s.flow.isEmpty then
    let (indent, indents, count) := closed column s.indent s.indents
    set { s with indent, indents, made := List.replicate count Lexeme.blockEnd ++ s.made }

/-! ## Candidates for keys -/

/-- The candidate of the current level. -/
def candidate? : Scanning (Option Candidate) := do
  let s ← get
  match s.flow with
  | innermost :: _ => return innermost
  | [] => return s.candidate

def setCandidate (candidate : Option Candidate) : Scanning Unit :=
  modify fun s =>
    match s.flow with
    | _ :: rest => { s with flow := candidate :: rest }
    | [] => { s with candidate }

/-- The candidate of the current level that can still be a key. One that can not, but is required,
is a mistake. -/
def validCandidate? : Scanning (Option Candidate) := do
  let s ← get
  match ← candidate? with
  | none => return none
  | some candidate =>
    if candidate.line < s.line ∨ candidate.index + 1024 < s.index then
      if candidate.required then failure
      else
        setCandidate none
        return none
    else return some candidate

/-- Gives the candidate up. -/
def dropCandidate : Scanning Unit := do
  match ← candidate? with
  | none => return ()
  | some candidate => if candidate.required then failure else setCandidate none

/-- Remembers the current place as one where a key could begin. -/
def saveCandidate : Scanning Unit := do
  let s ← get
  if s.keyAllowed then
    dropCandidate
    setCandidate (some
      { position := s.made.length
        required := s.flow.isEmpty && s.indent == s.column
        index := s.index, line := s.line, column := s.column })

/-! ## Between lexemes -/

/-- Skips blanks, comments and line breaks. A line break outside of brackets lets a key begin, and
a tab may not stand where one could. A byte order mark may begin any line. -/
def spaceFrom : Nat → Scanning Unit
  | 0 => return ()
  | rounds + 1 => do
    if (← get).column == 0 && (← nextIs '\ufeff') then skip 1
    let s ← get
    let tabs := !s.flow.isEmpty || !s.keyAllowed
    let _ ← takeWhile fun c => c == ' ' || (tabs && c == '\t')
    comment
    match ← peek 0 with
    | some c =>
      if isBreak c then
        let _ ← lineBreak
        if s.flow.isEmpty then allowKey true
        spaceFrom rounds
    | none => return ()

def space : Scanning Unit := do
  spaceFrom ((← get).chars.length + 1)

/-- Whether a line of three such characters alone is here. -/
def startsMarker (c : Char) : Scanning Bool := do
  let s ← get
  match s.chars with
  | c₁ :: c₂ :: c₃ :: rest =>
    return s.column == 0 && c₁ == c && c₂ == c && c₃ == c && endsWord rest.head?
  | _ => return false

/-- Whether a document starts or ends here. -/
def startsAnyMarker : Scanning Bool := do
  if ← startsMarker '-' then return true else startsMarker '.'

/-! ## Directives, anchors and tags -/

/-- The characters of names. -/
def isNameChar (c : Char) : Bool :=
  c.isAlphanum || c == '_' || c == '-'

/-- A name that is not empty. -/
def name : Scanning String := do
  let cs ← takeWhile isNameChar
  if cs.isEmpty then failure else return String.ofList cs

/-- A number of at most nine digits. -/
def number : Scanning Nat := do
  let cs ← takeWhile Char.isDigit
  if cs.isEmpty ∨ 9 < cs.length then failure
  else return Text.numberOf 10 cs

/-- Fails where a word goes on. -/
def wordEnd : Scanning Unit := do
  if endsWord (← peek 0) then return () else failure

/-- A number in this many hexadecimal digits. -/
def hexNumber : Nat → Nat → Scanning Nat
  | 0, n => return n
  | digits + 1, n => do
    match ← peek 0 with
    | some c =>
      if Text.isHexDigit c then
        skip 1
        hexNumber digits (n * 16 + Text.digitValue c)
      else failure
    | none => failure

/-- A byte after a percent sign. -/
def percentByte : Scanning Nat := do
  if ← nextIs '%' then
    skip 1
    hexNumber 2 0
  else failure

/-- How many bytes a character has that starts with this byte, and what the byte says of it. -/
def leadByte? (byte : Nat) : Option (Nat × Nat) :=
  if byte < 0x80 then some (1, byte)
  else if byte < 0xC0 then none
  else if byte < 0xE0 then some (2, byte - 0xC0)
  else if byte < 0xF0 then some (3, byte - 0xE0)
  else if byte < 0xF8 then some (4, byte - 0xF0)
  else none

/-- The number that this many more bytes after percent signs go on with. -/
def percentRest : Nat → Nat → Scanning Nat
  | 0, n => return n
  | bytes + 1, n => do
    let byte ← percentByte
    if byte / 0x40 = 2 then percentRest bytes (n * 0x40 + byte % 0x40) else failure

/-- The character that bytes after percent signs spell. Bytes can have the shape of a character
and yet spell none. -/
def percentChar : Scanning (Option Char) := do
  match leadByte? (← percentByte) with
  | none => failure
  | some (length, high) =>
    let n ← percentRest (length - 1) high
    if n.isValidChar ∧ (Char.ofNat n).utf8Size = length then return some (Char.ofNat n)
    else return none

/-- The characters of tags that stand for themselves. -/
def isTagChar (verbatim : Bool) (c : Char) : Bool :=
  isNameChar c || [';', '/', '?', ':', '@', '&', '=', '+', '$', '.', '!', '~', '*', '\'', '(',
    ')'].contains c || (verbatim && [',', '[', ']'].contains c)

/-- What two parts of a tag are together, if both spell a text. -/
def joinParts (front back : Option (List Char)) : Option (List Char) :=
  match front, back with
  | some front, some back => some (front ++ back)
  | _, _ => none

def tagTextFrom (verbatim : Bool) : Nat → Scanning (Option (List Char))
  | 0 => return some []
  | rounds + 1 => do
    if ← nextIs '%' then
      let c ← percentChar
      return joinParts (c.map ([·])) (← tagTextFrom verbatim rounds)
    else
      let cs ← takeWhile (isTagChar verbatim)
      if cs.isEmpty then return some []
      else return joinParts (some cs) (← tagTextFrom verbatim rounds)

/-- The text of a tag, which is missing where its percent signs spell none. -/
def tagText (verbatim : Bool) : Scanning (Option String) := do
  return (← tagTextFrom verbatim ((← get).chars.length + 1)).map String.ofList

/-- A handle: an exclamation mark, perhaps with a name and a second one. -/
def tagHandle : Scanning String := do
  if ← nextIs '!' then
    skip 1
    let cs ← takeWhile isNameChar
    if ← nextIs '!' then
      skip 1
      return String.ofList ('!' :: cs ++ ['!'])
    else return String.ofList ('!' :: cs)
  else failure

/-- What a directive says. -/
def directive : Scanning Lexeme := do
  skip 1
  let kind ← name
  wordEnd
  let blanks : Scanning Unit := do
    let _ ← takeWhile isBlank
  blanks
  let lexeme ← (do
    if kind = "YAML" then
      let major ← number
      if !(← nextIs '.') then failure
      skip 1
      return .version major (← number)
    else if kind = "TAG" then
      let handle ← tagHandle
      if handle.toList.getLast? = some '!' then
        if !((← peek 0).any isBlank) then failure
        blanks
        let text ← tagText true
        wordEnd
        if text = some "" then failure
        return .tagPrefix handle text
      else failure
    else failure)
  blanks
  comment
  match ← peek 0 with
  | none => return lexeme
  | some c =>
    if isBreak c then
      let _ ← lineBreak
      return lexeme
    else failure

/-- The name of an anchor or alias. -/
def anchorName : Scanning String := do
  skip 1
  let text ← name
  let next ← peek 0
  if endsWord next || next.any ['?', ':', ',', ']', '\x7d', '%', '@', '\x60'].contains then
    return text
  else failure

/-- A tag. -/
def tag : Scanning Lexeme := do
  let lexeme ← (do
    if (← peek 1) == some '<' then
      skip 2
      let text ← tagText true
      if text = some "" ∨ !(← nextIs '>') then failure
      skip 1
      return .tag "" text
    else
      let handle ← tagHandle
      if 1 < handle.length ∧ handle.toList.getLast? = some '!' then
        let text ← tagText false
        if text = some "" then failure else return .tag handle text
      else
        let text := (← tagText false).map (String.ofList (handle.toList.drop 1) ++ ·)
        if text = some "" then return .tag "" (some "!") else return .tag "!" text)
  let next ← peek 0
  if endsWord next || ((← inFlow) && next == some ',') then return lexeme else failure

end Scanning

end Yaml

end VariantMerge
