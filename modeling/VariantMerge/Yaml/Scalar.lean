import VariantMerge.Yaml.Lexeme

/-!
# YAML scalars

A scalar can stand on several lines. In plain and quoted ones the gap between two lines is folded:
a single line break is a blank, and of several all but the first count. Block scalars keep their
lines, or fold them in a similar way.
-/

namespace VariantMerge

namespace Yaml

namespace Scanning

/-! ## Gaps -/

/-- What stands between two parts of a scalar: blanks on one line, or a line break with those that
follow it. -/
structure Gap where
  blanks : List Char
  isBroken : Bool
  first : List Char
  more : List Char

namespace Gap

def none : Gap := ⟨[], false, [], []⟩

/-- A gap after a line break that does not count. -/
def joined : Gap := ⟨[], true, [], []⟩

/-- The text of a gap. -/
def fold (gap : Gap) : List Char :=
  if !gap.isBroken then gap.blanks
  else if gap.first = ['\n'] then
    if gap.more.isEmpty then [' '] else gap.more
  else gap.first ++ gap.more

end Gap

/-- Takes a gap. Where a line has to be indented, it may not be by tabs. -/
def gapFrom (minColumn : Int) (gap : Gap) : Nat → Scanning Gap
  | 0 => return gap
  | rounds + 1 => do
    match ← peek 0 with
    | some c =>
      if isBlank c then
        if gap.isBroken then
          if c == '\t' ∧ (← get).column < minColumn then failure
          skip 1
          gapFrom minColumn gap rounds
        else
          skip 1
          gapFrom minColumn { gap with blanks := gap.blanks ++ [c] } rounds
      else if isBreak c then
        let text ← lineBreak
        if gap.isBroken then gapFrom minColumn { gap with more := gap.more ++ text } rounds
        else gapFrom minColumn ⟨[], true, text, []⟩ rounds
      else return gap
    | none => return gap

/-- Takes a gap that has begun. -/
def gap (minColumn : Int) (begun : Gap) : Scanning Gap := do
  gapFrom minColumn begun ((← get).chars.length + 1)

/-! ## Plain scalars -/

/-- The characters that end a plain scalar in brackets. -/
def flowIndicators : List Char := [',', '[', ']', '\x7b', '\x7d']

/-- The characters of a plain scalar up to a blank or to what ends it. In brackets, a colon before
a bracket or comma is a mistake. -/
def plainPart (flow : Bool) : List Char → Option (List Char)
  | [] => some []
  | c :: rest =>
    if endsWord (some c) then some []
    else if flow && c == ':' && rest.head?.any ('?' :: flowIndicators).contains then none
    else if (c == ':' && endsWord rest.head?) || (flow && flowIndicators.contains c) then some []
    else (plainPart flow rest).map (c :: ·)

/-- Reads a plain scalar from the text that has been read and the gap after it. -/
def plainFrom (minColumn : Int) (text : List Char) (between : Gap) :
    Nat → Scanning (List Char × Gap)
  | 0 => return (text, between)
  | rounds + 1 => do
    if (← startsAnyMarker) || (← nextIs '#') then return (text, between)
    match plainPart (← inFlow) (← get).chars with
    | none => failure
    | some part =>
      skip part.length
      let (text, between) :=
        if part.isEmpty then (text, between) else (text ++ between.fold ++ part, Gap.none)
      match ← peek 0 with
      | none => return (text, between)
      | some c =>
        if isBlank c || isBreak c then
          let between ← gap minColumn between
          if !(← inFlow) && ((← get).column : Int) < minColumn then return (text, between)
          else plainFrom minColumn text between rounds
        else return (text, between)

/-- A plain scalar. A key may begin on the line after it. -/
def plainScalar : Scanning String := do
  let s ← get
  let (text, after) ← plainFrom (s.indent + 1) [] Gap.none (s.chars.length + 1)
  if after.isBroken then allowKey true
  return String.ofList text

/-! ## Quoted scalars -/

/-- The character that a letter after a backslash stands for. -/
def escapedChar? (c : Char) : Option Char :=
  [('0', '\x00'), ('a', '\x07'), ('b', '\x08'), ('t', '\t'), ('\t', '\t'), ('n', '\n'),
   ('v', '\x0b'), ('f', '\x0c'), ('r', '\r'), ('e', '\x1b'), (' ', ' '), ('"', '"'), ('/', '/'),
   ('\\', '\\'), ('N', '\x85'), ('_', '\xa0'), ('L', '\u2028'), ('P', '\u2029')].lookup c

/-- How many hexadecimal digits follow a letter after a backslash. -/
def escapedDigits? (c : Char) : Option Nat :=
  [('x', 2), ('u', 4), ('U', 8)].lookup c

/-- Reads the character after a backslash. -/
def escaped : Scanning Char := do
  match ← peek 0 with
  | none => failure
  | some c =>
    skip 1
    match escapedChar? c, escapedDigits? c with
    | some e, _ => return e
    | none, some digits =>
      let n ← hexNumber digits 0
      if n.isValidChar then return Char.ofNat n else failure
    | none, none => failure

/-- Reads characters up to a gap or the closing quote, and what the gap has begun with. -/
def quotedPart (single : Bool) : Nat → Scanning (List Char × Gap)
  | 0 => failure
  | rounds + 1 => do
    let quote := if single then '\'' else '"'
    match ← peek 0 with
    | none => return ([], Gap.none)
    | some c =>
      let next ← peek 1
      if isBlank c || isBreak c then return ([], Gap.none)
      else if single && c == '\'' && next == some '\'' then
        skip 2
        let (text, after) ← quotedPart single rounds
        return ('\'' :: text, after)
      else if c == quote then return ([], Gap.none)
      else if !single && c == '\\' then
        skip 1
        if next.any isBreak then
          let _ ← lineBreak
          return ([], Gap.joined)
        else
          let e ← escaped
          let (text, after) ← quotedPart single rounds
          return (e :: text, after)
      else
        skip 1
        let (text, after) ← quotedPart single rounds
        return (c :: text, after)

/-- Reads a quoted scalar from the inside. -/
def quotedFrom (single : Bool) : Nat → Scanning (List Char)
  | 0 => failure
  | rounds + 1 => do
    if ← startsAnyMarker then failure
    let (text, begun) ← quotedPart single ((← get).chars.length + 1)
    match ← peek 0 with
    | none => failure
    | some c =>
      if !begun.isBroken && c == (if single then '\'' else '"') then return text
      else
        let between ← gap 0 begun
        return text ++ between.fold ++ (← quotedFrom single rounds)

/-- A quoted scalar. -/
def quotedScalar (single : Bool) : Scanning String := do
  skip 1
  let text ← quotedFrom single ((← get).chars.length + 1)
  skip 1
  return String.ofList text

/-! ## Block scalars -/

/-- What happens to the line breaks at the end of a block scalar. -/
inductive Chomping where
  | strip
  | clip
  | keep
  deriving DecidableEq, Repr

/-- The indicators after the sign of a block scalar: how its end is chomped and how deep it is. -/
def blockHeader : Scanning (Chomping × Nat) := do
  let chomping? : Scanning (Option Chomping) := do
    if ← nextIs '+' then
      skip 1
      return some .keep
    else if ← nextIs '-' then
      skip 1
      return some .strip
    else return none
  let depth : Scanning Nat := do
    match ← peek 0 with
    | some c =>
      if c == '0' then failure
      else if c.isDigit then
        skip 1
        return Text.digitValue c
      else return 0
    | none => return 0
  match ← chomping? with
  | some chomping => return (chomping, ← depth)
  | none =>
    let depth ← depth
    let chomping ← (do if depth = 0 then return none else chomping?)
    return (chomping.getD .clip, depth)

/-- Takes the indentation of lines and the empty lines among them. A depth of zero is still to be
found out: the deepest indentation is told. -/
def blockBreaksFrom (depth : Nat) (deepest : Nat) : Nat → Scanning (List Char × Nat)
  | 0 => failure
  | rounds + 1 => do
    let s ← get
    let isInside (column : Nat) : Bool := depth == 0 || column < depth
    let spaces := (s.chars.takeWhile (· == ' ')).length
    skip (if depth = 0 then spaces else min spaces (depth - s.column))
    let column := (← get).column
    let deepest := max deepest column
    match ← peek 0 with
    | some c =>
      if isInside column && c == '\t' then failure
      else if isBreak c then
        let text ← lineBreak
        let (texts, deepest) ← blockBreaksFrom depth deepest rounds
        return (text ++ texts, deepest)
      else return ([], deepest)
    | none => return ([], deepest)

/-- Takes the breaks before a line of a block scalar, and finds the depth out if it is zero. -/
def blockBreaks (depth : Nat) : Scanning (List Char × Nat) := do
  let s ← get
  let (breaks, deepest) ← blockBreaksFrom depth 0 (s.chars.length + 2)
  if depth = 0 then return (breaks, max (max deepest (s.indent + 1).toNat) 1)
  else return (breaks, depth)

/-- The text of a block scalar, before its end is chomped. -/
structure BlockText where
  text : List Char
  /-- The break of the last line. -/
  leading : List Char
  /-- The empty lines after it. -/
  trailing : List Char
  /-- Whether the last line starts with a blank. -/
  isSpaced : Bool

/-- Reads the lines of a block scalar. Where they are folded, a break between two lines that do
not start with a blank is a blank, unless empty lines are between them. -/
def blockLinesFrom (literal : Bool) (depth : Nat) (read : BlockText) : Nat → Scanning BlockText
  | 0 => return read
  | rounds + 1 => do
    match ← peek 0 with
    | none => return read
    | some c =>
      if (← get).column ≠ depth then return read
      else
        let isSpaced := isBlank c
        let joint : List Char :=
          if !literal && read.leading == ['\n'] && !read.isSpaced && !isSpaced then
            if read.trailing.isEmpty then [' '] else []
          else read.leading
        let line ← takeWhile (!isBreak ·)
        let leading ← (do if (← peek 0).isSome then lineBreak else return [])
        let (trailing, _) ← blockBreaks depth
        blockLinesFrom literal depth
          ⟨read.text ++ joint ++ read.trailing ++ line, leading, trailing, isSpaced⟩ rounds

/-- A block scalar. -/
def blockScalar (literal : Bool) : Scanning String := do
  skip 1
  let (chomping, given) ← blockHeader
  let _ ← takeWhile isBlank
  comment
  match ← peek 0 with
  | none => pure ()
  | some c =>
    if isBreak c then
      let _ ← lineBreak
    else failure
  let indent := (← get).indent
  let depth := if given = 0 then 0 else if 0 ≤ indent then indent.toNat + given else given
  let (breaks, depth) ← blockBreaks depth
  let read ← blockLinesFrom literal depth ⟨[], [], breaks, false⟩ ((← get).chars.length + 1)
  let ending : List Char :=
    match chomping with
    | .strip => []
    | .clip => read.leading
    | .keep => read.leading ++ read.trailing
  return String.ofList (read.text ++ ending)

end Scanning

end Yaml

end VariantMerge
