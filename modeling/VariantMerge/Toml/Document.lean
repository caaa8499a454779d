import VariantMerge.Text.Digit
import VariantMerge.Text.Reading
import VariantMerge.Toml.Table

/-!
# Reading TOML

`Toml.parse?` reads a document as a table. The document is a list of sections, each of them a
header with the values below it; the first has no header.
-/

namespace VariantMerge

namespace Toml

open Reading

/-! ## Blanks and comments -/

def isBlank (c : Char) : Bool := c == ' ' || c == '\t'

/-- The characters that may stand for themselves: all but controls other than the tab. -/
def isPlain (c : Char) : Bool :=
  c == '\t' || (0x20 ≤ c.toNat && c.toNat != 0x7F)

def blanks : Reading Unit := do
  let _ ← run isBlank

/-- Takes the end of a line. -/
def lineBreak : Reading Unit :=
  either (exactly "\n") (exactly "\r\n")

/-- Takes a comment, if one is there. -/
def comment : Reading Unit := do
  if ← taken? "#" then
    let _ ← run isPlain

/-- Takes the rest of a line after what stands on it. -/
def lineEnd : Reading Unit := do
  blanks
  comment
  if ← atEnd then return () else lineBreak

/-- Takes blanks, comments and line breaks. -/
def space : Reading Unit := do
  let _ ← many (either
    (do
      let _ ← run₁ isBlank)
    (either lineBreak (do
      exactly "#"
      let _ ← run isPlain)))

/-! ## Strings -/

/-- A character by its code point in this many digits. -/
def codePoint (digits : Nat) : Reading Char := do
  let n := Text.numberOf 16 (← times digits Text.isHexDigit)
  if n.isValidChar then return Char.ofNat n else failure

/-- What follows a backslash. -/
def escaped : Reading Char := do
  match ← any with
  | 'b' => return '\x08'
  | 't' => return '\t'
  | 'n' => return '\n'
  | 'f' => return '\x0c'
  | 'r' => return '\r'
  | '"' => return '"'
  | '\\' => return '\\'
  | 'u' => codePoint 4
  | 'U' => codePoint 8
  | _ => failure

/-- A part of a string on one line. -/
def linePart (raw : Bool) (quote : Char) : Reading Char := do
  let c ← any
  if c == quote || !isPlain c then failure
  else if c == '\\' && !raw then escaped
  else return c

/-- A string on one line. One in single quotes has no escapes. -/
def lineString (raw : Bool) (quote : Char) : Reading String := do
  exactly quote.toString
  let cs ← many (linePart raw quote)
  exactly quote.toString
  return String.ofList cs

/-- Whether there is an end of a line before any other character than blanks. -/
def startsBreak (cs : List Char) : Bool :=
  match cs.dropWhile isBlank with
  | '\n' :: _ | '\r' :: '\n' :: _ => true
  | _ => false

/-- A part of a string on several lines. A backslash at the end of a line takes the blanks and
line breaks after it away. Up to two quotes are part of the text. -/
def blockPart (raw : Bool) (quote : Char) : Reading (List Char) := do
  if ← looks (String.ofList (List.replicate 3 quote)) then failure
  let c ← any
  if c == '\\' && !raw then
    if startsBreak (← ahead) then
      let _ ← many (either (do
        let _ ← run₁ isBlank) lineBreak)
      return []
    else return [← escaped]
  else if c == '\n' then return ['\n']
  else if c == '\r' then
    exactly "\n"
    return ['\n']
  else if isPlain c then return [c]
  else failure

/-- A string on several lines. A line break directly after the opening quotes does not count, and
two more quotes before the closing ones do. -/
def blockString (raw : Bool) (quote : Char) : Reading String := do
  let three := String.ofList (List.replicate 3 quote)
  exactly three
  let _ ← attempt lineBreak
  let parts ← many (blockPart raw quote)
  let quotes ← run (· == quote)
  if 3 ≤ quotes.length ∧ quotes.length ≤ 5 then
    return String.ofList (parts.flatten ++ List.replicate (quotes.length - 3) quote)
  else failure

/-- A string of any form. -/
def string : Reading String := do
  if ← looks "\"\"\"" then blockString false '"'
  else if ← looks "\"" then lineString false '"'
  else if ← looks "'''" then blockString true '\''
  else lineString true '\''

/-! ## Keys -/

def isKeyChar (c : Char) : Bool :=
  c.isAlphanum || c == '_' || c == '-'

def simpleKey : Reading String := do
  if ← looks "\"" then lineString false '"'
  else if ← looks "'" then lineString true '\''
  else return String.ofList (← run₁ isKeyChar)

/-- How deep tables and values may be nested: a key has fewer parts than this, and a value lies in
fewer brackets. -/
def depthLimit : Nat := 80

/-- A key with its dots: what leads to the last part, and the last part. -/
def key : Reading (List String × String) := do
  let part : Reading String := do
    blanks
    let part ← simpleKey
    blanks
    return part
  let first ← part
  let rest ← many (do
    exactly "."
    part)
  if depthLimit ≤ rest.length + 1 then failure
  match (first :: rest).reverse with
  | last :: path => return (path.reverse, last)
  | [] => failure

/-! ## Numbers and dates -/

/-- Digits with single underscores between them. -/
def digits (p : Char → Bool) : Reading (List Char) := do
  let first ← run₁ p
  let rest ← many (do
    exactly "_"
    run₁ p)
  return first ++ rest.flatten

def sign : Reading Bool := do
  if ← taken? "-" then return true
  else
    let _ ← taken? "+"
    return false

/-- A decimal number without leading zeros. -/
def decimal : Reading Nat := do
  if ← taken? "0" then return 0
  else return Text.numberOf 10 (← digits Char.isDigit)

/-- The integers that a value can be are those of 64 bits. -/
def inRange (n : Int) : Bool :=
  -9223372036854775808 ≤ n && n ≤ 9223372036854775807

/-- An integer. -/
def integer : Reading Value := do
  let based (base : Nat) (p : Char → Bool) : Reading Int := do
    return Text.numberOf base (← digits p)
  let n ← (do
    if ← taken? "0x" then based 16 Text.isHexDigit
    else if ← taken? "0o" then based 8 fun c => '0' ≤ c && c ≤ '7'
    else if ← taken? "0b" then based 2 fun c => c == '0' || c == '1'
    else
      let negative ← sign
      let n ← decimal
      return if negative then -(n : Int) else (n : Int))
  if inRange n then return .integer n else failure

def exponent : Reading Int := do
  let c ← any
  if c == 'e' || c == 'E' then
    let negative ← sign
    let n := Text.numberOf 10 (← digits Char.isDigit)
    return if negative then -(n : Int) else (n : Int)
  else failure

/-- The least number that is nearer to two to the power of 1024 than to any number with a fraction
of 53 bits below it, or as near. -/
def overflowBound : Nat := Nat.pow 2 1024 - Nat.pow 2 970

/-- Whether the number with these digits, shifted by a power of ten, is too large for the numbers
with a fraction. The count of its digits decides unless it has 309 of them before the point. -/
def overflows (digits : Nat) (shift : Int) : Bool :=
  let length := (Nat.toDigits 10 digits).length + shift
  if digits = 0 then false
  else if length ≠ 309 then 309 < length
  else overflowBound * Nat.pow 10 (-shift).toNat ≤ digits * Nat.pow 10 shift.toNat

/-- A number with a fraction or an exponent, or one that is none. It may be too small to be told
from minus infinity, but not too large to be told from infinity. -/
def float : Reading Value := do
  let negative ← sign
  if ← taken? "inf" then return .scalar
  else if ← taken? "nan" then return .scalar
  else
    let whole ← decimal
    let (digits, shift) ← (do
      if ← taken? "." then
        let fraction ← digits Char.isDigit
        let shift := (← attempt exponent).getD 0
        return (fraction.foldl (fun n c => n * 10 + Text.digitValue c) whole,
          shift - fraction.length)
      else return (whole, ← exponent))
    if !negative && overflows digits shift then failure else return .scalar

/-- A number in this many digits between two bounds. -/
def between (width low high : Nat) : Reading Nat := do
  let n := Text.numberOf 10 (← times width Char.isDigit)
  if low ≤ n ∧ n ≤ high then return n else failure

/-- The number of days of a month. -/
def daysIn (year month : Nat) : Nat :=
  if month = 2 then
    if year % 4 = 0 ∧ (year % 100 ≠ 0 ∨ year % 400 = 0) then 29 else 28
  else if month = 4 ∨ month = 6 ∨ month = 9 ∨ month = 11 then 30
  else 31

def date : Reading Unit := do
  let year ← between 4 0 9999
  exactly "-"
  let month ← between 2 1 12
  exactly "-"
  let _ ← between 2 1 (daysIn year month)

def time : Reading Unit := do
  let _ ← between 2 0 23
  exactly ":"
  let _ ← between 2 0 59
  exactly ":"
  let _ ← between 2 0 60
  let _ ← attempt (do
    exactly "."
    run₁ Char.isDigit)

/-- How far a time is from that of the zero meridian. -/
def offset : Reading Unit := do
  let c ← any
  if c == 'Z' || c == 'z' then return ()
  else if c == '+' || c == '-' then
    let _ ← between 2 0 23
    exactly ":"
    let _ ← between 2 0 59
  else failure

/-- A date, a time, or both. -/
def moment : Reading Value :=
  either
    (do
      date
      let _ ← attempt (do
        let c ← any
        if c == 'T' || c == 't' || c == ' ' then
          time
          let _ ← attempt offset
        else failure)
      return .scalar)
    (do
      time
      return .scalar)

/-! ## Values -/

/-- Parts with commas between them; the last may have one after it. -/
def listed (part : Reading α) : Nat → Reading (List α)
  | 0 => failure
  | rounds + 1 => do
    space
    match ← attempt part with
    | none => return []
    | some a =>
      space
      if ← taken? "," then return a :: (← listed part rounds) else return [a]

/-- Entries with commas between them, on one line. -/
def entryList (entry : Reading α) : Nat → Reading (List α)
  | 0 => failure
  | rounds + 1 => do
    let a ← entry
    blanks
    if ← taken? "," then return a :: (← entryList entry rounds) else return [a]

/-- A value without brackets. -/
def simpleValue : Reading Value := do
  if (← looks "\"") || (← looks "'") then return .text (← string)
  else if ← taken? "true" then return .flag true
  else if ← taken? "false" then return .flag false
  else either moment (either float integer)

/-- A value that lies in at most this many brackets. -/
def value : Nat → Reading Value
  | 0 => simpleValue
  | depth + 1 => do
    if ← taken? "[" then
      let items ← listed (value depth) ((← ahead).length + 1)
      exactly "]"
      return .array items
    else if ← taken? "\x7b" then
      blanks
      if ← taken? "\x7d" then return .table []
      else
        let values ← entryList (do
          let (path, name) ← key
          exactly "="
          blanks
          return (path, name, ← value depth)) ((← ahead).length + 1)
        blanks
        exactly "\x7d"
        match Entries.addValues [] values with
        | some entries => return .table (entriesToValues entries)
        | none => failure
    else simpleValue

/-! ## Documents -/

/-- Where the values of a section go. -/
inductive Header where
  | table (path : List String) (key : String)
  | element (path : List String) (key : String)

/-- A header on its line. -/
def header : Reading Header := do
  exactly "["
  let isElement ← taken? "["
  let (path, key) ← key
  exactly (if isElement then "]]" else "]")
  lineEnd
  return if isElement then .element path key else .table path key

/-- A key with its value on a line. -/
def assignment : Reading (List String × String × Value) := do
  let (path, key) ← key
  exactly "="
  blanks
  let value ← value (depthLimit - 1)
  lineEnd
  return (path, key, value)

/-- The values up to the next header. -/
def assignments : Reading (List (List String × String × Value)) := do
  space
  many (do
    let entry ← assignment
    space
    return entry)

/-- A header with its values. -/
def headedSection : Reading (Header × List (List String × String × Value)) := do
  let head ← header
  return (head, ← assignments)

/-- All sections of a document. -/
def document : Reading (List (List String × String × Value) ×
    List (Header × List (List String × String × Value))) := do
  let _ ← taken? "\ufeff"
  let first ← assignments
  return (first, ← many headedSection)

/-- Adds a section to what was read before it. -/
def addSection (root : Entries) (head : Header) (values : List (List String × String × Value)) :
    Option Entries :=
  match head with
  | .table path key => Entries.change .implied (Entries.addTable key values) path root
  | .element path key => Entries.change .implied (Entries.addElement key values) path root

/-- The table that a document defines, if it is one. -/
def parse? (text : String) : Option (List (String × Value)) := do
  let (first, sections) ← complete? document text
  let root ← Entries.addValues [] first
  let root ← sections.foldlM (fun root (head, values) => addSection root head values) root
  return entriesToValues root

end Toml

end VariantMerge
