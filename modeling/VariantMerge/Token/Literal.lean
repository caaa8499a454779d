import VariantMerge.Text.Blank
import VariantMerge.Text.Digit
import VariantMerge.Text.Letter

/-!
# Reading words and literals

A reader takes characters and gives the rest after the longest word or literal at their start, or
nothing if there is none. Readers of quoted literals run a small automaton over the characters, so
that every one of them ends with its text.
-/

namespace VariantMerge

namespace Literal

/-- The rest after what was read at the start of the characters, if anything was. -/
abbrev Reader := List Char → Option (List Char)

/-! ## Words -/

/-- Reads a plain word. -/
def word : Reader
  | c :: rest => if Text.isIdentStart c then some (rest.dropWhile Text.isIdentContinue) else none
  | [] => none

/-- The words that have no raw form. -/
def unrawable : List String := ["_", "super", "self", "Self", "crate"]

/-- Reads a word that may be written raw, after `r#`. -/
def rawableWord : Reader
  | 'r' :: '#' :: rest =>
    match word rest with
    | some after =>
      if unrawable.contains (String.ofList (rest.take (rest.length - after.length))) then none
      else some after
    | none => none
  | cs => word cs

/-- The rest after a literal's suffix, which may be missing. -/
def skipSuffix (cs : List Char) : List Char :=
  (word cs).getD cs

/-! ## Quoted literals -/

/-- What a quoted literal holds: characters, bytes, or characters without a zero. -/
inductive Content where
  | text
  | bytes
  | zeroFree
  deriving DecidableEq

/-- How far an escape or a line break inside a quoted literal has been read. -/
inductive QuoteState where
  | plain
  | carriageReturn
  | escape
  | hexFirst
  | hexSecond (firstIsZero : Bool)
  | unicodeOpen
  | unicode (digits value : Nat)
  | continuation
  | continuationReturn
  deriving DecidableEq

/-- What one character does to a quoted literal: the literal goes on, is complete, or is broken. -/
inductive QuoteStep where
  | more (state : QuoteState)
  | complete
  | broken
  deriving DecidableEq

/-- The letters that may follow a backslash and stand for one character. -/
def escapeLetters (content : Content) : List Char :=
  match content with
  | .zeroFree => ['n', 'r', 't', '\\', '\'', '"']
  | _ => ['n', 'r', 't', '\\', '\'', '"', '0']

/-- The character after a backslash. A backslash before a line break is allowed in strings only. -/
def stepEscape (content : Content) (multiline : Bool) (c : Char) : QuoteStep :=
  if c == 'x' then .more .hexFirst
  else if c == 'u' && content != .bytes then .more .unicodeOpen
  else if (escapeLetters content).contains c then .more .plain
  else if multiline && c == '\n' then .more .continuation
  else if multiline && c == '\r' then .more .continuationReturn
  else .broken

/-- A character that stands for itself, or ends the literal. -/
def stepPlain (content : Content) (quote : Char) (c : Char) : QuoteStep :=
  if c == quote then .complete
  else if c == '\\' then .more .escape
  else if c == '\r' then .more .carriageReturn
  else if content == .bytes && 0x7F < c.toNat then .broken
  else if content == .zeroFree && c == '\x00' then .broken
  else .more .plain

/-- One character of a `\u` escape after its first digit. -/
def stepUnicode (content : Content) (digits value : Nat) (c : Char) : QuoteStep :=
  if c == '_' then .more (.unicode digits value)
  else if c == '\x7d' then
    if value.isValidChar && !(content == .zeroFree && value == 0) then .more .plain else .broken
  else if Text.isHexDigit c && digits < 6 then
    .more (.unicode (digits + 1) (value * 16 + Text.digitValue c))
  else .broken

/-- One character of a string literal of the given content. -/
def stepString (content : Content) (state : QuoteState) (c : Char) : QuoteStep :=
  match state with
  | .plain => stepPlain content '"' c
  | .carriageReturn => if c == '\n' then .more .plain else .broken
  | .escape => stepEscape content true c
  | .hexFirst =>
    if Text.isHexDigit c && (content != .text || ('0' ≤ c && c ≤ '7')) then
      .more (.hexSecond (c == '0'))
    else .broken
  | .hexSecond firstIsZero =>
    if Text.isHexDigit c && !(content == .zeroFree && firstIsZero && c == '0') then .more .plain
    else .broken
  | .unicodeOpen => if c == '\x7b' then .more (.unicode 0 0) else .broken
  | .unicode 0 value =>
    if Text.isHexDigit c then .more (.unicode 1 (value * 16 + Text.digitValue c)) else .broken
  | .unicode digits value => stepUnicode content digits value c
  | .continuation =>
    if c == ' ' || c == '\t' || c == '\n' then .more .continuation
    else if c == '\r' then .more .continuationReturn
    else stepPlain content '"' c
  | .continuationReturn => if c == '\n' then .more .continuation else .broken

/-- Reads the inside of a string literal and its closing quote. -/
def stringBody (content : Content) : QuoteState → Reader
  | _, [] => none
  | state, c :: rest =>
    match stepString content state c with
    | .more next => stringBody content next rest
    | .complete => some rest
    | .broken => none

/-- One character of a character or byte literal, whose content is a single character. -/
def stepSingle (content : Content) (state : QuoteState) (c : Char) : QuoteStep :=
  match state with
  | .plain => if c == '\\' then .more .escape else .complete
  | .escape =>
    match stepEscape content false c with
    | .more .plain => .complete
    | step => step
  | state =>
    match stepString content state c with
    | .more .plain => .complete
    | step => step

/-- Reads one character or escape, and the closing quote. -/
def singleBody (content : Content) : QuoteState → Reader
  | _, [] => none
  | state, c :: rest =>
    match stepSingle content state c, rest with
    | .more next, _ => singleBody content next rest
    | .complete, '\'' :: after => if content == .bytes && 0x7F < c.toNat then none else some after
    | _, _ => none

/-- Whether at least `n` number signs stand at the start. -/
def hashes : Nat → List Char → Bool
  | 0, _ => true
  | n + 1, c :: rest => c == '#' && hashes n rest
  | _ + 1, [] => false

/-- Reads a raw string up to a quote that `n` number signs follow. -/
def rawBody (content : Content) (n : Nat) : Reader
  | [] => none
  | '\r' :: '\n' :: rest => rawBody content n rest
  | c :: rest =>
    if c == '"' && hashes n rest then some (rest.drop n)
    else if c == '\r' then none
    else if content == .bytes && 0x7F < c.toNat then none
    else if content == .zeroFree && c == '\x00' then none
    else rawBody content n rest

/-- Reads a raw string from its number signs on; at most 255 of them are allowed. -/
def rawString (content : Content) (cs : List Char) : Option (List Char) :=
  let signs := (cs.takeWhile (· == '#')).length
  match cs.drop signs with
  | '"' :: rest => if signs ≤ 255 then rawBody content signs rest else none
  | _ => none

/-! ## Numbers -/

def isDigitOrUnderscore (c : Char) : Bool :=
  c.isDigit || c == '_'

/-- Reads digits of the base, letters counting as digits above nine. A decimal digit that the base
does not have makes the literal impossible, a letter ends it. -/
def digits (base : Nat) (found : Bool) : Reader
  | [] => if found then some [] else none
  | c :: rest =>
    if c.isDigit then
      if Text.digitValue c < base then digits base true rest else none
    else if Text.isHexDigit c then
      if Text.digitValue c < base then digits base true rest
      else if found then some (c :: rest) else none
    else if c == '_' then
      if !found && base == 10 then none else digits base found rest
    else if found then some (c :: rest) else none

/-- Reads a number's suffix, after which the word has to end. -/
def numberEnd (cs : List Char) : Option (List Char) :=
  match skipSuffix cs with
  | c :: rest => if Text.isIdentContinue c then none else some (c :: rest)
  | [] => some []

/-- Reads an integer literal. -/
def integer (cs : List Char) : Option (List Char) :=
  let read :=
    match cs with
    | '0' :: 'x' :: rest => digits 16 false rest
    | '0' :: 'o' :: rest => digits 8 false rest
    | '0' :: 'b' :: rest => digits 2 false rest
    | _ => digits 10 false cs
  read.bind numberEnd

/-- Reads an exponent after its letter: one sign before the first digit, then digits. -/
def exponent (signed valued : Bool) : Reader
  | [] => if valued then some [] else none
  | c :: rest =>
    if c.isDigit then exponent signed true rest
    else if c == '_' then exponent signed valued rest
    else if (c == '+' || c == '-') && !valued then
      if signed then none else exponent true valued rest
    else if valued then some (c :: rest) else none

/-- Reads the exponent at the start, if a whole one is there. -/
def exponent? : Reader
  | c :: rest => if c == 'e' || c == 'E' then exponent false false rest else none
  | [] => none

/-- Reads a literal with a point or an exponent. A point may not be followed by a second one or
by a name, since these are ranges and members. -/
def float (cs : List Char) : Option (List Char) :=
  match cs with
  | c :: _ =>
    if c.isDigit then
      match cs.dropWhile isDigitOrUnderscore with
      | '.' :: rest =>
        if rest.head?.any fun d => d == '.' || Text.isIdentStart d then
          none
        else
          let fraction := rest.dropWhile isDigitOrUnderscore
          numberEnd ((exponent? fraction).getD fraction)
      | rest => (exponent? rest).bind numberEnd
    else none
  | [] => none

/-! ## All literals -/

/-- Reads any literal. -/
def literal (cs : List Char) : Option (List Char) :=
  let quoted : Option (List Char) :=
    match cs with
    | '"' :: rest => stringBody .text .plain rest
    | 'b' :: '"' :: rest => stringBody .bytes .plain rest
    | 'c' :: '"' :: rest => stringBody .zeroFree .plain rest
    | 'b' :: 'r' :: rest => rawString .bytes rest
    | 'c' :: 'r' :: rest => rawString .zeroFree rest
    | 'r' :: rest => rawString .text rest
    | 'b' :: '\'' :: rest => singleBody .bytes .plain rest
    | '\'' :: rest => singleBody .text .plain rest
    | _ => none
  match quoted with
  | some rest => some (skipSuffix rest)
  | none => (float cs).or (integer cs)

/-! ## The value of a number -/

/-- The number that these digits are, if they are digits of that base, of which there is at least
one. Underscores do not count. -/
def digitsValue? (base : Nat) (cs : List Char) : Option Nat :=
  let digits := cs.filter (· != '_')
  if !digits.isEmpty && digits.all fun c => Text.isHexDigit c && Text.digitValue c < base then
    some (Text.numberOf base digits)
  else none

/-- The value of an integer literal without a suffix. -/
def integerValue? : List Char → Option Nat
  | '0' :: 'x' :: rest => digitsValue? 16 rest
  | '0' :: 'o' :: rest => digitsValue? 8 rest
  | '0' :: 'b' :: rest => digitsValue? 2 rest
  | cs => digitsValue? 10 cs

/-- The shortest form of the number that names a member of a tuple. -/
def memberNumber? (cs : List Char) : Option String :=
  match integerValue? cs with
  | some n => if n < UInt32.size then some (toString n) else none
  | none => none

/-! ## The text of a string literal -/

/-- How far an escape has been decoded. -/
inductive DecodeState where
  | plain
  | escape
  | hexFirst
  | hexSecond (high : Nat)
  | unicode (value : Nat)
  | continuation

/-- The character that a letter after a backslash stands for. -/
def escapedChar (c : Char) : Char :=
  if c == 'n' then '\n'
  else if c == 'r' then '\r'
  else if c == 't' then '\t'
  else if c == '0' then '\x00'
  else c

/-- The characters of a string literal after its opening quote. A backslash at the end of a line
takes the blanks after it away, and a line break is a line feed alone. -/
def decode : DecodeState → List Char → List Char
  | _, [] => []
  | .plain, c :: rest =>
    if c == '"' then []
    else if c == '\\' then decode .escape rest
    else if c == '\r' then decode .plain rest
    else c :: decode .plain rest
  | .escape, c :: rest =>
    if c == 'x' then decode .hexFirst rest
    else if c == 'u' then decode (.unicode 0) rest
    else if c == '\n' || c == '\r' then decode .continuation rest
    else escapedChar c :: decode .plain rest
  | .hexFirst, c :: rest => decode (.hexSecond (Text.digitValue c)) rest
  | .hexSecond high, c :: rest => Char.ofNat (high * 16 + Text.digitValue c) :: decode .plain rest
  | .unicode value, c :: rest =>
    if c == '\x7b' || c == '_' then decode (.unicode value) rest
    else if c == '\x7d' then Char.ofNat value :: decode .plain rest
    else decode (.unicode (value * 16 + Text.digitValue c)) rest
  | .continuation, c :: rest =>
    if Text.isBlank c then decode .continuation rest
    else if c == '"' then []
    else if c == '\\' then decode .escape rest
    else c :: decode .plain rest

/-- The characters of a raw string up to the quote that `n` number signs follow. -/
def decodeRaw (n : Nat) : List Char → List Char
  | [] => []
  | c :: rest => if c == '"' && hashes n rest then [] else c :: decodeRaw n rest

/-- The text that a string literal stands for; other literals stand for none. -/
def stringValue? (text : String) : Option String :=
  match text.toList with
  | '"' :: rest => some (String.ofList (decode .plain rest))
  | 'r' :: rest =>
    let signs := (rest.takeWhile (· == '#')).length
    some (String.ofList (decodeRaw signs (rest.drop (signs + 1))))
  | _ => none

/-- The truth value that a literal stands for, if it is one. -/
def flagValue? (text : String) : Option Bool :=
  if text == "true" then some true
  else if text == "false" then some false
  else none

end Literal

end VariantMerge
