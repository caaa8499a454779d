import VariantMerge.Text.Visible

/-!
# Quoted text

A text between double quotes, with the characters escaped that could not stand there: quotes and
backslashes, the usual control characters by letter, and other characters without a visible form
by their code point. A string literal differs from it in one place only: a zero character before
an octal digit.
-/

namespace VariantMerge

namespace Text

/-- How one character is written between double quotes. -/
def escape (c : Char) : List Char :=
  if c == '"' then ['\\', '"']
  else if c == '\\' then ['\\', '\\']
  else if c == '\n' then ['\\', 'n']
  else if c == '\r' then ['\\', 'r']
  else if c == '\t' then ['\\', 't']
  else if c == '\x00' then ['\\', '0']
  else if isVisible c then [c]
  else ['\\', 'u', '\x7b'] ++ Nat.toDigits 16 c.toNat ++ ['\x7d']

/-- The text between double quotes. -/
def quoted (text : String) : String :=
  "\"" ++ String.ofList (text.toList.flatMap escape) ++ "\""

/-- Whether an octal digit comes first. -/
def startsOctal (cs : List Char) : Bool :=
  cs.head?.any fun c => '0' ≤ c && c ≤ '7'

/-- The characters of a string literal. The zero character is written with two digits where an
octal digit follows, which would else seem to belong to it. -/
def escapeLiteral : List Char → List Char
  | [] => []
  | c :: rest =>
    (if c == '\x00' && startsOctal rest then ['\\', 'x', '0', '0'] else escape c) ++
      escapeLiteral rest

/-- The text as a string literal. -/
def stringLiteral (text : String) : String :=
  "\"" ++ String.ofList (escapeLiteral text.toList) ++ "\""

end Text

end VariantMerge
