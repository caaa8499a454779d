/-!
# Blank characters, trimming and lines

Which characters count as white space, and the three ways in which texts are cut along them:
trimming both ends, cutting into lines, and cutting into the pieces between double colons.
-/

namespace VariantMerge

namespace Text

/-- The white space of the Unicode standard. -/
def isBlank (c : Char) : Bool :=
  (9 ≤ c.val && c.val ≤ 13) || c.val == 0x20 || c.val == 0x85 || c.val == 0xA0 ||
    c.val == 0x1680 || (0x2000 ≤ c.val && c.val ≤ 0x200A) || c.val == 0x2028 ||
    c.val == 0x2029 || c.val == 0x202F || c.val == 0x205F || c.val == 0x3000

/-- The white space among the ASCII characters. -/
def isBlankAscii (c : Char) : Bool :=
  (9 ≤ c.val && c.val ≤ 13) || c.val == 0x20

/-- The characters without the blank ones at the front. -/
def trimStart (cs : List Char) : List Char :=
  cs.dropWhile isBlank

/-- The characters without the blank ones at the end. -/
def trimEnd (cs : List Char) : List Char :=
  (cs.reverse.dropWhile isBlank).reverse

/-- The characters without the blank ones at either end. -/
def trim (cs : List Char) : List Char :=
  trimEnd (trimStart cs)

/-- Lines end at a line feed, with or without a carriage return before it. A last line that is
not ended counts only if it has characters, and keeps a carriage return at its end. -/
def lines : List Char → List (List Char)
  | [] => []
  | '\n' :: rest => [] :: lines rest
  | '\r' :: '\n' :: rest => [] :: lines rest
  | c :: rest =>
    match lines rest with
    | [] => [[c]]
    | line :: more => (c :: line) :: more

/-- The pieces between double colons, found from the left; there is always at least one. -/
def colonPieces : List Char → List (List Char)
  | [] => [[]]
  | ':' :: ':' :: rest => [] :: colonPieces rest
  | c :: rest =>
    match colonPieces rest with
    | [] => [[c]]
    | piece :: more => (c :: piece) :: more

/-- The maximal runs of characters that satisfy `keep`, in order. -/
def runs (keep : Char → Bool) : List Char → List (List Char)
  | [] => []
  | c :: rest =>
    if keep c then
      match rest.head?.any keep, runs keep rest with
      | true, run :: more => (c :: run) :: more
      | _, more => [c] :: more
    else
      runs keep rest

end Text

end VariantMerge
