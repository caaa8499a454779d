/-!
# Reading text from the front

A reading takes characters from the front of a text and gives what they stand for, or fails. A
failure has no place and no message: it says only that the text is not of the form asked for.
-/

namespace VariantMerge

/-- A computation on the characters that are left. -/
abbrev Reading := StateT (List Char) Option

namespace Reading

/-- The characters that are left. -/
def ahead : Reading (List Char) := get

def atEnd : Reading Bool := return (← ahead).isEmpty

/-- Whether these characters come first. -/
def looks (text : String) : Reading Bool := do
  return text.toList.isPrefixOf (← ahead)

/-- Takes one character. -/
def any : Reading Char := do
  match ← ahead with
  | c :: rest =>
    set rest
    return c
  | [] => failure

/-- Takes a text. -/
def exactly (text : String) : Reading Unit := do
  if ← looks text then set ((← ahead).drop text.length) else failure

/-- Takes a text if it comes first, and says whether it did. -/
def taken? (text : String) : Reading Bool := do
  if ← looks text then
    exactly text
    return true
  else return false

/-- Takes the longest run of characters of a class. -/
def run (p : Char → Bool) : Reading (List Char) := do
  let cs ← ahead
  set (cs.dropWhile p)
  return cs.takeWhile p

/-- Takes a run that is not empty. -/
def run₁ (p : Char → Bool) : Reading (List Char) := do
  let cs ← run p
  if cs.isEmpty then failure else return cs

/-- Takes this many characters of a class. -/
def times (n : Nat) (p : Char → Bool) : Reading (List Char) := do
  let cs ← ahead
  let front := cs.take n
  if front.length = n ∧ front.all p then
    set (cs.drop n)
    return front
  else failure

/-- Reads the first form if it is there, and the second otherwise. -/
def either (first second : Reading α) : Reading α := fun cs =>
  match first cs with
  | some result => some result
  | none => second cs

/-- Reads a form if it is there. -/
def attempt (form : Reading α) : Reading (Option α) :=
  either (some <$> form) (pure none)

def manyFrom (part : Reading α) : Nat → Reading (List α)
  | 0 => return []
  | rounds + 1 => do
    match ← attempt part with
    | none => return []
    | some a => return a :: (← manyFrom part rounds)

/-- Reads a form as often as it is there. The form takes at least one character. -/
def many (part : Reading α) : Reading (List α) := do
  manyFrom part (← ahead).length

/-- Reads a whole text. -/
def complete? (form : Reading α) (text : String) : Option α :=
  match form text.toList with
  | some (a, []) => some a
  | _ => none

end Reading

end VariantMerge
