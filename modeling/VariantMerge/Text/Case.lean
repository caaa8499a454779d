import VariantMerge.Text.Blank

/-!
# Names in snake case

`snakeCase` turns a name of capitalised words into lower-case words joined by underscores, and
`identFragment` does so for every word of a type's text, so that the result can stand inside an
identifier. Only ASCII letters have a case here; any other character is left as it is.
-/

namespace VariantMerge

namespace Text

/-- Whether a new word starts at an upper-case letter: after a lower-case letter or digit always,
after an upper-case letter only if a lower-case letter follows. -/
def startsWord (before : Option Char) (after : Option Char) : Bool :=
  match before with
  | none => false
  | some b =>
    b.isLower || b.isDigit || (b.isUpper && after.any Char.isLower)

/-- Snake case of the characters that follow `before`. -/
def snakeFrom (before : Option Char) : List Char → List Char
  | [] => []
  | c :: rest =>
    if c.isUpper then
      if startsWord before rest.head? then
        '_' :: c.toLower :: snakeFrom (some c) rest
      else
        c.toLower :: snakeFrom (some c) rest
    else
      c :: snakeFrom (some c) rest

/-- `MyState` becomes `my_state`, `HTTPServer` becomes `http_server`. -/
def snakeCase (name : String) : String :=
  String.ofList (snakeFrom none name.toList)

/-- The characters of which words are made when a type's text is cut into words. -/
def isWordChar (c : Char) : Bool :=
  c.isAlphanum || c == '_'

/-- The words of a type's text in snake case, joined by underscores; `slot` if it has none.
`Option<Entity>` becomes `option_entity` and `[f32; 3]` becomes `f32_3`. -/
def identFragment (text : String) : String :=
  match runs isWordChar text.toList with
  | [] => "slot"
  | words => String.intercalate "_" (words.map fun word => snakeCase (String.ofList word))

end Text

end VariantMerge
