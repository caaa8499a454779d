import VariantMerge.ModulePath

/-!
# Paths of files

A path is kept as it was written, since that is how it is shown. What it means is read off its
components: doubled and trailing slashes do not count, nor does a dot other than at the front. The
layout of source files gives each of them a module.
-/

namespace VariantMerge

/-- The path of a file or folder, as it was written. -/
structure FilePath where
  text : String
  deriving DecidableEq, Repr, Inhabited

/-- What a part of a path stands for. -/
inductive PathPart where
  | root
  | here
  | up
  | name (text : List Char)
  deriving DecidableEq, Repr

namespace FilePath

/-- What stands between the slashes. -/
def pieces (path : FilePath) : List (List Char) :=
  path.text.toList.splitOn '/'

def isAbsolute (path : FilePath) : Bool :=
  path.text.toList.head? == some '/'

/-- The part that a piece stands for, if it is not at the front. -/
def part? (piece : List Char) : Option PathPart :=
  if piece = [] ∨ piece = ['.'] then none
  else if piece = ['.', '.'] then some .up
  else some (.name piece)

/-- The components of a path. A dot counts only as the first of them. -/
def parts (path : FilePath) : List PathPart :=
  let front : List PathPart :=
    if path.isAbsolute then [.root]
    else if path.pieces.head? = some ['.'] then [.here]
    else []
  front ++ path.pieces.filterMap part?

/-- The components that are names. -/
def names (path : FilePath) : List (List Char) :=
  path.parts.filterMap fun part =>
    match part with
    | .name text => some text
    | _ => none

/-- The last component, if it is a name. -/
def fileName? (path : FilePath) : Option (List Char) :=
  match path.parts.getLast? with
  | some (.name text) => some text
  | _ => none

/-- A file's name before and after its last dot. A dot at the front does not count. -/
def splitName? (name : List Char) : Option (List Char × List Char) :=
  match name.reverse.dropWhile (· != '.') with
  | _ :: c :: rest => some ((c :: rest).reverse, (name.reverse.takeWhile (· != '.')).reverse)
  | _ => none

/-- What follows the last dot of the file's name. -/
def extension? (path : FilePath) : Option (List Char) :=
  (path.fileName?.bind splitName?).map (·.2)

/-- The path of something in this folder. What is absolute is not in it. -/
def join (path : FilePath) (name : String) : FilePath :=
  if name.toList.head? == some '/' then ⟨name⟩
  else if path.text.isEmpty || path.text.toList.getLast? == some '/' then ⟨path.text ++ name⟩
  else ⟨path.text ++ "/" ++ name⟩

/-- The path of what these names lead to from this folder. -/
def joinAll (path : FilePath) (names : List String) : FilePath :=
  names.foldl join path

/-- The extension of source files. -/
def sourceExtension : List Char := ['r', 's']

/-- Whether the path is that of a source file. -/
def isSource (path : FilePath) : Bool :=
  path.extension? == some sourceExtension

/-- The module in a source file with these folders above it and this name before the extension.
The files `lib` and `main` at the top hold the root, and `mod` holds the module of its folder. -/
def moduleIn (folders : List String) (stem : String) : ModulePath :=
  if stem = "mod" ∨ (folders = [] ∧ (stem = "lib" ∨ stem = "main")) then ⟨folders⟩
  else ⟨folders ++ [stem]⟩

/-- The module that a path below the source root stands for. Only source files have one. -/
def module? (path : FilePath) : Option ModulePath :=
  match path.fileName?.bind splitName? with
  | some (stem, extension) =>
    if extension = sourceExtension then
      some (moduleIn (path.names.dropLast.map String.ofList) (String.ofList stem))
    else none
  | none => none

end FilePath

end VariantMerge
