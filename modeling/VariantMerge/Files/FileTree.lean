import VariantMerge.Files.FilePath

/-!
# Trees of files

The files and folders below a working folder. Each has a location, which is the list of names that
leads to it. Paths are resolved against the tree as it is: what a path goes through has to be a
folder, even where it goes back again.
-/

namespace VariantMerge

/-- What a file holds: a text, or bytes that are none. -/
inductive FileContent where
  | text (text : String)
  | binary
  deriving DecidableEq, Repr, Inhabited

namespace FileContent

/-- The content made of these bytes. -/
def ofBytes (bytes : List UInt8) : FileContent :=
  match String.fromUTF8? ⟨bytes.toArray⟩ with
  | some t => text t
  | none => binary

def text? : FileContent → Option String
  | text t => some t
  | binary => none

end FileContent

/-- What is at a location. -/
inductive FileEntry where
  | folder
  | file (content : FileContent)
  deriving DecidableEq, Repr, Inhabited

/-- Where something is below the working folder. -/
abbrev Location := List String

/-- All files and folders with their locations. The working folder itself is not listed. -/
structure FileTree where
  entries : List (Location × FileEntry)
  deriving Repr, Inhabited

namespace FileTree

/-- A working folder without anything in it. -/
def empty : FileTree := ⟨[]⟩

/-- What is at a location. -/
def entryAt? (tree : FileTree) (location : Location) : Option FileEntry :=
  if location.isEmpty then some .folder
  else (tree.entries.find? (·.1 == location)).map (·.2)

def isFolder (tree : FileTree) (location : Location) : Bool :=
  tree.entryAt? location == some .folder

/-- The tree with this entry at a location. -/
def put (tree : FileTree) (location : Location) (entry : FileEntry) : FileTree :=
  ⟨tree.entries.filter (·.1 != location) ++ [(location, entry)]⟩

/-- The tree without what is at or below a location. -/
def erase (tree : FileTree) (location : Location) : FileTree :=
  ⟨tree.entries.filter fun entry => !location.isPrefixOf entry.1⟩

/-! ## Resolving paths -/

/-- Goes one piece of a path further, which is possible in a folder only. Nothing is known of what
is above the working folder. -/
def step (tree : FileTree) (location : Location) (piece : List Char) : Option Location :=
  if !tree.isFolder location then none
  else
    match FilePath.part? piece with
    | none => some location
    | some .up => if location.isEmpty then none else some location.dropLast
    | some (.name name) => some (location ++ [String.ofList name])
    | some _ => none

/-- The location that a path leads to. There does not have to be anything. -/
def locate? (tree : FileTree) (path : FilePath) : Option Location :=
  if path.text.isEmpty || path.isAbsolute then none else path.pieces.foldlM tree.step []

/-- The text of the file at a path. -/
def read? (tree : FileTree) (path : FilePath) : Option String :=
  match (tree.locate? path).bind tree.entryAt? with
  | some (.file content) => content.text?
  | _ => none

/-- Makes the folder at a location, unless there is one. -/
def makeFolder? (tree : FileTree) (location : Location) : Option FileTree :=
  match tree.entryAt? location with
  | some .folder => some tree
  | some (.file _) => none
  | none => some (tree.put location .folder)

/-- Goes one piece further, through a folder that is made if it is missing. -/
def makeStep (state : FileTree × Location) (piece : List Char) : Option (FileTree × Location) := do
  let location ← state.1.step state.2 piece
  return (← state.1.makeFolder? location, location)

/-- Makes all folders on a path. -/
def makeFolders? (tree : FileTree) (path : FilePath) : Option FileTree :=
  if path.isAbsolute then none
  else (path.pieces.foldlM makeStep (tree, [])).map (·.1)

/-- Writes a file into a folder that is there. -/
def write? (tree : FileTree) (path : FilePath) (content : FileContent) :
    Option (FileTree × Location) := do
  let location ← tree.locate? path
  if tree.isFolder location then none
  else return (tree.put location (.file content), location)

/-- Removes what is at a path. -/
def remove (tree : FileTree) (path : FilePath) : FileTree :=
  match tree.locate? path with
  | some location => tree.erase location
  | none => tree

/-! ## Listing files -/

/-- Whether one location is listed before another one, or is the same: those in a folder follow
each other, in the order of their names. -/
def listedBefore : Location → Location → Bool
  | [], _ => true
  | _ :: _, [] => false
  | a :: as, b :: bs => if a == b then listedBefore as bs else a < b

/-- The files in a folder, at any depth, by the names that lead to them from there. A file alone
is found without any name. -/
def filesBelow (tree : FileTree) (location : Location) : List (Location × FileContent) :=
  let found := tree.entries.filterMap fun (place, entry) =>
    match entry with
    | .file content =>
      if location.isPrefixOf place then some (place.drop location.length, content) else none
    | .folder => none
  found.mergeSort fun a b => listedBefore a.1 b.1

/-- The files at a path, if there is anything. -/
def walk? (tree : FileTree) (path : FilePath) : Option (List (Location × FileContent)) := do
  let location ← tree.locate? path
  let _ ← tree.entryAt? location
  return tree.filesBelow location

/-- The files that are in a folder itself. -/
def filesIn (tree : FileTree) (path : FilePath) : List (String × FileContent) :=
  match tree.walk? path with
  | some found =>
    found.filterMap fun (names, content) =>
      match names with
      | [name] => some (name, content)
      | _ => none
  | none => []

end FileTree

end VariantMerge
