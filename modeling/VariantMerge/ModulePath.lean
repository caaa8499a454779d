import VariantMerge.Text.Blank

/-!
# Module paths

A module of the program under generation is named by the path that leads to it from the root.
Paths are read from and shown as `crate::a::b`, ordered by their segments, and each has the stem
of the file that receives the code generated into the module.
-/

namespace VariantMerge

/-- The path of a module below the root; the root itself has no segment. -/
structure ModulePath where
  segments : List String
  deriving DecidableEq, Repr, Inhabited

namespace ModulePath

/-- The root module. -/
def root : ModulePath := ⟨[]⟩

def isRoot (path : ModulePath) : Bool :=
  path.segments.isEmpty

/-- The module called `name` inside this one. -/
def child (path : ModulePath) (name : String) : ModulePath :=
  ⟨path.segments ++ [name]⟩

/-- The enclosing module; the root has none. -/
def parent? (path : ModulePath) : Option ModulePath :=
  if path.isRoot then none else some ⟨path.segments.dropLast⟩

/-- Reads `crate::a::b` or `a::b`. Blanks around a segment and empty segments are skipped, and so
is any `crate` at the front. -/
def parse (text : String) : ModulePath :=
  let pieces := (Text.colonPieces text.toList).map fun piece => String.ofList (Text.trim piece)
  ⟨(pieces.filter fun piece => !piece.isEmpty).dropWhile (· == "crate")⟩

/-- `crate`, followed by each segment after a double colon. -/
def display (path : ModulePath) : String :=
  String.join ("crate" :: path.segments.map ("::" ++ ·))

/-- The stem of the file for the code generated into this module. -/
def fileStem (path : ModulePath) : String :=
  if path.isRoot then "crate" else String.intercalate "__" path.segments

/-- Segments decide in order, each by its code points, and a proper beginning comes first. -/
def compareSegments : List String → List String → Ordering
  | [], [] => .eq
  | [], _ :: _ => .lt
  | _ :: _, [] => .gt
  | a :: as, b :: bs =>
    if a < b then .lt else if b < a then .gt else compareSegments as bs

instance : Ord ModulePath := ⟨fun a b => compareSegments a.segments b.segments⟩

end ModulePath

end VariantMerge
