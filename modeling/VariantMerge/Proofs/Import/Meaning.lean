import VariantMerge.Import

/-!
# What imports name

A path is read from the module in which it is written (`ModulePath.place?`). `self` and `super` at
its front climb from that module, a child module of it comes next, `crate` starts at the root, and
all else is outside. A path that climbs above the root leads nowhere, and so does one with `self` or
`super` behind another name. A leaf of an import tree and an import of one name are read alike, but
for a leaf `self`, which names what the path before it leads to.
-/

namespace VariantMerge

/-- What a path leads to: something below the root, or something outside. -/
inductive Place where
  | inside (path : List String)
  | outside (leading : Bool) (path : List String)
  deriving DecidableEq, Repr

/-- The names that lead on from a module without going into another one by its name. -/
def IsRelative (name : String) : Prop :=
  name = "self" ∨ name = "super"

instance (name : String) : Decidable (IsRelative name) :=
  inferInstanceAs (Decidable (_ ∨ _))

def IsPlain (path : List String) : Prop :=
  ∀ name ∈ path, ¬ IsRelative name

instance (path : List String) : Decidable (IsPlain path) :=
  inferInstanceAs (Decidable (∀ name ∈ path, _))

namespace ModulePath

/-- Where a path with a relative name in front leads below the root. -/
def climb? (module : ModulePath) : List String → Option (List String)
  | [] => some module.segments
  | name :: rest =>
    if name = "self" then module.climb? rest
    else if name = "super" then module.parent?.bind fun above => above.climb? rest
    else if IsPlain rest then some (module.segments ++ name :: rest)
    else none

/-- Where a path leads when it is written in a module with these child modules. -/
def place? (module : ModulePath) (children : List String) (leading : Bool) (path : List String) :
    Option Place :=
  if leading then if IsPlain path then some (.outside true path) else none
  else
    match path with
    | [] => some (.outside false [])
    | first :: rest =>
      if IsRelative first then (module.climb? path).map .inside
      else if ¬ IsPlain rest then none
      else if first ∈ children then some (.inside (module.segments ++ path))
      else if first = "crate" then some (.inside rest)
      else some (.outside false path)

end ModulePath

/-- What an import brings into scope: what is at a place, or everything that is in it, and perhaps
another name for it. -/
structure ImportedItem where
  place : Place
  everything : Bool
  newName : Option String
  deriving DecidableEq, Repr

namespace ImportedName

/-- The name that ends a line. -/
def segments : ImportedName → List String
  | name outer => [outer]
  | renamed outer _ => [outer]
  | glob => []

/-- What a leaf adds to the path that leads to it. -/
def leafSegments (imported : ImportedName) : List String :=
  imported.segments.filter (· ≠ "self")

def newName? : ImportedName → Option String
  | renamed _ newName => some newName
  | _ => none

/-- The item for an imported name whose path leads to a place. -/
def item (imported : ImportedName) (place : Place) : ImportedItem :=
  ⟨place, imported = .glob, imported.newName?⟩

end ImportedName

/-- What a leaf names in the module that contains its tree. -/
def leafItem? (module : ModulePath) (children : List String) (leading : Bool)
    (leaf : List String × ImportedName) : Option ImportedItem :=
  (module.place? children leading (leaf.1 ++ leaf.2.leafSegments)).map leaf.2.item

namespace Import

def fullPath (anchored : Import) : List String :=
  anchored.path ++ anchored.imported.segments

/-- What an import names when its line is written in a module. -/
def item? (anchored : Import) (host : ModulePath) (children : List String) : Option ImportedItem :=
  (host.place? children anchored.leading anchored.fullPath).map anchored.imported.item

/-- An import of something that is declared in a module of the program. -/
def IsFrom (module : ModulePath) (anchored : Import) : Prop :=
  anchored.leading = false ∧ anchored.path = "crate" :: module.segments

instance (module : ModulePath) (anchored : Import) : Decidable (anchored.IsFrom module) :=
  inferInstanceAs (Decidable (_ ∧ _))

theorem sourceModule?_eq_some_iff {anchored : Import} {module : ModulePath} :
    anchored.sourceModule? = some module ↔ anchored.IsFrom module := by
  unfold sourceModule? IsFrom
  split
  next rest leading path =>
    rw [leading, path, Option.some.injEq, List.cons_inj_right]
    constructor
    · rintro rfl
      exact ⟨rfl, rfl⟩
    · rintro ⟨-, rfl⟩
      rfl
  next other => simpa using other module.segments

end Import

namespace UseTree

/-- A leaf of an import tree, by the path that leads to it. -/
inductive HasLeaf : UseTree → List String → ImportedName → Prop
  | path {first : String} {rest : UseTree} {path : List String} {imported : ImportedName} :
      HasLeaf rest path imported → HasLeaf (.path first rest) (first :: path) imported
  | name {last : String} : HasLeaf (.name last) [] (.name last)
  | rename {last newName : String} : HasLeaf (.rename last newName) [] (.renamed last newName)
  | glob : HasLeaf .glob [] .glob
  | group {items : List UseTree} {trailing : Bool} {tree : UseTree} {path : List String}
      {imported : ImportedName} :
      tree ∈ items → HasLeaf tree path imported → HasLeaf (.group items trailing) path imported

mutual

theorem mem_leaves_iff {above path : List String} {imported : ImportedName} :
    (tree : UseTree) → ((path, imported) ∈ tree.leaves above ↔
      ∃ below, path = above ++ below ∧ tree.HasLeaf below imported)
  | .path first rest => by
    rw [leaves, mem_leaves_iff rest]
    constructor
    · rintro ⟨below, rfl, leaf⟩
      exact ⟨first :: below, List.append_assoc .., .path leaf⟩
    · rintro ⟨_, rfl, leaf⟩
      cases leaf with
      | path leaf => exact ⟨_, List.append_cons .., leaf⟩
  | .name last => by
    rw [leaves, List.mem_singleton, Prod.mk.injEq]
    constructor
    · rintro ⟨rfl, rfl⟩
      exact ⟨[], (List.append_nil _).symm, .name⟩
    · rintro ⟨_, rfl, leaf⟩
      cases leaf
      exact ⟨List.append_nil _, rfl⟩
  | .rename last newName => by
    rw [leaves, List.mem_singleton, Prod.mk.injEq]
    constructor
    · rintro ⟨rfl, rfl⟩
      exact ⟨[], (List.append_nil _).symm, .rename⟩
    · rintro ⟨_, rfl, leaf⟩
      cases leaf
      exact ⟨List.append_nil _, rfl⟩
  | .glob => by
    rw [leaves, List.mem_singleton, Prod.mk.injEq]
    constructor
    · rintro ⟨rfl, rfl⟩
      exact ⟨[], (List.append_nil _).symm, .glob⟩
    · rintro ⟨_, rfl, leaf⟩
      cases leaf
      exact ⟨List.append_nil _, rfl⟩
  | .group items trailing => by
    rw [leaves, mem_leavesOfAll_iff items]
    constructor
    · rintro ⟨tree, listed, below, rfl, leaf⟩
      exact ⟨below, rfl, .group listed leaf⟩
    · rintro ⟨below, rfl, leaf⟩
      cases leaf with
      | group listed leaf => exact ⟨_, listed, below, rfl, leaf⟩

theorem mem_leavesOfAll_iff {above path : List String} {imported : ImportedName} :
    (items : List UseTree) → ((path, imported) ∈ leaves.leavesOfAll above items ↔
      ∃ tree ∈ items, ∃ below, path = above ++ below ∧ tree.HasLeaf below imported)
  | [] => by simp [leaves.leavesOfAll]
  | tree :: rest => by
    rw [leaves.leavesOfAll, List.mem_append, mem_leaves_iff tree, mem_leavesOfAll_iff rest]
    simp only [List.mem_cons, exists_eq_or_imp]

end

end UseTree

end VariantMerge
