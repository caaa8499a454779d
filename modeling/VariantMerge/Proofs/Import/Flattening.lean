import VariantMerge.Proofs.Import.Anchoring

/-!
# Imports for the leaves of a tree

An import tree is flattened by walking down to its leaves, with the path so far at hand. The imports that
come out are those of the tree's branches, which are told from the tree alone: one import for each branch,
in order, but for a leaf `self` at the root of the tree (`Import.ofUse_keeps`). Each keeps what its leaf
brings into scope, and its path is the anchored one. A path that starts outside of the declaring module
is copied.
-/

namespace VariantMerge

namespace UseTree

mutual

/-- The leaves of an import tree from left to right, each with its path from the root of the tree. -/
def branches : UseTree → List (List String × ImportedName)
  | path first rest => rest.branches.map fun leaf => (first :: leaf.1, leaf.2)
  | name last => [([], .name last)]
  | rename last newName => [([], .renamed last newName)]
  | glob => [([], .glob)]
  | group items _ => branchesOfAll items

/-- The leaves of all trees of a group. -/
def branchesOfAll : List UseTree → List (List String × ImportedName)
  | [] => []
  | tree :: rest => tree.branches ++ branchesOfAll rest

end

mutual

/-- The walk adds to each branch the path that leads to the tree. -/
theorem leaves_eq_branches (above : List String) : (tree : UseTree) →
    tree.leaves above = tree.branches.map fun leaf => (above ++ leaf.1, leaf.2)
  | .path first rest => by
      rw [leaves, leaves_eq_branches (above ++ [first]) rest, branches, List.map_map]
      exact List.map_congr_left fun leaf _ =>
        congrArg (·, leaf.2) (List.append_cons above first leaf.1).symm
  | .name last => by rw [leaves, branches, List.map_singleton, List.append_nil]
  | .rename last newName => by rw [leaves, branches, List.map_singleton, List.append_nil]
  | .glob => by rw [leaves, branches, List.map_singleton, List.append_nil]
  | .group items _ => leavesOfAll_eq_branches above items

theorem leavesOfAll_eq_branches (above : List String) : (items : List UseTree) →
    leaves.leavesOfAll above items =
      (branchesOfAll items).map fun leaf => (above ++ leaf.1, leaf.2)
  | [] => rfl
  | tree :: rest => by
      rw [leaves.leavesOfAll, leaves_eq_branches above tree, leavesOfAll_eq_branches above rest,
        branchesOfAll, List.map_append]

end

theorem branchesOfAll_eq_flatMap (items : List UseTree) :
    branchesOfAll items = items.flatMap branches := by
  induction items with
  | nil => rfl
  | cons tree rest ih => rw [branchesOfAll, ih, List.flatMap_cons]

theorem leaves_nil (tree : UseTree) : tree.leaves [] = tree.branches :=
  (leaves_eq_branches [] tree).trans (List.map_id _)

end UseTree

namespace ImportedName

/-- What is imported when the name before renaming is another one. -/
def called (name : String) : ImportedName → ImportedName
  | .name _ => .name name
  | glob => glob
  | renamed _ newName => renamed name newName

end ImportedName

namespace Import

variable {module : ModulePath} {children : List String} {leading : Bool}
  {leaf : List String × ImportedName} {anchored : Import}

/-- What an import has from its leaf. A leaf `self` takes the last name of the anchored path. -/
structure Keeps (module : ModulePath) (children : List String) (leading : Bool)
    (leaf : List String × ImportedName) (anchored : Import) : Prop where
  unconditional : anchored.conditions = ""
  leading_eq : anchored.leading = leading
  kept : ¬ leaf.2.IsSelf →
    anchored.path = anchoredPath module children leading leaf.1 ∧ anchored.imported = leaf.2
  folded : leaf.2.IsSelf → ∃ name,
    anchoredPath module children leading leaf.1 = anchored.path ++ [name] ∧
      anchored.imported = leaf.2.called name
  copied : (leading = false → ∀ first ∈ leaf.1.head?, ¬ IsRelative first ∧ first ∉ children) →
    anchored.fullPath = leaf.1 ++ leaf.2.leafSegments

theorem ofLeaf?_of_isSelf {conditions : String} {path : List String} {imported : ImportedName}
    (self : imported.IsSelf) : ofLeaf? conditions leading path imported =
      path.getLast?.map fun name => ⟨conditions, leading, path.dropLast, imported.called name⟩ := by
  cases imported with
  | name outer => obtain rfl := List.singleton_inj.mp self; rfl
  | renamed outer newName => obtain rfl := List.singleton_inj.mp self; rfl
  | glob => cases self

theorem ofLeaf?_of_not_isSelf {conditions : String} {path : List String} {imported : ImportedName}
    (other : ¬ imported.IsSelf) :
    ofLeaf? conditions leading path imported = some ⟨conditions, leading, path, imported⟩ := by
  unfold ofLeaf?
  split
  · exact absurd rfl other
  · exact absurd rfl other
  · rfl

/-- A path that starts outside of the declaring module stays as it is. -/
theorem anchoredPath_of_outside {path : List String}
    (outside : leading = false → ∀ first ∈ path.head?, ¬ IsRelative first ∧ first ∉ children) :
    anchoredPath module children leading path = path := by
  cases leading with
  | true => rfl
  | false =>
      cases path with
      | nil => rfl
      | cons first rest =>
          obtain ⟨absolute, notChild⟩ := outside rfl first rfl
          change module.anchor children (first :: rest) = first :: rest
          rw [ModulePath.anchor_of_not_isRelative absolute, if_neg notChild]

theorem keeps_of_ofLeaf?
    (made : ofLeaf? "" leading (anchoredPath module children leading leaf.1) leaf.2 = some anchored) :
    Keeps module children leading leaf anchored := by
  obtain ⟨sameLeading, fullPath, -⟩ := ofLeaf?_eq_some made
  have copied (outside : leading = false → ∀ first ∈ leaf.1.head?, ¬ IsRelative first ∧
      first ∉ children) : anchored.fullPath = leaf.1 ++ leaf.2.leafSegments := by
    rw [fullPath, anchoredPath_of_outside outside]
  by_cases self : leaf.2.IsSelf
  · rw [ofLeaf?_of_isSelf self] at made
    obtain ⟨name, last, rfl⟩ := Option.map_eq_some_iff.mp made
    obtain ⟨before, whole⟩ := List.getLast?_eq_some_iff.mp last
    refine ⟨rfl, rfl, absurd self, fun _ => ⟨name, ?_, rfl⟩, copied⟩
    rw [whole, List.dropLast_concat]
  · rw [ofLeaf?_of_not_isSelf self] at made
    cases made
    exact ⟨rfl, rfl, fun _ => ⟨rfl, rfl⟩, (absurd · self), copied⟩

theorem conditionsOf_nil : conditionsOf [] = "" := rfl

/-- **Imports of all branches.** An import without attributes stands for one import for each branch of
its tree, in order, but for a leaf `self` at the root. -/
theorem ofUse_keeps (item : UseItem) (module : ModulePath) (children : List String)
    (bare : item.attributes = []) :
    List.Forall₂ (Keeps module children item.leading)
      (item.tree.branches.filter fun leaf => !decide (leaf.1 = [] ∧ leaf.2.IsSelf))
      (ofUse item module children) := by
  rw [← UseTree.leaves_nil]
  refine forall₂_ofUse fun leaf anchored made => ?_
  rw [bare, conditionsOf_nil] at made
  exact keeps_of_ofLeaf? made

end Import

end VariantMerge
