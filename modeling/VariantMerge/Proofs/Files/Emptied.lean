import Mathlib.Data.List.Basic
import Mathlib.Data.Option.Defs
import VariantMerge.Proofs.Files.Tree

/-!
# Trees with emptied files

If the text of some files is taken away (`FileTree.emptyFiles`), every path still leads where it did
and the same files are listed in the same order. What is done to both trees from then on, making
folders or writing files, has the same success in both, and they stay the same but for the emptied
files (`FileTree.EmptiedIn`) that nothing is written to.
-/

namespace VariantMerge

namespace FileEntry

/-- The entry without its text, if it is a file. -/
def emptied : FileEntry → FileEntry
  | folder => folder
  | file _ => file (.text "")

end FileEntry

namespace FileTree

variable {files : Location → FileContent → Prop} {tree other after otherAfter : FileTree}
  {location place : Location} {path : FilePath} {text : String}

/-! ## Emptied files -/

/-- The tree with no text in the chosen files. -/
def emptyFiles (tree : FileTree) (chosen : Location → Bool) : FileTree :=
  ⟨tree.entries.map fun (place, entry) => (place, if chosen place then entry.emptied else entry)⟩

/-- Chosen files are found empty, and all else as it was. -/
theorem entryAt?_emptyFiles (tree : FileTree) (chosen : Location → Bool) (place : Location) :
    (tree.emptyFiles chosen).entryAt? place =
      (tree.entryAt? place).map fun entry => if chosen place then entry.emptied else entry := by
  unfold entryAt?
  split
  next =>
    cases chosen place <;> rfl
  next =>
    rw [emptyFiles, List.find?_map, Option.map_map, Option.map_map]
    cases found : tree.entries.find? ((·.1 == place) ∘ fun (place, entry) =>
        (place, if chosen place then entry.emptied else entry)) with
    | none =>
        have absent : tree.entries.find? (·.1 == place) = none := found
        rw [absent]
        rfl
    | some entry =>
        have present : tree.entries.find? (·.1 == place) = some entry := found
        have here : entry.1 = place := by simpa using List.find?_some present
        rw [present, ← here]
        rfl

/-- The second tree is the first one, but that some files with these contents are empty in it. -/
def EmptiedIn (files : Location → FileContent → Prop) (tree other : FileTree) : Prop :=
  ∀ location, other.entryAt? location = tree.entryAt? location ∨
    ∃ content, files location content ∧ tree.entryAt? location = some (.file content) ∧
      other.entryAt? location = some (.file (.text ""))

/-- What is emptied are the chosen files. -/
theorem emptiedIn_emptyFiles (tree : FileTree) (chosen : Location → Bool) :
    EmptiedIn (fun place content => chosen place ∧ tree.entryAt? place = some (.file content)) tree
      (tree.emptyFiles chosen) := by
  intro place
  rw [entryAt?_emptyFiles]
  cases present : tree.entryAt? place with
  | none => exact .inl rfl
  | some entry =>
      cases emptied : chosen place with
      | false => exact .inl rfl
      | true =>
          cases entry with
          | folder => exact .inl rfl
          | file content => exact .inr ⟨content, ⟨emptied, present⟩, rfl, rfl⟩

/-- Emptying files makes and removes no folder. -/
theorem EmptiedIn.sameFolders (emptied : EmptiedIn files tree other) : SameFolders other tree := by
  intro place
  obtain same | ⟨content, -, here, there⟩ := emptied place
  · rw [isFolder, isFolder, same]
  · rw [isFolder, isFolder, here, there]
    rfl

/-- A chosen file reads as empty. -/
theorem read?_emptyFiles_of_chosen {chosen : Location → Bool} (found : tree.read? path = some text)
    (located : tree.locate? path = some place) (emptied : chosen place = true) :
    (tree.emptyFiles chosen).read? path = some "" := by
  obtain ⟨there, here, present⟩ := read?_eq_some_iff.mp found
  obtain rfl := Option.some.inj (here.symm.trans located)
  have alsoLocated := (locate?_congr (emptiedIn_emptyFiles tree chosen).sameFolders path).trans here
  refine read?_eq_some_iff.mpr ⟨there, alsoLocated, ?_⟩
  rw [entryAt?_emptyFiles, present, Option.map_some, if_pos emptied]
  rfl

/-- Any other file reads as before. -/
theorem read?_emptyFiles_of_not_chosen {chosen : Location → Bool}
    (located : tree.locate? path = some place) (kept : chosen place = false) :
    (tree.emptyFiles chosen).read? path = tree.read? path := by
  have alsoLocated :=
    (locate?_congr (emptiedIn_emptyFiles tree chosen).sameFolders path).trans located
  rw [read?_eq alsoLocated, read?_eq located, entryAt?_emptyFiles, kept]
  simp only [Bool.false_eq_true, ↓reduceIte, Option.map_id']

/-! ## Listing files -/

/-- The files below a folder are told from the places of entries. -/
theorem map_fst_filesBelow (tree : FileTree) (location : Location) :
    (tree.filesBelow location).map Prod.fst =
      (tree.entries.filterMap fun (place, entry) =>
        match entry with
        | .file _ =>
          if location.isPrefixOf place then some (place.drop location.length) else none
        | .folder => none).mergeSort listedBefore := by
  have sorted (found : List (Location × FileContent)) :
      (found.mergeSort fun a b => listedBefore a.1 b.1).map Prod.fst =
        (found.map Prod.fst).mergeSort listedBefore :=
    List.map_mergeSort fun _ _ _ _ => rfl
  rw [filesBelow, sorted, List.map_filterMap]
  congr 1
  refine List.filterMap_congr fun (place, entry) _ => ?_
  cases entry with
  | folder => rfl
  | file content =>
      dsimp only
      split <;> rfl

/-- Files are listed under the same names when they have been emptied. -/
theorem map_fst_walk?_emptyFiles (tree : FileTree) (chosen : Location → Bool) (path : FilePath) :
    ((tree.emptyFiles chosen).walk? path).map (List.map Prod.fst) =
      (tree.walk? path).map (List.map Prod.fst) := by
  have located := locate?_congr (emptiedIn_emptyFiles tree chosen).sameFolders path
  rw [walk?, walk?, located]
  cases tree.locate? path with
  | none => rfl
  | some location =>
      have names : ((tree.emptyFiles chosen).filesBelow location).map Prod.fst =
          (tree.filesBelow location).map Prod.fst := by
        rw [map_fst_filesBelow, map_fst_filesBelow, emptyFiles, List.filterMap_map]
        congr 1
        refine List.filterMap_congr fun (place, entry) _ => ?_
        cases entry <;> cases emptied : chosen place <;> simp [emptied, FileEntry.emptied]
      simp only [Option.bind_eq_bind, Option.bind_some, entryAt?_emptyFiles]
      cases tree.entryAt? location with
      | none => rfl
      | some entry => exact congrArg some names

/-! ## Making folders -/

/-- A folder is made in both trees or in neither. -/
theorem EmptiedIn.makeFolder? (emptied : EmptiedIn files tree other) (location : Location) :
    Option.Rel (EmptiedIn files) (tree.makeFolder? location) (other.makeFolder? location) := by
  unfold FileTree.makeFolder?
  obtain same | ⟨content, -, here, there⟩ := emptied location
  · rw [same]
    cases present : tree.entryAt? location with
    | some entry =>
        cases entry with
        | folder => exact .some emptied
        | file content => exact .none
    | none =>
        have below : location ≠ [] := by
          rintro rfl
          cases present
        refine .some fun place => ?_
        rw [entryAt?_put tree below, entryAt?_put other below]
        split
        · exact .inl rfl
        · exact emptied place
  · -- An emptied file is still in the way.
    rw [here, there]
    exact .none

/-- The folders along a path are made in both trees or in neither. -/
theorem EmptiedIn.makeSteps (emptied : EmptiedIn files tree other) (pieces : List (List Char))
    (start : Location) :
    Option.Rel (fun made also => EmptiedIn files made.1 also.1)
      (pieces.foldlM makeStep (tree, start)) (pieces.foldlM makeStep (other, start)) := by
  induction pieces generalizing tree other start with
  | nil => exact .some emptied
  | cons piece rest ih =>
      have stepped : other.step start piece = tree.step start piece := by
        rw [step, step, emptied.sameFolders]
      rw [List.foldlM_cons, List.foldlM_cons, makeStep, makeStep, stepped]
      cases tree.step start piece with
      | none => exact .none
      | some next =>
          have made := emptied.makeFolder? next
          simp only [Option.bind_eq_bind, Option.bind_some]
          generalize tree.makeFolder? next = here at made ⊢
          generalize other.makeFolder? next = there at made ⊢
          cases made with
          | none => exact .none
          | some still => exact ih still next

/-- All folders of a path are made in both trees or in neither. -/
theorem EmptiedIn.makeFolders? (emptied : EmptiedIn files tree other) (path : FilePath) :
    Option.Rel (EmptiedIn files) (tree.makeFolders? path) (other.makeFolders? path) := by
  unfold FileTree.makeFolders?
  split
  · exact .none
  · have made := emptied.makeSteps path.pieces []
    generalize path.pieces.foldlM makeStep (tree, []) = here at made ⊢
    generalize path.pieces.foldlM makeStep (other, []) = there at made ⊢
    cases made with
    | none => exact .none
    | some still => exact .some still

/-! ## Writing files -/

/-- Writing one text to one place keeps two trees the same but for emptied files. -/
theorem EmptiedIn.overwrite (emptied : EmptiedIn files tree other)
    (here : Overwrites tree place text after) (there : Overwrites other place text otherAfter) :
    EmptiedIn files after otherAfter := by
  intro location
  rw [here.entries, there.entries]
  split
  · exact .inl rfl
  · exact emptied location

/-- The path leads to the same text in both trees. -/
def SameText (path : FilePath) (tree other : FileTree) : Prop :=
  ∃ text, tree.read? path = some text ∧ other.read? path = some text

/-- A file that was written is the same in both trees. -/
theorem EmptiedIn.sameText_written (emptied : EmptiedIn files tree other)
    (here : Overwrites tree place text after) (there : Overwrites other place text otherAfter)
    (located : tree.locate? path = some place) : SameText path after otherAfter := by
  have alsoLocated := (locate?_congr emptied.sameFolders path).trans located
  refine ⟨text, ?_, ?_⟩
  · rw [here.read?_eq located, if_pos rfl]
  · rw [there.read?_eq alsoLocated, if_pos rfl]

/-- Files that are the same in both trees stay so. -/
theorem EmptiedIn.sameText_overwrite (emptied : EmptiedIn files tree other)
    (here : Overwrites tree place text after) (there : Overwrites other place text otherAfter)
    (same : SameText path tree other) : SameText path after otherAfter := by
  obtain ⟨before, read, alsoRead⟩ := same
  obtain ⟨location, located, -⟩ := read?_eq_some_iff.mp read
  have alsoLocated := (locate?_congr emptied.sameFolders path).trans located
  rw [SameText, here.read?_eq located, there.read?_eq alsoLocated, read, alsoRead]
  split
  · exact ⟨text, rfl, rfl⟩
  · exact ⟨before, rfl, rfl⟩

end FileTree

end VariantMerge
