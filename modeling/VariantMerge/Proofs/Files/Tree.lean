import VariantMerge.Files.FileTree

/-!
# What happens to a tree of files

Where a path leads depends on the folders of a tree only (`FileTree.locate?_congr`). Making folders
adds some where there was nothing, and writing a file changes what is at one location that is no
folder. So files can be written into a folder one after the other, and each is found where its name
says (`FileTree.locate?_join`, `FileTree.write?_eq_some_iff`).
-/

namespace VariantMerge

namespace FileTree

variable {tree other : FileTree} {location : Location}

/-! ## Entries -/

/-- The root is a folder. -/
theorem entryAt?_nil (tree : FileTree) : tree.entryAt? [] = some .folder := rfl

/-- Only the entry that is taken out is not found any more. -/
theorem find?_filter_ne (entries : List (Location × FileEntry)) (location place : Location) :
    (entries.filter (·.1 != location)).find? (·.1 == place) =
      if place = location then none else entries.find? (·.1 == place) := by
  induction entries with
  | nil => simp
  | cons entry rest ih =>
      by_cases gone : entry.1 = location
      · rw [List.filter_cons_of_neg (by simp [gone]), ih]
        split
        · rfl
        next elsewhere =>
          rw [List.find?_cons_of_neg]
          simpa [gone] using Ne.symm elsewhere
      · rw [List.filter_cons_of_pos (by simp [gone])]
        by_cases found : entry.1 = place
        · have elsewhere : place ≠ location := found ▸ gone
          rw [List.find?_cons_of_pos (by simp [found]), if_neg elsewhere,
            List.find?_cons_of_pos (by simp [found])]
        · rw [List.find?_cons_of_neg (by simp [found]), ih,
            List.find?_cons_of_neg (by simp [found])]

/-- An entry is found where it was put, and all others where they were. -/
theorem entryAt?_put (tree : FileTree) {location : Location} (below : location ≠ [])
    (entry : FileEntry) (place : Location) :
    (tree.put location entry).entryAt? place =
      if place = location then some entry else tree.entryAt? place := by
  by_cases top : place = []
  · subst top
    rw [if_neg below.symm, entryAt?_nil, entryAt?_nil]
  have inside : ¬ place.isEmpty = true := fun empty => top (List.isEmpty_iff.mp empty)
  rw [entryAt?, entryAt?, if_neg inside, if_neg inside, put, List.find?_append, find?_filter_ne]
  by_cases here : place = location
  · simp [here]
  · rw [if_neg here, if_neg here, List.find?_cons_of_neg (by simpa using Ne.symm here)]
    simp

/-- A place is a folder if it has the entry of one. -/
theorem isFolder_iff : tree.isFolder location = true ↔ tree.entryAt? location = some .folder := by
  rw [isFolder, beq_iff_eq]

/-- The trees have the same folders. -/
def SameFolders (tree other : FileTree) : Prop :=
  ∀ location, tree.isFolder location = other.isFolder location

/-- A tree has its own folders. -/
theorem SameFolders.refl (tree : FileTree) : SameFolders tree tree :=
  fun _ => rfl

/-- Trees with the folders of a third one have the same. -/
theorem SameFolders.trans {third : FileTree} (same : SameFolders tree other)
    (further : SameFolders other third) : SameFolders tree third :=
  fun location => (same location).trans (further location)

/-- A file with this text has been written to a place that was no folder. -/
structure Overwrites (tree : FileTree) (place : Location) (text : String) (after : FileTree) :
    Prop where
  free : tree.isFolder place = false
  entries : ∀ location, after.entryAt? location =
    if location = place then some (.file (.text text)) else tree.entryAt? location

/-- Putting a file where no folder is overwrites it. -/
theorem overwrites_put (free : tree.isFolder location = false) (text : String) :
    Overwrites tree location text (tree.put location (.file (.text text))) := by
  have below : location ≠ [] := by
    rintro rfl
    cases free
  exact ⟨free, entryAt?_put tree below _⟩

/-- To write what is there already changes nothing. -/
theorem overwrites_self {text : String}
    (present : tree.entryAt? location = some (.file (.text text))) :
    Overwrites tree location text tree := by
  refine ⟨by rw [isFolder, present]; rfl, fun place => ?_⟩
  split
  next here => rw [here, present]
  next => rfl

/-- Overwriting a file makes and removes no folder. -/
theorem Overwrites.sameFolders {text : String} {after : FileTree}
    (overwrites : Overwrites tree location text after) : SameFolders after tree := by
  intro place
  rw [isFolder, overwrites.entries]
  split
  next here =>
    rw [here, overwrites.free]
    rfl
  next => rfl

/-! ## Paths -/

/-- Where a path leads depends on the folders only. -/
theorem locate?_congr (same : SameFolders tree other) (path : FilePath) :
    tree.locate? path = other.locate? path := by
  have steps : tree.step = other.step := by
    funext location piece
    rw [step, step, same]
  rw [locate?, locate?, steps]

/-- The names that files can have. -/
structure IsFileName (name : String) : Prop where
  noSlash : '/' ∉ name.toList
  isName : FilePath.part? name.toList = some (.name name.toList)

/-- The path of a folder below the working folder that ends with a name. -/
structure IsFolderPath (path : FilePath) : Prop where
  nonempty : path.text ≠ ""
  closed : path.text.toList.getLast? ≠ some '/'

/-- A name in a folder is written behind a slash. -/
theorem join_text {path : FilePath} (folder : IsFolderPath path) {name : String}
    (fileName : IsFileName name) : (path.join name).text = path.text ++ "/" ++ name := by
  have relative : ¬ (name.toList.head? == some '/') = true := by
    intro first
    exact fileName.noSlash (List.mem_of_mem_head? (beq_iff_eq.mp first))
  have apart : ¬ (path.text.isEmpty || path.text.toList.getLast? == some '/') = true := by
    simp [folder.nonempty, folder.closed]
  rw [FilePath.join, if_neg relative, if_neg apart]

/-- A name in a folder is one more piece of its path. -/
theorem pieces_join {path : FilePath} (folder : IsFolderPath path) {name : String}
    (fileName : IsFileName name) : (path.join name).pieces = path.pieces ++ [name.toList] := by
  have single : name.toList.splitOnP (· == '/') = [name.toList] :=
    List.splitOnP_eq_singleton fun c member => by
      simpa using fun slash : c = '/' => fileName.noSlash (slash ▸ member)
  have split : (path.text.toList ++ '/' :: name.toList).splitOnP (· == '/') =
      path.text.toList.splitOnP (· == '/') ++ name.toList.splitOnP (· == '/') :=
    List.splitOnP_append_cons _ _ (beq_self_eq_true '/')
  rw [FilePath.pieces, FilePath.pieces, join_text folder fileName, List.splitOn_eq_splitOnP,
    List.splitOn_eq_splitOnP, String.toList_append, String.toList_append, List.append_assoc]
  exact split.trans (by rw [single])

/-- A name in a folder is located there. -/
theorem locate?_join {path : FilePath} (folder : IsFolderPath path) {name : String}
    (fileName : IsFileName name) (located : tree.locate? path = some location)
    (inFolder : tree.isFolder location = true) :
    tree.locate? (path.join name) = some (location ++ [name]) := by
  have nonempty : ¬ path.text.isEmpty = true := by simpa using folder.nonempty
  have longer : ¬ (path.join name).text.isEmpty = true := by
    rw [join_text folder fileName]
    simp
  have absolute : (path.join name).isAbsolute = path.isAbsolute := by
    have chars : path.text.toList ≠ [] := fun empty =>
      folder.nonempty (String.toList_eq_nil_iff.mp empty)
    obtain ⟨c, cs, same⟩ := List.exists_cons_of_ne_nil chars
    rw [FilePath.isAbsolute, FilePath.isAbsolute, join_text folder fileName]
    simp only [String.toList_append, same, List.cons_append, List.head?_cons]
  unfold locate? at located ⊢
  split at located
  · cases located
  next relative =>
    rw [Bool.or_eq_true, not_or] at relative
    rw [absolute, if_neg (by simp [longer, relative.2]), pieces_join folder fileName,
      List.foldlM_append, located]
    have stepped : tree.step location name.toList = some (location ++ [name]) := by
      rw [step, inFolder, fileName.isName]
      simp
    simp [stepped]

/-! ## Reading and writing -/

/-- A path is read at its location. -/
theorem read?_eq {path : FilePath} (located : tree.locate? path = some location) :
    tree.read? path = (tree.entryAt? location).bind fun entry =>
      match entry with
      | .folder => none
      | .file content => content.text? := by
  rw [read?, located, Option.bind_some]
  cases tree.entryAt? location with
  | none => rfl
  | some entry => cases entry <;> rfl

/-- A text is read exactly where a file with this text is located. -/
theorem read?_eq_some_iff {path : FilePath} {text : String} :
    tree.read? path = some text ↔
      ∃ location, tree.locate? path = some location ∧
        tree.entryAt? location = some (.file (.text text)) := by
  constructor
  · intro found
    cases located : tree.locate? path with
    | none =>
        rw [read?, located] at found
        cases found
    | some location =>
        rw [read?_eq located] at found
        obtain ⟨entry, present, holds⟩ := Option.bind_eq_some_iff.mp found
        refine ⟨location, rfl, ?_⟩
        match entry, holds with
        | .file (.text there), holds => rw [present, Option.some.inj holds]
  · rintro ⟨location, located, present⟩
    rw [read?_eq located, present]
    rfl

/-- The new text is read at the place that was overwritten, and everywhere else what was there. -/
theorem Overwrites.read?_eq {path : FilePath} {place : Location} {text : String} {after : FileTree}
    (overwrites : Overwrites tree place text after) (located : tree.locate? path = some location) :
    after.read? path = if location = place then some text else tree.read? path := by
  have there := (locate?_congr overwrites.sameFolders path).trans located
  rw [FileTree.read?_eq there, FileTree.read?_eq located, overwrites.entries]
  split <;> rfl

/-- A file is written where its path leads, unless there is a folder. -/
theorem write?_eq_some_iff {path : FilePath} {content : FileContent} {after : FileTree} :
    tree.write? path content = some (after, location) ↔
      tree.locate? path = some location ∧ tree.isFolder location = false ∧
        after = tree.put location (.file content) := by
  unfold write?
  cases tree.locate? path with
  | none => simp
  | some place =>
      cases folder : tree.isFolder place with
      | true =>
          simp only [Option.bind_eq_bind, Option.bind_some, folder, ↓reduceIte, Option.some.injEq]
          constructor
          · intro written
            cases written
          · rintro ⟨rfl, free, -⟩
            rw [folder] at free
            cases free
      | false =>
          simp only [Option.bind_eq_bind, Option.bind_some, folder, Bool.false_eq_true,
            ↓reduceIte, Option.pure_def, Option.some.injEq, Prod.mk.injEq]
          constructor
          · rintro ⟨rfl, rfl⟩
            exact ⟨rfl, folder, rfl⟩
          · rintro ⟨rfl, -, rfl⟩
            exact ⟨rfl, rfl⟩

/-! ## Making folders -/

def Keeps (tree after : FileTree) : Prop :=
  ∀ location entry, tree.entryAt? location = some entry → after.entryAt? location = some entry

/-- What is kept of a tree are also its folders. -/
theorem Keeps.isFolder {after : FileTree} (keeps : Keeps tree after)
    (folder : tree.isFolder location = true) : after.isFolder location = true :=
  isFolder_iff.mpr (keeps _ _ (isFolder_iff.mp folder))

/-- Making a folder keeps everything, and there is one. -/
theorem makeFolder?_keeps {after : FileTree} (made : tree.makeFolder? location = some after) :
    Keeps tree after ∧ after.isFolder location = true := by
  unfold makeFolder? at made
  split at made
  next present =>
    cases made
    exact ⟨fun _ _ there => there, isFolder_iff.mpr present⟩
  next => cases made
  next absent =>
    cases made
    have below : location ≠ [] := fun top => by
      rw [top, entryAt?_nil] at absent
      cases absent
    refine ⟨fun place entry there => ?_, ?_⟩
    · rw [entryAt?_put tree below, if_neg, there]
      rintro rfl
      rw [there] at absent
      cases absent
    · rw [isFolder_iff, entryAt?_put tree below, if_pos rfl]

/-- Making the folders along a path keeps everything, and the path leads to the last one. -/
theorem makeSteps_keeps {pieces : List (List Char)} {start location : Location}
    {after : FileTree} (inFolder : tree.isFolder start = true)
    (made : pieces.foldlM makeStep (tree, start) = some (after, location)) :
    Keeps tree after ∧ pieces.foldlM after.step start = some location ∧
      after.isFolder location = true := by
  induction pieces generalizing tree start with
  | nil =>
      cases made
      exact ⟨fun _ _ there => there, rfl, inFolder⟩
  | cons piece rest ih =>
      rw [List.foldlM_cons] at made
      obtain ⟨⟨between, next⟩, first, others⟩ := Option.bind_eq_some_iff.mp made
      obtain ⟨place, stepped, folder⟩ := Option.bind_eq_some_iff.mp first
      obtain ⟨grown, extended, same⟩ := Option.bind_eq_some_iff.mp folder
      cases same
      obtain ⟨kept, there⟩ := makeFolder?_keeps extended
      obtain ⟨keeps, located, final⟩ := ih there others
      have throughout : Keeps tree after := fun _ _ present => keeps _ _ (kept _ _ present)
      have again : after.step start piece = some next := by
        rw [← stepped, step, step, inFolder, throughout.isFolder inFolder]
      refine ⟨throughout, ?_, final⟩
      rw [List.foldlM_cons, again]
      exact located

/-- After all folders on a path have been made, it leads to a folder. -/
theorem makeFolders?_eq_some {path : FilePath} (nonempty : path.text ≠ "") {after : FileTree}
    (made : tree.makeFolders? path = some after) :
    Keeps tree after ∧ ∃ location, after.locate? path = some location ∧
      after.isFolder location = true := by
  unfold makeFolders? at made
  split at made
  · cases made
  next relative =>
    obtain ⟨⟨grown, location⟩, ran, same⟩ := Option.map_eq_some_iff.mp made
    cases same
    obtain ⟨keeps, located, folder⟩ := makeSteps_keeps rfl ran
    refine ⟨keeps, location, ?_, folder⟩
    rw [locate?, if_neg (by simp [nonempty, relative]), located]

end FileTree

end VariantMerge
