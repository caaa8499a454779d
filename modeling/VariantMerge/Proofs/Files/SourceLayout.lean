import Mathlib.Data.List.DropRight
import VariantMerge.Proofs.Files.Tree

/-!
# The layout of source files

A module below the root stands in the file of its name, or in `mod.rs` of the folder of its name; the
root stands in `lib.rs`, `main.rs` or `mod.rs` at the top. A file that stands for a module is one of
these (`FilePath.mem_sourceFiles`), so two files that stand for one module are two of these
(`FilePath.module?_sourceLayout`).
-/

namespace VariantMerge

/-- Names of files are not empty, hold no slash, and are neither of the two that mean folders. -/
theorem FileTree.isFileName_iff {name : String} :
    FileTree.IsFileName name ↔ name ≠ "" ∧ '/' ∉ name.toList ∧ name ≠ "." ∧ name ≠ ".." := by
  have here : name.toList = ['.'] ↔ name = "." := @String.toList_inj name "."
  have up : name.toList = ['.', '.'] ↔ name = ".." := @String.toList_inj name ".."
  have part : FilePath.part? name.toList = some (.name name.toList) ↔
      name ≠ "" ∧ name ≠ "." ∧ name ≠ ".." := by
    unfold FilePath.part?
    simp only [String.toList_eq_nil_iff, here, up]
    by_cases dropped : name = "" ∨ name = "."
    · rw [if_pos dropped]
      rcases dropped with rfl | rfl <;> simp
    · rw [if_neg dropped]
      by_cases climbs : name = ".."
      · simp [climbs]
      · obtain ⟨filled, notHere⟩ := not_or.mp dropped
        simp [climbs, filled, notHere]
  constructor
  · rintro ⟨noSlash, isName⟩
    obtain ⟨nonempty, notHere, notUp⟩ := part.mp isName
    exact ⟨nonempty, noSlash, notHere, notUp⟩
  · rintro ⟨nonempty, noSlash, notHere, notUp⟩
    exact ⟨noSlash, part.mpr ⟨nonempty, notHere, notUp⟩⟩

instance (name : String) : Decidable (FileTree.IsFileName name) :=
  decidable_of_iff _ FileTree.isFileName_iff.symm

namespace FilePath

open FileTree (IsFileName)

/-- The normalised path that names lead along. -/
def ofNames (names : List String) : FilePath :=
  ⟨String.intercalate "/" names⟩

/-- A relative path without doubled or trailing slashes, and without dots in place of names. -/
def IsNormal (path : FilePath) : Prop :=
  ∃ names, names ≠ [] ∧ (∀ name ∈ names, IsFileName name) ∧ path = ofNames names

/-! ## Components of normalised paths -/

variable {names folders : List String} {file : String}

theorem pieces_ofNames (nonempty : names ≠ []) (fileNames : ∀ name ∈ names, IsFileName name) :
    (ofNames names).pieces = names.map String.toList := by
  rw [pieces, ofNames, String.toList_intercalate]
  refine List.splitOn_intercalate '/' (List.forall_mem_map.mpr fun name listed => ?_) ?_
  · exact (fileNames name listed).noSlash
  · exact fun empty => nonempty (List.map_eq_nil_iff.mp empty)

theorem parts_ofNames (nonempty : names ≠ []) (fileNames : ∀ name ∈ names, IsFileName name) :
    (ofNames names).parts = names.map fun name => .name name.toList := by
  obtain ⟨first, rest, rfl⟩ := List.exists_cons_of_ne_nil nonempty
  have pieces := pieces_ofNames nonempty fileNames
  obtain ⟨filled, noSlash, notHere, -⟩ :=
    FileTree.isFileName_iff.mp (fileNames first List.mem_cons_self)
  have relative : (ofNames (first :: rest)).isAbsolute = false := by
    obtain ⟨c, cs, chars⟩ := List.exists_cons_of_ne_nil
      (fun empty => filled (String.toList_eq_nil_iff.mp empty))
    have here : (ofNames (first :: rest)).text.toList.head? = some c := by
      rw [ofNames, String.toList_intercalate, List.map_cons, chars]
      cases rest <;> simp
    rw [chars] at noSlash
    rw [isAbsolute, here]
    simpa using fun slash : c = '/' => noSlash (slash ▸ List.mem_cons_self)
  have named : (ofNames (first :: rest)).pieces.head? ≠ some ['.'] := by
    rw [pieces]
    intro dot
    exact notHere (String.toList_inj.mp (Option.some.inj dot))
  have each (names : List String) (fileNames : ∀ name ∈ names, IsFileName name) :
      (names.map String.toList).filterMap part? = names.map fun name => .name name.toList := by
    rw [List.filterMap_map, ← List.filterMap_eq_map]
    refine List.filterMap_congr fun name listed => ?_
    exact (fileNames name listed).isName
  unfold parts
  rw [if_neg (by simp [relative]), if_neg named, pieces, each _ fileNames]
  rfl

theorem names_ofNames (nonempty : names ≠ []) (fileNames : ∀ name ∈ names, IsFileName name) :
    (ofNames names).names = names.map String.toList := by
  rw [FilePath.names, parts_ofNames nonempty fileNames, List.filterMap_map]
  exact congrFun List.filterMap_eq_map _

theorem fileName?_ofNames (fileNames : ∀ name ∈ folders ++ [file], IsFileName name) :
    (ofNames (folders ++ [file])).fileName? = some file.toList := by
  rw [fileName?, parts_ofNames (by simp) fileNames, List.map_append, List.map_singleton,
    List.getLast?_concat]

/-! ## Extensions -/

/-- A name is cut at its last dot, unless that is its first character. -/
theorem splitName?_eq_some_iff {name stem extension : List Char} :
    splitName? name = some (stem, extension) ↔
      name = stem ++ '.' :: extension ∧ stem ≠ [] ∧ '.' ∉ extension := by
  have whole := List.takeWhile_append_dropWhile (p := (· != '.')) (l := name.reverse)
  constructor
  · intro cut
    unfold splitName? at cut
    split at cut
    next dot c rest found =>
      obtain ⟨rfl, rfl⟩ := Prod.mk.inj (Option.some.inj cut)
      have isDot : dot = '.' := by
        have := List.head?_dropWhile_not (· != '.') name.reverse
        rw [found] at this
        simpa using this
      refine ⟨?_, by simp, fun inside => ?_⟩
      · have back := congrArg List.reverse whole
        rw [found, isDot, List.reverse_reverse, List.reverse_append, List.reverse_cons,
          List.append_assoc] at back
        exact back.symm
      · have kept := List.mem_takeWhile_imp (List.mem_reverse.mp inside)
        simp at kept
    next => cases cut
  · rintro ⟨rfl, nonempty, noDot⟩
    have front : ∀ c ∈ extension.reverse, (c != '.') = true := by
      intro c listed
      simpa using fun dot : c = '.' => noDot (dot ▸ List.mem_reverse.mp listed)
    have reversed : (stem ++ '.' :: extension).reverse =
        extension.reverse ++ '.' :: stem.reverse := by simp
    obtain ⟨c, rest, found⟩ := List.exists_cons_of_ne_nil
      (fun empty => nonempty (List.reverse_eq_nil_iff.mp empty))
    unfold splitName?
    rw [reversed, List.dropWhile_append_of_pos front, List.takeWhile_append_of_pos front, found]
    change some ((c :: rest).reverse, _) = _
    rw [← found]
    simp

/-- The files of source code are those whose names have a stem before the extension. -/
theorem module?_ofNames_iff (fileNames : ∀ name ∈ folders ++ [file], IsFileName name)
    {module : ModulePath} :
    (ofNames (folders ++ [file])).module? = some module ↔
      ∃ stem ≠ "", file = stem ++ ".rs" ∧ moduleIn folders stem = module := by
  have above : (ofNames (folders ++ [file])).names.dropLast.map String.ofList = folders := by
    rw [names_ofNames (by simp) fileNames, List.map_append, List.map_singleton,
      List.dropLast_concat, List.map_map]
    simp
  unfold module?
  rw [fileName?_ofNames fileNames, above, Option.bind_some]
  constructor
  · intro found
    split at found
    next stem extension cut =>
      obtain ⟨whole, nonempty, -⟩ := splitName?_eq_some_iff.mp cut
      split at found
      next source =>
        refine ⟨String.ofList stem, by simpa using nonempty, ?_, Option.some.inj found⟩
        rw [← String.toList_inj, whole, source, String.toList_append, String.toList_ofList]
        rfl
      next => cases found
    next => cases found
  · rintro ⟨stem, nonempty, rfl, rfl⟩
    have cut : splitName? (stem ++ ".rs").toList = some (stem.toList, sourceExtension) := by
      rw [splitName?_eq_some_iff]
      refine ⟨String.toList_append, ?_, by decide⟩
      exact fun empty => nonempty (String.toList_eq_nil_iff.mp empty)
    rw [cut]
    simp

/-! ## Paths as texts -/

theorem ofNames_concat (inside : folders ≠ []) (file : String) :
    ofNames (folders ++ [file]) = ⟨String.intercalate "/" folders ++ ("/" ++ file)⟩ := by
  rw [ofNames, String.intercalate_append_of_ne_nil inside (List.cons_ne_nil _ _),
    String.intercalate_singleton, String.append_assoc]

/-- What follows a path follows its last name. -/
theorem ofNames_append (folders : List String) (file ending : String) :
    ofNames (folders ++ [file ++ ending]) =
      ⟨String.intercalate "/" (folders ++ [file]) ++ ending⟩ := by
  by_cases top : folders = []
  · subst top
    simp [ofNames]
  · rw [ofNames_concat top, String.intercalate_append_of_ne_nil top (List.cons_ne_nil _ _),
      String.intercalate_singleton, String.append_assoc, String.append_assoc]

/-! ## The module of a file -/

/-- A file can hold the module of its name, unless its name is `mod`, or `lib` or `main` at the top. -/
def HasNamedFile (segments : List String) : Prop :=
  segments.getLast? ≠ some "mod" ∧ segments ≠ ["lib"] ∧ segments ≠ ["main"]

instance (segments : List String) : Decidable (HasNamedFile segments) :=
  inferInstanceAs (Decidable (_ ∧ _))

/-- A file holds the module of its folder if it is called `mod`, the root if it is at the top and is
called `lib` or `main`, and the module of its own name otherwise. -/
theorem moduleIn_eq_iff {stem : String} {segments : List String} :
    moduleIn folders stem = ⟨segments⟩ ↔
      (stem = "mod" ∧ folders = segments) ∨
        (folders = [] ∧ segments = [] ∧ (stem = "lib" ∨ stem = "main")) ∨
          (folders ++ [stem] = segments ∧ HasNamedFile segments) := by
  have named : HasNamedFile (folders ++ [stem]) ↔
      ¬ (stem = "mod" ∨ (folders = [] ∧ (stem = "lib" ∨ stem = "main"))) := by
    rw [HasNamedFile, List.getLast?_concat]
    cases folders with
    | nil => simp [not_or]
    | cons first rest => simp
  unfold moduleIn
  by_cases special : stem = "mod" ∨ (folders = [] ∧ (stem = "lib" ∨ stem = "main"))
  · rw [if_pos special, ModulePath.mk.injEq]
    constructor
    · rintro rfl
      obtain isMod | ⟨rfl, top⟩ := special
      · exact .inl ⟨isMod, rfl⟩
      · exact .inr (.inl ⟨rfl, rfl, top⟩)
    · rintro (⟨-, same⟩ | ⟨rfl, rfl, -⟩ | ⟨rfl, plain⟩)
      · exact same
      · rfl
      · exact absurd special (named.mp plain)
  · rw [if_neg special, ModulePath.mk.injEq]
    constructor
    · rintro rfl
      exact .inr (.inr ⟨rfl, named.mpr special⟩)
    · rintro (⟨isMod, -⟩ | ⟨top, -, isRoot⟩ | ⟨same, -⟩)
      · exact absurd (.inl isMod) special
      · exact absurd (.inr ⟨top, isRoot⟩) special
      · exact same

end FilePath

namespace ModulePath

open FilePath (HasNamedFile)

/-- The paths of the files that can hold a module, below the source root. -/
def sourceFiles (module : ModulePath) : List String :=
  if module.isRoot then ["lib.rs", "main.rs", "mod.rs"]
  else
    let path := String.intercalate "/" module.segments
    if HasNamedFile module.segments then [path ++ ".rs", path ++ "/mod.rs"]
    else [path ++ "/mod.rs"]

theorem sourceFiles_of_ne_nil {segments : List String} (inside : segments ≠ []) :
    sourceFiles ⟨segments⟩ =
      if HasNamedFile segments then
        [String.intercalate "/" segments ++ ".rs", String.intercalate "/" segments ++ "/mod.rs"]
      else [String.intercalate "/" segments ++ "/mod.rs"] :=
  if_neg (by simpa [isRoot] using inside)

end ModulePath

namespace FilePath

open FileTree (IsFileName isFileName_iff)

variable {path : FilePath} {module : ModulePath} {segments : List String}

/-- **The files of a module.** A source file that stands for a module is one of those that can hold
it. -/
theorem mem_sourceFiles (normal : path.IsNormal) (stands : path.module? = some module) :
    path.text ∈ module.sourceFiles := by
  obtain ⟨names, nonempty, fileNames, rfl⟩ := normal
  obtain rfl | ⟨folders, file, rfl⟩ := List.eq_nil_or_concat' names
  · exact absurd rfl nonempty
  obtain ⟨stem, -, rfl, held⟩ := (module?_ofNames_iff fileNames).mp stands
  obtain ⟨segments⟩ := module
  obtain ⟨rfl, rfl⟩ | ⟨rfl, rfl, isRoot⟩ | ⟨rfl, named⟩ := moduleIn_eq_iff.mp held
  · by_cases top : folders = []
    · subst top
      decide
    · rw [ofNames_concat top, ModulePath.sourceFiles_of_ne_nil top]
      split
      · exact List.mem_cons_of_mem _ List.mem_cons_self
      · exact List.mem_cons_self
  · obtain rfl | rfl := isRoot <;> decide
  · rw [ofNames_append, ModulePath.sourceFiles_of_ne_nil (by simp), if_pos named]
    exact List.mem_cons_self

/-- The file `mod.rs` in the folder of a module holds the module. -/
theorem module?_modFile (inside : segments ≠ [])
    (fileNames : ∀ segment ∈ segments, IsFileName segment) :
    (FilePath.mk (String.intercalate "/" segments ++ "/mod.rs")).module? = some ⟨segments⟩ := by
  have named : ∀ name ∈ segments ++ ["mod.rs"], IsFileName name :=
    List.forall_mem_append.mpr ⟨fileNames, List.forall_mem_singleton.mpr (by decide)⟩
  have path := ofNames_concat inside "mod.rs"
  rw [show "/" ++ "mod.rs" = "/mod.rs" from rfl] at path
  rw [← path, module?_ofNames_iff named]
  exact ⟨"mod", by decide, rfl, moduleIn_eq_iff.mpr (.inl ⟨rfl, rfl⟩)⟩

theorem isFileName_source (isName : IsFileName file) : IsFileName (file ++ ".rs") := by
  obtain ⟨-, noSlash, -⟩ := isFileName_iff.mp isName
  have last : (file ++ ".rs").toList.getLast? = some 's' := by
    rw [String.toList_append]
    exact List.getLast?_append_of_ne_nil _ (List.cons_ne_nil _ _)
  have apart {other : String} (differs : other.toList.getLast? ≠ some 's') :
      file ++ ".rs" ≠ other := by
    rintro rfl
    exact differs last
  refine isFileName_iff.mpr ⟨apart (by decide), ?_, apart (by decide), apart (by decide)⟩
  rw [String.toList_append, List.mem_append]
  exact not_or.mpr ⟨noSlash, by decide⟩

/-- The file that is called like a module holds the module, unless the name is taken. -/
theorem module?_namedFile (inside : segments ≠ [])
    (fileNames : ∀ segment ∈ segments, IsFileName segment) (named : HasNamedFile segments) :
    (FilePath.mk (String.intercalate "/" segments ++ ".rs")).module? = some ⟨segments⟩ := by
  obtain rfl | ⟨folders, stem, rfl⟩ := List.eq_nil_or_concat' segments
  · exact absurd rfl inside
  obtain ⟨above, last⟩ := List.forall_mem_append.mp fileNames
  obtain ⟨nonempty, -⟩ := isFileName_iff.mp (last stem List.mem_cons_self)
  have fileNames : ∀ name ∈ folders ++ [stem ++ ".rs"], IsFileName name :=
    List.forall_mem_append.mpr
      ⟨above, List.forall_mem_singleton.mpr (isFileName_source (last stem List.mem_cons_self))⟩
  rw [← ofNames_append, module?_ofNames_iff fileNames]
  exact ⟨stem, nonempty, rfl, moduleIn_eq_iff.mpr (.inr (.inr ⟨rfl, named⟩))⟩

/-- **The layout of source files.** Each module below the root stands in the file of its name, unless
that name is taken, and in `mod.rs` of its folder. Two files stand for the same module only if they
are these two, or both files of the root. -/
theorem module?_sourceLayout :
    (∀ segments : List String, segments ≠ [] → (∀ segment ∈ segments, IsFileName segment) →
      (segments.getLast? ≠ some "mod" → segments ≠ ["lib"] → segments ≠ ["main"] →
        (FilePath.mk (String.intercalate "/" segments ++ ".rs")).module? = some ⟨segments⟩) ∧
      (FilePath.mk (String.intercalate "/" segments ++ "/mod.rs")).module? = some ⟨segments⟩) ∧
    ∀ path other : FilePath, path.IsNormal → other.IsNormal → path ≠ other →
      ∀ module : ModulePath, path.module? = some module → other.module? = some module →
        (∃ stem, path.text = stem ++ ".rs" ∧ other.text = stem ++ "/mod.rs" ∨
          path.text = stem ++ "/mod.rs" ∧ other.text = stem ++ ".rs") ∨
        path.text ∈ ["lib.rs", "main.rs", "mod.rs"] ∧
          other.text ∈ ["lib.rs", "main.rs", "mod.rs"] := by
  refine ⟨fun segments inside fileNames => ⟨fun notMod notLib notMain => ?_, ?_⟩, ?_⟩
  · exact module?_namedFile inside fileNames ⟨notMod, notLib, notMain⟩
  · exact module?_modFile inside fileNames
  · intro path other normal otherNormal different module stands otherStands
    have here := mem_sourceFiles normal stands
    have there := mem_sourceFiles otherNormal otherStands
    obtain ⟨segments⟩ := module
    by_cases root : segments = []
    · subst root
      exact .inr ⟨here, there⟩
    · have texts : path.text ≠ other.text := fun same => different (congrArg FilePath.mk same)
      rw [ModulePath.sourceFiles_of_ne_nil root] at here there
      refine .inl ⟨String.intercalate "/" segments, ?_⟩
      split at here
      next named =>
        rw [if_pos named] at there
        simp only [List.mem_cons, List.not_mem_nil, or_false] at here there
        obtain first | second := here
        · obtain same | modFile := there
          · exact absurd (first.trans same.symm) texts
          · exact .inl ⟨first, modFile⟩
        · obtain namedFile | same := there
          · exact .inr ⟨second, namedFile⟩
          · exact absurd (second.trans same.symm) texts
      next taken =>
        rw [if_neg taken] at there
        exact absurd ((List.mem_singleton.mp here).trans (List.mem_singleton.mp there).symm) texts

/-- A nested module in both of its files, and the two files of one module. -/
theorem module?_sourceLayout_states :
    (FilePath.mk "states/idle.rs").module? = some ⟨["states", "idle"]⟩ ∧
      (FilePath.mk "states/idle/mod.rs").module? = some ⟨["states", "idle"]⟩ ∧
      ((∃ stem, "states.rs" = stem ++ ".rs" ∧ "states/mod.rs" = stem ++ "/mod.rs" ∨
          "states.rs" = stem ++ "/mod.rs" ∧ "states/mod.rs" = stem ++ ".rs") ∨
        "states.rs" ∈ ["lib.rs", "main.rs", "mod.rs"] ∧
          "states/mod.rs" ∈ ["lib.rs", "main.rs", "mod.rs"]) := by
  obtain ⟨nested, two⟩ := module?_sourceLayout
  obtain ⟨named, modFile⟩ := nested ["states", "idle"] (by decide) (by decide)
  refine ⟨named (by decide) (by decide) (by decide), modFile, ?_⟩
  exact two ⟨"states.rs"⟩ ⟨"states/mod.rs"⟩ ⟨["states.rs"], by decide, by decide, by decide⟩
    ⟨["states", "mod.rs"], by decide, by decide, by decide⟩ (by decide) ⟨["states"]⟩ (by decide)
    (by decide)

end FilePath

end VariantMerge
