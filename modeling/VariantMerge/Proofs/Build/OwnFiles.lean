import VariantMerge.Proofs.Build.Outcome
import VariantMerge.Proofs.Files.Tree
import VariantMerge.Proofs.Generation.Indentation
import VariantMerge.Proofs.ModulePath.FileStem

/-!
# The file of each module

A build step writes one unit after the other. What is in a file afterwards is the last unit that was
written there (`BuildInputs.entryAt?_writeEach`). So a module's file holds its own unit if no other
module of the step has a file of that name, and that is so if the names can be read back
(`BuildPlan.run_ownFiles`). Otherwise units are lost (`BuildPlan.run_ownFiles_underscores`).
-/

namespace VariantMerge

/-! ## Names of files -/

namespace ModulePath

/-- No segment of the module's path goes into a folder. -/
def IsFlat (module : ModulePath) : Prop :=
  ∀ segment ∈ module.segments, '/' ∉ segment.toList

instance (module : ModulePath) : Decidable module.IsFlat :=
  inferInstanceAs (Decidable (∀ segment ∈ module.segments, _))

/-- Names without slashes are joined to one without slashes. -/
theorem notMem_joined {segments : List String} (flat : ∀ segment ∈ segments, '/' ∉ segment.toList) :
    '/' ∉ joined segments := by
  match segments with
  | [] => exact List.not_mem_nil
  | [segment] => exact joined_singleton segment ▸ flat segment List.mem_cons_self
  | first :: second :: rest =>
    have later := notMem_joined fun segment listed => flat segment (List.mem_cons_of_mem _ listed)
    rw [joined_cons_cons, List.mem_append, List.mem_append]
    rintro (here | between | after)
    · exact flat first List.mem_cons_self here
    · exact absurd between (by decide)
    · exact later after

/-- The file of a module stands in the folder of all of them. -/
theorem isFileName {module : ModulePath} (flat : module.IsFlat) :
    FileTree.IsFileName (module.fileStem ++ ".rs") := by
  have stem : '/' ∉ module.fileStem.toList := by
    by_cases root : module.segments = []
    · have name : module.fileStem = "crate" := by simp [fileStem, isRoot, root]
      rw [name]
      decide
    · rw [fileStem_toList root]
      exact notMem_joined flat
  constructor
  · rw [String.toList_append, List.mem_append]
    rintro (here | extension)
    · exact stem here
    · exact absurd extension (by decide)
  · have length : 3 ≤ (module.fileStem ++ ".rs").toList.length := by simp
    rw [FilePath.part?, if_neg, if_neg]
    · intro same
      simp [same] at length
    · rintro (same | same)
      · simp [same] at length
      · simp [same] at length

end ModulePath

namespace BuildPlan

/-- The folder for generated files is a folder by its path. -/
theorem isFolderPath_target (output : FilePath) :
    FileTree.IsFolderPath (output.join targetName) := by
  have relative : ¬ (targetName.toList.head? == some '/') = true := by decide
  unfold FilePath.join
  rw [if_neg relative]
  split
  · exact ⟨by simp [targetName], by simp [targetName]⟩
  · exact ⟨by simp, by simp [targetName]⟩

end BuildPlan

namespace BuildInputs

open BuildPlan (unitPath)
open FileTree (SameFolders)

variable {inputs : BuildInputs} {tree after : FileTree} {base : Location} {module : ModulePath}

/-! ## Writing the files -/

/-- The folder of the files is there, at this location. -/
structure Receives (inputs : BuildInputs) (base : Location) (tree : FileTree) : Prop where
  target : FileTree.IsFolderPath inputs.target
  located : tree.locate? inputs.target = some base
  folder : tree.isFolder base = true

/-- Folders are all that it takes to receive files. -/
theorem Receives.congr (receives : Receives inputs base tree) (same : SameFolders after tree) :
    Receives inputs base after where
  target := receives.target
  located := (FileTree.locate?_congr same inputs.target).trans receives.located
  folder := (same base).trans receives.folder

def placeOf (base : Location) (module : ModulePath) : Location :=
  base ++ [module.fileStem ++ ".rs"]

/-- The file of a unit is located in the folder for generated files. -/
theorem Receives.locate?_unitPath (receives : Receives inputs base tree) (flat : module.IsFlat) :
    tree.locate? (unitPath inputs.target module) = some (placeOf base module) :=
  FileTree.locate?_join receives.target (ModulePath.isFileName flat) receives.located
    receives.folder

/-- Two modules have one place exactly if they have one file stem. -/
theorem placeOf_inj {other : ModulePath} :
    placeOf base module = placeOf base other ↔ module.fileStem = other.fileStem := by
  simp [placeOf]

/-- **Writing one file.** Its location gets the unit, if the unit has a text, and nothing else
changes. -/
theorem entryAt?_write (receives : Receives inputs base tree) (flat : module.IsFlat)
    (written : inputs.write tree module = .ok after) :
    SameFolders after tree ∧ ∀ location, after.entryAt? location =
      match inputs.unitOf module with
      | .ok text =>
        if location = placeOf base module then some (.file (.text text)) else tree.entryAt? location
      | .error _ => tree.entryAt? location := by
  have located := receives.locate?_unitPath flat
  cases unit : inputs.unitOf module with
  | error failure =>
      rw [write_of_error unit] at written
      cases written
      exact ⟨.refl tree, fun _ => rfl⟩
  | ok text =>
      by_cases free : tree.isFolder (placeOf base module) = false
      · obtain ⟨grown, wrote, overwrites⟩ := write_of_free unit located free
        obtain rfl := Except.ok.inj (wrote.symm.trans written)
        exact ⟨overwrites.sameFolders, overwrites.entries⟩
      · rw [write_of_blocked unit fun place there => ?_] at written
        · cases written
        · obtain rfl := Option.some.inj (located.symm.trans there)
          exact Bool.of_not_eq_false free

/-- The units that are written to a location, in order. -/
def textsAt (inputs : BuildInputs) (base location : Location) (modules : List ModulePath) :
    List String :=
  modules.filterMap fun module =>
    if location = placeOf base module then (inputs.unitOf module).toOption else none

/-- A module gives its text to its own place. -/
theorem textsAt_cons (inputs : BuildInputs) (base location : Location) (module : ModulePath)
    (rest : List ModulePath) :
    inputs.textsAt base location (module :: rest) =
      (if location = placeOf base module then (inputs.unitOf module).toOption else none).toList ++
        inputs.textsAt base location rest := by
  unfold textsAt
  rw [List.filterMap_cons]
  split
  next absent => rw [absent, Option.toList_none, List.nil_append]
  next text present => rw [present, Option.toList_some, List.singleton_append]

/-- **Writing all files.** What is at a location afterwards is the last unit that was written there,
or what was there before. -/
theorem entryAt?_writeEach {modules : List ModulePath} (receives : Receives inputs base tree)
    (flat : ∀ module ∈ modules, module.IsFlat)
    (written : inputs.writeEach modules tree = (.ok (), after)) :
    SameFolders after tree ∧ ∀ location, after.entryAt? location =
      match (inputs.textsAt base location modules).getLast? with
      | some text => some (.file (.text text))
      | none => tree.entryAt? location := by
  -- Units are written over earlier ones, so the tree changes under the induction.
  induction modules generalizing tree with
  | nil =>
      cases written
      exact ⟨.refl _, fun _ => rfl⟩
  | cons module rest ih =>
      rw [writeEach] at written
      split at written
      · cases written
      next between first =>
        obtain ⟨same, here⟩ := entryAt?_write receives (flat module List.mem_cons_self) first
        obtain ⟨further, later⟩ := ih (receives.congr same)
          (fun other listed => flat other (List.mem_cons_of_mem _ listed)) written
        refine ⟨further.trans same, fun location => ?_⟩
        rw [later, here, textsAt_cons]
        cases inputs.unitOf module with
        | error failure => simp [Except.toOption]
        | ok text =>
            by_cases there : location = placeOf base module
            · subst there
              cases last : (inputs.textsAt base (placeOf base module) rest).getLast? <;>
                simp [last, Except.toOption, List.getLast?_cons]
            · simp [there]

/-- The unit of a module has a text if its indentation can be built. -/
theorem exists_unitOf {unit : String} (built : inputs.config.indent.unit? = some unit)
    (module : ModulePath) : ∃ text, inputs.unitOf module = .ok text :=
  ⟨_, ModuleUnit.render_eq built module fun _ hosted =>
    Generation.startsVisibly_of_mem_sources (List.mem_filter.mp hosted).1⟩

/-- The texts for a place are those of the modules that have it. -/
theorem mem_textsAt_iff {location : Location} {modules : List ModulePath} {text : String} :
    text ∈ inputs.textsAt base location modules ↔
      ∃ module ∈ modules, location = placeOf base module ∧ inputs.unitOf module = .ok text := by
  rw [textsAt, List.mem_filterMap]
  refine exists_congr fun module => and_congr_right fun _ => ?_
  by_cases here : location = placeOf base module
  · cases inputs.unitOf module <;> simp [here, Except.toOption]
  · simp [here]

/-- The file of a module holds the unit of a module with a file of that name. -/
theorem exists_read?_unitPath {modules : List ModulePath} (receives : Receives inputs base tree)
    (flat : ∀ module ∈ modules, module.IsFlat)
    (written : inputs.writeEach modules tree = (.ok (), after)) (listed : module ∈ modules)
    {text : String} (unit : inputs.unitOf module = .ok text) :
    ∃ last ∈ modules, last.fileStem = module.fileStem ∧ ∃ final, inputs.unitOf last = .ok final ∧
      after.read? (unitPath inputs.target module) = some final := by
  obtain ⟨same, entries⟩ := entryAt?_writeEach receives flat written
  have member : text ∈ inputs.textsAt base (placeOf base module) modules :=
    mem_textsAt_iff.mpr ⟨module, listed, rfl, unit⟩
  obtain ⟨final, last⟩ := Option.isSome_iff_exists.mp
    (List.getLast?_isSome.mpr (List.ne_nil_of_mem member))
  obtain ⟨other, there, place, holds⟩ := mem_textsAt_iff.mp (List.mem_of_getLast? last)
  refine ⟨other, there, (placeOf_inj.mp place).symm, final, holds, ?_⟩
  have located := (receives.congr same).locate?_unitPath (flat module listed)
  rw [FileTree.read?_eq located, entries, last]
  rfl

end BuildInputs

namespace BuildPlan

variable {plan : BuildPlan} {environment : Option FilePath} {tree : FileTree}
  {inputs : BuildInputs} {report : BuildReport} {state : BuildState}

/-- Two modules with one path have one file stem. -/
theorem unitPath_inj {output : FilePath} {module other : ModulePath} (flat : module.IsFlat)
    (flat' : other.IsFlat)
    (same : unitPath (output.join targetName) module = unitPath (output.join targetName) other) :
    module.fileStem = other.fileStem := by
  have texts := congrArg FilePath.text same
  have folder := isFolderPath_target output
  rw [unitPath, unitPath, FileTree.join_text folder (ModulePath.isFileName flat),
    FileTree.join_text folder (ModulePath.isFileName flat')] at texts
  have chars := congrArg String.toList texts
  simp only [String.toList_append, List.append_cancel_left_eq, List.append_cancel_right_eq]
    at chars
  exact String.toList_injective chars

/-- The target is the folder for generated files in the output folder. -/
theorem inputs_target (read : plan.inputs environment tree = .ok inputs) :
    ∃ output : FilePath, inputs.target = output.join targetName := by
  obtain ⟨-, output, -, -, -, -, -, -, target⟩ := BuildPlan.inputs_eq_ok read
  exact ⟨output, target⟩

/-- What a build step that finishes has read and written. -/
theorem exists_inputs (finished : plan.run environment tree = (.ok report, state)) :
    ∃ inputs, plan.inputs environment tree = .ok inputs ∧ report = inputs.report ∧
      ∃ prepared, tree.makeFolders? inputs.target = some prepared ∧
        inputs.writeEach inputs.modules prepared = (.ok (), state.tree) := by
  have outcome := run_eq_outcome plan environment tree
  rw [finished, BuildPlan.outcome] at outcome
  cases read : plan.inputs environment tree with
  | error error =>
      rw [read] at outcome
      cases outcome
  | ok inputs =>
      rw [read] at outcome
      dsimp only [BuildInputs.outcome] at outcome
      refine ⟨inputs, rfl, ?_⟩
      cases made : tree.makeFolders? inputs.target with
      | none =>
          rw [made] at outcome
          cases outcome
      | some prepared =>
          rw [made] at outcome
          obtain ⟨result, left⟩ := Prod.mk.inj outcome
          cases ended : inputs.writeEach inputs.modules prepared with
          | mk wrote after =>
              rw [ended] at result left
              cases wrote with
              | error error => cases result
              | ok _ => exact ⟨Except.ok.inj result, prepared, rfl, by rw [left]; exact ended⟩

/-- **Each module has a file.** If the indentation can be built, a step that finishes has written a
file for each of its modules, and the file holds the unit of a module with a file of that name. This
is the module itself if no other one has: if the segments of both modules can be read back. -/
theorem run_ownFiles {unit : String} (finished : plan.run environment tree = (.ok report, state))
    (read : plan.inputs environment tree = .ok inputs)
    (built : inputs.config.indent.unit? = some unit)
    (flat : ∀ module ∈ inputs.modules, module.IsFlat) :
    report.written = inputs.modules.map (unitPath inputs.target) ∧
    (∀ module ∈ inputs.modules, ∃ last ∈ inputs.modules, last.fileStem = module.fileStem ∧
      ∃ text, inputs.unitOf last = .ok text ∧
        state.tree.read? (unitPath inputs.target module) = some text) ∧
    (∀ module ∈ inputs.modules,
      (∀ other ∈ inputs.modules, other ≠ module →
        ModulePath.Readable (module.segments ++ other.segments)) →
      (∀ other ∈ inputs.modules, other ≠ module →
        unitPath inputs.target other ≠ unitPath inputs.target module) ∧
      ∃ text, inputs.unitOf module = .ok text ∧
        state.tree.read? (unitPath inputs.target module) = some text) := by
  obtain ⟨inputs', read', rfl, prepared, made, wrote⟩ := exists_inputs finished
  obtain rfl : inputs' = inputs := Except.ok.inj (read'.symm.trans read)
  obtain ⟨output, target⟩ := inputs_target read
  have folder : FileTree.IsFolderPath inputs'.target := target ▸ isFolderPath_target output
  obtain ⟨-, base, located, there⟩ := FileTree.makeFolders?_eq_some folder.nonempty made
  have receives : inputs'.Receives base prepared := ⟨folder, located, there⟩
  choose text unit using inputs'.exists_unitOf built
  have files : ∀ module ∈ inputs'.modules, ∃ last ∈ inputs'.modules,
      last.fileStem = module.fileStem ∧ ∃ text, inputs'.unitOf last = .ok text ∧
        state.tree.read? (unitPath inputs'.target module) = some text :=
    fun module listed => inputs'.exists_read?_unitPath receives flat wrote listed (unit module)
  refine ⟨?_, files, fun module listed readable => ⟨fun other there' different same => ?_, ?_⟩⟩
  · have each (module : ModulePath) :
        (inputs'.fileOf module).toOption = some (unitPath inputs'.target module) := by
      rw [BuildInputs.fileOf, unit]
      rfl
    rw [BuildInputs.report]
    simp only [each]
    exact congrFun List.filterMap_eq_map' _
  · rw [target] at same
    have stems := unitPath_inj (flat other there') (flat module listed) same
    have readable := readable other there' different
    exact different (ModulePath.fileStem_injective readable stems.symm).symm
  · obtain ⟨last, there', stem, holds⟩ := files module listed
    by_cases own : last = module
    · exact own ▸ holds
    · exact absurd (ModulePath.fileStem_injective (readable last there' own) stem.symm).symm own

/-- A plan for one file at each of these modules, without anything in it. -/
def emptyFiles (modules : List (String × ModulePath)) : BuildPlan where
  sourceFolders := []
  files := modules.map fun (name, module) => ⟨⟨name⟩, some module⟩
  config := none
  configFile := none
  outputFolder := some ⟨"out"⟩
  showsDirectives := false

def emptyTree (modules : List (String × ModulePath)) : FileTree :=
  ⟨modules.map fun (name, _) => ([name], .file (.text ""))⟩

/-- A folder with a module at the root and one in it. -/
def stateModules : List (String × ModulePath) :=
  [("lib.rs", .root), ("states.rs", ⟨["states"]⟩), ("idle.rs", ⟨["states", "idle"]⟩)]

/-- A pair is known by its first part and some second one. -/
theorem exists_of_fst_eq {pair : α × β} {first : α} (same : pair.1 = first) :
    ∃ second, pair = (first, second) :=
  ⟨pair.2, Prod.ext same rfl⟩

/-- The modules of the states have files of their own. -/
theorem run_ownFiles_states :
    ∃ report state inputs, (emptyFiles stateModules).run none (emptyTree stateModules) =
        (.ok report, state) ∧
      (emptyFiles stateModules).inputs none (emptyTree stateModules) = .ok inputs ∧
      inputs.config.indent.unit? = some "    " ∧
      (∀ module ∈ inputs.modules, module.IsFlat) ∧
      ∀ module ∈ inputs.modules, ∃ text, inputs.unitOf module = .ok text ∧
        state.tree.read? (unitPath inputs.target module) = some text := by
  have finishes : ((emptyFiles stateModules).run none (emptyTree stateModules)).1.toOption.map
      (·.scanned.length) = some 3 := by decide +kernel
  have reads : ((emptyFiles stateModules).inputs none (emptyTree stateModules)).toOption.map
      (fun inputs => (inputs.config.indent.unit?, inputs.modules)) =
        some (some "    ", [.root, ⟨["states"]⟩, ⟨["states", "idle"]⟩]) := by decide +kernel
  obtain ⟨report, result, -⟩ := Except.exists_of_toOption_map finishes
  obtain ⟨inputs, read, facts⟩ := Except.exists_of_toOption_map reads
  obtain ⟨built, modules⟩ := Prod.mk.inj facts
  obtain ⟨state, finished⟩ := exists_of_fst_eq result
  have flat : ∀ module ∈ inputs.modules, module.IsFlat := by
    rw [modules]
    decide +kernel
  have readable : ∀ module ∈ inputs.modules, ∀ other ∈ inputs.modules, other ≠ module →
      ModulePath.Readable (module.segments ++ other.segments) := by
    rw [modules]
    decide +kernel
  obtain ⟨-, -, own⟩ := run_ownFiles finished read built flat
  exact ⟨report, state, inputs, finished, read, built, flat,
    fun module listed => (own module listed (readable module listed)).2⟩

/-- Two modules whose files have one name. -/
def joinedModules : List (String × ModulePath) :=
  [("joined.rs", ⟨["a__b"]⟩), ("nested.rs", ⟨["a", "b"]⟩)]

/-- The unit of a module with two underscores in its name is overwritten. -/
theorem run_ownFiles_underscores :
    (∀ module ∈ joinedModules.map Prod.snd, ∀ segment ∈ module.segments,
      Config.isIdentifier segment.toList = true ∧ segment ≠ "crate") ∧
    ((emptyFiles joinedModules).run none (emptyTree joinedModules)).1.toOption.map
        BuildReport.written =
      some [⟨"out/polystruct/a__b.rs"⟩, ⟨"out/polystruct/a__b.rs"⟩] ∧
    ((emptyFiles joinedModules).run none (emptyTree joinedModules)).2.tree.read?
        ⟨"out/polystruct/a__b.rs"⟩ =
      some "// @generated by polystruct for `crate::a::b`. Do not edit.\n" ∧
    ((emptyFiles joinedModules).inputs none (emptyTree joinedModules)).toOption.map
        (fun inputs => (inputs.unitOf ⟨["a__b"]⟩).toOption) =
      some (some "// @generated by polystruct for `crate::a__b`. Do not edit.\n") := by
  refine ⟨?_, ?_, ?_, ?_⟩
  · decide +kernel
  · decide +kernel
  · decide +kernel
  · decide +kernel

end BuildPlan

end VariantMerge
