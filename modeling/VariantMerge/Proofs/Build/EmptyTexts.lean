import VariantMerge.Proofs.Build.Outcome
import VariantMerge.Proofs.Files.Emptied
import VariantMerge.Proofs.Generation.EmptyUnits

/-!
# Inputs with empty texts

If a text cannot be read, the module of its file is still a module of the step. So the step has the
same modules and units as if the text were empty, and writes them alike, also to a tree in which
some files are empty (`BuildInputs.outcome_emptied`).
-/

namespace VariantMerge

namespace BuildReport

/-- The report with warnings before all other diagnostics. -/
def withWarnings (warnings : List Diagnostic) (report : BuildReport) : BuildReport :=
  { report with diagnostics := warnings ++ report.diagnostics }

end BuildReport

namespace BuildPlan

/-- The warning about a file that is passed by. -/
def skipWarning (source : FilePath × SyntaxError) : Diagnostic :=
  ⟨.warning, none, (Failure.parse source.1.text source.2.message).message⟩

namespace ReadSource

/-! ## What is read -/

/-- The source as it is read if its text is taken away, unless it could be read before. -/
def emptied (source : ReadSource) : ReadSource :=
  match source.unit with
  | .ok _ => source
  | .error _ => .ofText source.path source.module ""

/-- The source is what some text holds. -/
def IsRead (source : ReadSource) : Prop :=
  ∃ text, source = .ofText source.path source.module text

/-- A text that can be parsed gives a unit. -/
theorem ofText_of_ok {path : FilePath} {module : ModulePath} {text : String} {items : List Item}
    (parsed : Source.parseFile text = .ok items) :
    ofText path module text = ⟨path, module, .ok ⟨path.text, module, items⟩⟩ := by
  rw [ofText, SourceUnit.parse, parsed]

/-- A text that cannot be parsed gives a warning. -/
theorem ofText_of_error {path : FilePath} {module : ModulePath} {text : String}
    {problem : SyntaxError} (wrong : Source.parseFile text = .error problem) :
    ofText path module text = ⟨path, module, .error (skipWarning (path, problem))⟩ := by
  rw [ofText, SourceUnit.parse, wrong]
  rfl

/-- The empty text gives a unit without items. -/
theorem ofText_empty (path : FilePath) (module : ModulePath) :
    ofText path module "" = ⟨path, module, .ok ⟨path.text, module, []⟩⟩ :=
  ofText_of_ok rfl

/-- The path of a source is the one that was read. -/
theorem ofText_path (path : FilePath) (module : ModulePath) (text : String) :
    (ofText path module text).path = path := by
  unfold ofText
  split <;> rfl

/-- The module of a source is the one of its path. -/
theorem ofText_module (path : FilePath) (module : ModulePath) (text : String) :
    (ofText path module text).module = module := by
  unfold ofText
  split <;> rfl

/-- A source is read whatever its text is. -/
theorem isRead_ofText (path : FilePath) (module : ModulePath) (text : String) :
    (ofText path module text).IsRead :=
  ⟨text, by rw [ofText_path, ofText_module]⟩

/-- A unit has the module of its source. -/
theorem IsRead.module_eq {source : ReadSource} (read : source.IsRead) {unit : SourceUnit}
    (given : source.unit? = some unit) : unit.module = source.module := by
  obtain ⟨text, same⟩ := read
  rw [unit?, same] at given
  cases parsed : Source.parseFile text with
  | ok items =>
      rw [ofText_of_ok parsed] at given
      cases given
      rfl
  | error problem =>
      rw [ofText_of_error parsed] at given
      cases given

/-- Emptying a source keeps its path. -/
theorem emptied_path (source : ReadSource) : source.emptied.path = source.path := by
  rw [emptied]
  split
  · rfl
  · exact ofText_path _ _ _

/-- Emptying a source keeps its module. -/
theorem emptied_module (source : ReadSource) : source.emptied.module = source.module := by
  rw [emptied]
  split
  · rfl
  · exact ofText_module _ _ _

/-- An emptied source was read as well. -/
theorem IsRead.emptied {source : ReadSource} (read : source.IsRead) : source.emptied.IsRead := by
  rw [ReadSource.emptied]
  split
  · exact read
  · exact isRead_ofText _ _ _

/-- An emptied source gives no warning. -/
theorem warning?_emptied (source : ReadSource) : source.emptied.warning? = none := by
  rw [emptied]
  split
  next given => rw [warning?, given]
  next => rw [ofText_empty, warning?]

/-- A source has the same items if its text is taken away when it cannot be read. -/
theorem filter_unit?_emptied (source : ReadSource) :
    source.emptied.unit?.filter SourceUnit.declares = source.unit?.filter SourceUnit.declares := by
  rw [emptied]
  split
  next => rfl
  next given =>
    rw [ofText_empty, unit?, unit?, given]
    rfl

end ReadSource

end BuildPlan

namespace BuildInputs

open BuildPlan

variable {inputs : BuildInputs}

/-! ## The same step -/

/-- The inputs of the step, where the texts that cannot be read are empty. -/
def emptied (inputs : BuildInputs) : BuildInputs :=
  { inputs with read := inputs.read.map ReadSource.emptied }

/-- Emptying sources changes units only to empty ones. -/
theorem sameButEmpty_emptied (inputs : BuildInputs) :
    SourceUnit.SameButEmpty (inputs.emptied.read.filterMap ReadSource.unit?)
      (inputs.read.filterMap ReadSource.unit?) := by
  rw [SourceUnit.SameButEmpty, emptied, List.filterMap_map, List.filter_filterMap,
    List.filter_filterMap]
  exact List.filterMap_congr fun source _ => source.filter_unit?_emptied

/-- Emptying sources keeps the modules. -/
theorem modules_emptied (allRead : ∀ source ∈ inputs.read, source.IsRead) :
    inputs.emptied.modules = inputs.modules := by
  have paths : inputs.emptied.read.map ReadSource.module = inputs.read.map ReadSource.module := by
    rw [emptied, List.map_map]
    exact List.map_congr_left fun source _ => source.emptied_module
  have known {read : List ReadSource} (allRead : ∀ source ∈ read, source.IsRead) :
      ∀ unit ∈ read.filterMap ReadSource.unit?, unit.module ∈ read.map ReadSource.module := by
    intro unit listed
    obtain ⟨source, member, given⟩ := List.mem_filterMap.mp listed
    exact (allRead source member).module_eq given ▸ List.mem_map_of_mem member
  have alsoRead : ∀ source ∈ inputs.emptied.read, source.IsRead := by
    intro source listed
    obtain ⟨origin, member, rfl⟩ := List.mem_map.mp listed
    exact (allRead origin member).emptied
  -- A unit without items enters the module of its file, and these are listed first.
  rw [modules, modules, modulesOf, modulesOf, paths]
  refine (Generation.run_sameButEmpty inputs.config inputs.sameButEmpty_emptied).2.2 _ ?_
  intro unit listed _
  obtain emptied | given := List.mem_append.mp listed
  · exact paths ▸ known alsoRead unit emptied
  · exact known allRead unit given

/-- Emptying sources keeps what is rendered. -/
theorem unitOf_emptied (inputs : BuildInputs) : inputs.emptied.unitOf = inputs.unitOf := by
  have sources := (Generation.run_sameButEmpty inputs.config inputs.sameButEmpty_emptied).1
  funext module
  have hosted : inputs.emptied.generation.sourcesIn module = inputs.generation.sourcesIn module :=
    congrArg (List.filter _) sources
  rw [unitOf, unitOf, hosted]
  rfl

/-- Emptying sources keeps where it is written. -/
theorem fileOf_emptied (inputs : BuildInputs) : inputs.emptied.fileOf = inputs.fileOf := by
  funext module
  rw [fileOf, fileOf, unitOf_emptied]
  rfl

/-- Emptying sources keeps how the tree is changed. -/
theorem writeEach_emptied (inputs : BuildInputs) (modules : List ModulePath) (tree : FileTree) :
    inputs.emptied.writeEach modules tree = inputs.writeEach modules tree := by
  induction modules generalizing tree with
  | nil => rfl
  | cons module rest ih =>
      have same : inputs.emptied.write tree module = inputs.write tree module := by
        rw [write, write, unitOf_emptied]
        rfl
      rw [writeEach, writeEach, same]
      cases inputs.write tree module with
      | ok after => exact ih after
      | error error => rfl

/-- **The report.** It is the one with emptied sources, and the warnings that these would have
given. -/
theorem report_eq (allRead : ∀ source ∈ inputs.read, source.IsRead) :
    inputs.report =
      inputs.emptied.report.withWarnings (inputs.read.filterMap ReadSource.warning?) := by
  obtain ⟨sources, diagnostics, -⟩ :=
    Generation.run_sameButEmpty inputs.config inputs.sameButEmpty_emptied
  have generated : inputs.emptied.generation.sources = inputs.generation.sources := sources
  have reported : inputs.emptied.generation.diagnostics = inputs.generation.diagnostics :=
    diagnostics
  have scanned : inputs.emptied.read.map ReadSource.path = inputs.read.map ReadSource.path := by
    rw [emptied, List.map_map]
    exact List.map_congr_left fun source _ => source.emptied_path
  have silent : inputs.emptied.read.filterMap ReadSource.warning? = [] := by
    rw [emptied, List.filterMap_map, List.filterMap_eq_nil_iff]
    exact fun source _ => source.warning?_emptied
  rw [report, report, BuildReport.withWarnings, scanned, silent, modules_emptied allRead,
    fileOf_emptied, mergedCount, mergedCount, generated, reported, List.nil_append,
    List.append_assoc]

/-! ## Writing the files -/

section Write

open FileTree (EmptiedIn SameText)

variable {files : Location → FileContent → Prop} {tree other : FileTree}

/-- **One file.** It is written in both trees or in neither, and what was the same stays so. -/
theorem write_emptiedIn (inputs : BuildInputs) (emptied : EmptiedIn files tree other)
    (module : ModulePath) :
    (∃ error, inputs.write tree module = .error error ∧ inputs.write other module = .error error) ∨
    ∃ after otherAfter, inputs.write tree module = .ok after ∧
      inputs.write other module = .ok otherAfter ∧ EmptiedIn files after otherAfter ∧
      (∀ path, SameText path tree other → SameText path after otherAfter) ∧
      ∀ text, inputs.unitOf module = .ok text →
        SameText (unitPath inputs.target module) after otherAfter := by
  cases unit : inputs.unitOf module with
  | error failure =>
      exact .inr ⟨tree, other, write_of_error unit, write_of_error unit, emptied,
        fun _ same => same, nofun⟩
  | ok text =>
      -- Both trees have the same folders, so the path leads to the same place.
      have located := FileTree.locate?_congr emptied.sameFolders (unitPath inputs.target module)
      by_cases free : ∃ place, tree.locate? (unitPath inputs.target module) = some place ∧
          tree.isFolder place = false
      · obtain ⟨place, here, noFolder⟩ := free
        obtain ⟨after, wrote, overwrites⟩ := write_of_free unit here noFolder
        obtain ⟨otherAfter, alsoWrote, alsoOverwrites⟩ := write_of_free unit
          (located.trans here) ((emptied.sameFolders place).trans noFolder)
        refine .inr ⟨after, otherAfter, wrote, alsoWrote, ?_, fun path same => ?_, fun _ _ => ?_⟩
        · exact emptied.overwrite overwrites alsoOverwrites
        · exact emptied.sameText_overwrite overwrites alsoOverwrites same
        · exact emptied.sameText_written overwrites alsoOverwrites here
      · have blocked (place : Location)
            (here : tree.locate? (unitPath inputs.target module) = some place) :
            tree.isFolder place = true :=
          Bool.of_not_eq_false fun noFolder => free ⟨place, here, noFolder⟩
        refine .inl ⟨_, write_of_blocked unit blocked, write_of_blocked unit fun place there => ?_⟩
        rw [emptied.sameFolders place]
        exact blocked place (located.symm.trans there)

/-- **All files.** They are written in both trees up to the same place. -/
theorem writeEach_emptiedIn (inputs : BuildInputs) (emptied : EmptiedIn files tree other)
    (modules : List ModulePath) :
    let ended := inputs.writeEach modules tree
    let otherEnded := inputs.writeEach modules other
    ended.1 = otherEnded.1 ∧ EmptiedIn files ended.2 otherEnded.2 ∧
      (∀ path, SameText path tree other → SameText path ended.2 otherEnded.2) ∧
      (ended.1 = .ok () → ∀ module ∈ modules, ∀ text, inputs.unitOf module = .ok text →
        SameText (unitPath inputs.target module) ended.2 otherEnded.2) := by
  induction modules generalizing tree other with
  | nil =>
      refine ⟨rfl, emptied, fun _ same => same, fun _ module listed => ?_⟩
      exact absurd listed List.not_mem_nil
  | cons module rest ih =>
      intro ended otherEnded
      obtain ⟨error, stopped, alsoStopped⟩ |
          ⟨after, otherAfter, wrote, alsoWrote, still, keeps, own⟩ :=
        inputs.write_emptiedIn emptied module
      · have here : ended = (.error error, tree) := by simp only [ended, writeEach, stopped]
        have there : otherEnded = (.error error, other) := by
          simp only [otherEnded, writeEach, alsoStopped]
        rw [here, there]
        refine ⟨rfl, emptied, fun _ same => same, fun finished => ?_⟩
        cases finished
      · have here : ended = inputs.writeEach rest after := by simp only [ended, writeEach, wrote]
        have there : otherEnded = inputs.writeEach rest otherAfter := by
          simp only [otherEnded, writeEach, alsoWrote]
        obtain ⟨same, final, kept, others⟩ := ih still
        rw [here, there]
        refine ⟨same, final, fun path before => kept path (keeps path before), ?_⟩
        intro finished module' listed text unit
        obtain rfl | later := List.mem_cons.mp listed
        · exact kept _ (own text unit)
        · exact others finished module' later text unit

/-- **What both steps come to.** -/
theorem outcome_emptied (allRead : ∀ source ∈ inputs.read, source.IsRead)
    (emptied : EmptiedIn files tree other) :
    let ended := inputs.outcome tree
    let otherEnded := inputs.emptied.outcome other
    ended.1 = otherEnded.1.map
        (BuildReport.withWarnings (inputs.read.filterMap ReadSource.warning?)) ∧
      EmptiedIn files ended.2 otherEnded.2 ∧
      ∀ report, ended.1 = .ok report → ∀ path ∈ report.written,
        SameText path ended.2 otherEnded.2 := by
  have target : inputs.emptied.target = inputs.target := rfl
  unfold outcome
  rw [target, modules_emptied allRead]
  simp only [writeEach_emptied]
  have made := emptied.makeFolders? inputs.target
  generalize tree.makeFolders? inputs.target = here at made ⊢
  generalize other.makeFolders? inputs.target = there at made ⊢
  cases made with
  | none => exact ⟨rfl, emptied, nofun⟩
  | some still =>
      obtain ⟨same, final, -, own⟩ := inputs.writeEach_emptiedIn still inputs.modules
      refine ⟨?_, final, fun report finished path listed => ?_⟩
      · dsimp only
        rw [report_eq allRead, same]
        cases (inputs.writeEach inputs.modules _).1 <;> rfl
      · obtain ⟨⟨⟩, wrote, rfl⟩ := Except.map_eq_ok_iff.mp finished
        obtain ⟨module, member, filed⟩ := List.mem_filterMap.mp listed
        cases unit : inputs.unitOf module with
        | error failure => simp [fileOf, unit, Except.toOption] at filed
        | ok text =>
            obtain rfl : unitPath inputs.target module = path := by
              simpa [fileOf, unit, Except.toOption] using filed
            exact own wrote module member text unit

end Write

end BuildInputs

end VariantMerge
