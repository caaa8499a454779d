import VariantMerge.Build
import VariantMerge.Proofs.Files.Tree
import VariantMerge.Proofs.Generation.Success

/-!
# What a build step comes to

A build step reads everything before it writes anything. So it is described by its inputs, which are
a function of the files that it finds, and by the files that it writes from them, one module after
the other (`BuildPlan.outcome`). What is told on the way, to the build tool or as events, makes no
difference to that (`BuildPlan.run_eq_outcome`).
-/

namespace VariantMerge

/-! ## Inputs -/

/-- What a build step has read before it writes. -/
structure BuildInputs where
  config : Config
  /-- The folder that receives the files. -/
  target : FilePath
  read : List BuildPlan.ReadSource

namespace BuildInputs

open BuildPlan

def generation (inputs : BuildInputs) : Generation :=
  (Generation.run inputs.config (inputs.read.filterMap ReadSource.unit?)).value

def modules (inputs : BuildInputs) : List ModulePath :=
  modulesOf inputs.read inputs.generation

/-- The unit of a module: the text with all sources that the module hosts. -/
def unitOf (inputs : BuildInputs) (module : ModulePath) : Except Failure String :=
  ModuleUnit.render inputs.config module (inputs.generation.sourcesIn module)

/-- The file of a module, or a report of why there is none. -/
def fileOf (inputs : BuildInputs) (module : ModulePath) : Except Diagnostic FilePath :=
  match inputs.unitOf module with
  | .ok _ => .ok (unitPath inputs.target module)
  | .error failure => .error ⟨.error, none, module.display ++ ": " ++ failure.message⟩

def report (inputs : BuildInputs) : BuildReport where
  scanned := inputs.read.map ReadSource.path
  written := inputs.modules.filterMap fun module => (inputs.fileOf module).toOption
  mergedTypes := mergedCount inputs.generation
  diagnostics := inputs.read.filterMap ReadSource.warning? ++
    inputs.modules.filterMap (fun module => Generation.diagnosticFrom? (inputs.fileOf module)) ++
    inputs.generation.diagnostics

/-- The tree with the file of a module, which stays as it is if it holds the unit already. -/
def write (inputs : BuildInputs) (tree : FileTree) (module : ModulePath) :
    Except BuildError FileTree :=
  match inputs.unitOf module with
  | .error _ => .ok tree
  | .ok text =>
    let path := unitPath inputs.target module
    if tree.read? path = some text then .ok tree
    else
      match tree.write? path (.text text) with
      | some (after, _) => .ok after
      | none => .error (.file path)

/-- The tree with the files of modules, up to the first one that cannot be written. -/
def writeEach (inputs : BuildInputs) :
    List ModulePath → FileTree → Except BuildError Unit × FileTree
  | [], tree => (.ok (), tree)
  | module :: rest, tree =>
    match inputs.write tree module with
    | .error error => (.error error, tree)
    | .ok after => inputs.writeEach rest after

/-- What a step with these inputs comes to, and the files afterwards. -/
def outcome (inputs : BuildInputs) (tree : FileTree) : Except BuildError BuildReport × FileTree :=
  match tree.makeFolders? inputs.target with
  | none => (.error (.file inputs.target), tree)
  | some prepared =>
    ((inputs.writeEach inputs.modules prepared).1.map fun _ => inputs.report,
      (inputs.writeEach inputs.modules prepared).2)

/-! ## Writing one file -/

section Write

variable {inputs : BuildInputs} {tree : FileTree} {module : ModulePath} {text : String}
  {place : Location}

/-- A module that cannot be rendered is not written. -/
theorem write_of_error {failure : Failure} (unit : inputs.unitOf module = .error failure) :
    inputs.write tree module = .ok tree := by
  rw [write, unit]

/-- A unit is not written over a folder, or where there is none. -/
theorem write_of_blocked (unit : inputs.unitOf module = .ok text)
    (blocked : ∀ place, tree.locate? (unitPath inputs.target module) = some place →
      tree.isFolder place = true) :
    inputs.write tree module = .error (.file (unitPath inputs.target module)) := by
  have absent : tree.read? (unitPath inputs.target module) ≠ some text := by
    intro found
    obtain ⟨place, located, present⟩ := FileTree.read?_eq_some_iff.mp found
    have folder := FileTree.isFolder_iff.mp (blocked place located)
    rw [present] at folder
    cases folder
  rw [write, unit]
  dsimp only
  rw [if_neg absent]
  split
  next after place written =>
    obtain ⟨located, free, -⟩ := FileTree.write?_eq_some_iff.mp written
    rw [blocked place located] at free
    cases free
  next => rfl

/-- A unit is written where nothing but a file may be in the way. -/
theorem write_of_free (unit : inputs.unitOf module = .ok text)
    (located : tree.locate? (unitPath inputs.target module) = some place)
    (free : tree.isFolder place = false) :
    ∃ after, inputs.write tree module = .ok after ∧ tree.Overwrites place text after := by
  rw [write, unit]
  dsimp only
  split
  next found =>
    obtain ⟨there, here, present⟩ := FileTree.read?_eq_some_iff.mp found
    obtain rfl := Option.some.inj (here.symm.trans located)
    exact ⟨tree, rfl, FileTree.overwrites_self present⟩
  next =>
    rw [FileTree.write?_eq_some_iff.mpr ⟨located, free, rfl⟩]
    exact ⟨_, rfl, FileTree.overwrites_put free text⟩

end Write

end BuildInputs

namespace BuildPlan

/-- The configuration that a plan has among these files. -/
def configFrom (plan : BuildPlan) (tree : FileTree) : Except BuildError Config :=
  match plan.configFile with
  | some path => (configIn tree path).mapError .config
  | none => .ok (plan.config.getD Config.default)

/-- A source file with what it holds. -/
def sourceFrom (tree : FileTree) (source : FilePath × ModulePath) : Except BuildError ReadSource :=
  match tree.read? source.1 with
  | some text => .ok (.ofText source.1 source.2 text)
  | none => .error (.file source.1)

/-- What a step reads, or why it stops before it has read everything. -/
def inputs (plan : BuildPlan) (environment : Option FilePath) (tree : FileTree) :
    Except BuildError BuildInputs :=
  (plan.configFrom tree).bind fun config =>
    match plan.outputFolder.or environment with
    | none => .error .noOutputFolder
    | some output =>
      (plan.sources tree).bind fun sources => (sources.mapM (sourceFrom tree)).bind fun read =>
        .ok ⟨{ config with mode := .moduleUnits }, output.join targetName, read⟩

/-- What a step comes to, and the files afterwards. -/
def outcome (plan : BuildPlan) (environment : Option FilePath) (tree : FileTree) :
    Except BuildError BuildReport × FileTree :=
  match plan.inputs environment tree with
  | .error error => (.error error, tree)
  | .ok inputs => inputs.outcome tree

/-- What a step has read when it has read everything. -/
theorem inputs_eq_ok {plan : BuildPlan} {environment : Option FilePath} {tree : FileTree}
    {inputs : BuildInputs} (read : plan.inputs environment tree = .ok inputs) :
    ∃ config output sources, plan.configFrom tree = .ok config ∧
      plan.outputFolder.or environment = some output ∧ plan.sources tree = .ok sources ∧
      sources.mapM (sourceFrom tree) = .ok inputs.read ∧
      inputs.config = { config with mode := .moduleUnits } ∧ inputs.target = output.join targetName := by
  unfold BuildPlan.inputs at read
  obtain ⟨config, configured, read⟩ := Except.bind_eq_ok_iff.mp read
  split at read
  · cases read
  next output given =>
    obtain ⟨sources, listed, read⟩ := Except.bind_eq_ok_iff.mp read
    obtain ⟨found, taken, read⟩ := Except.bind_eq_ok_iff.mp read
    cases read
    exact ⟨config, output, sources, configured, given, listed, taken, rfl, rfl⟩

end BuildPlan

namespace BuildStep

variable {step : BuildStep α} {next : α → BuildStep β} {state : BuildState} {value : α}
  {tree after : FileTree} {result : Except BuildError β} {error : BuildError}

/-! ## Steps -/

/-- What a part of a step comes to, and the files that it leaves. -/
def Ends (step : BuildStep α) (state : BuildState) (result : Except BuildError α)
    (after : FileTree) : Prop :=
  ∃ final, step.run.run state = (result, final) ∧ final.tree = after

/-- A step after another one begins with the state that is left, unless there was an error. -/
theorem run_bind (step : BuildStep α) (next : α → BuildStep β) (state : BuildState) :
    (step >>= next).run.run state =
      match step.run.run state with
      | (.ok value, between) => (next value).run.run between
      | (.error error, between) => (.error error, between) := by
  change (ExceptT.bindCont next (step.run.run state).1).run (step.run.run state).2 = _
  rcases step.run.run state with ⟨_ | _, _⟩ <;> rfl

/-- A value changes nothing. -/
theorem Ends.pure (value : α) (state : BuildState) :
    Ends (Pure.pure value : BuildStep α) state (.ok value) state.tree :=
  ⟨state, rfl, rfl⟩

/-- The state that is asked for has the tree that is there. -/
theorem Ends.get (here : state.tree = tree) :
    Ends (MonadState.get : BuildStep BuildState) state (.ok state) tree :=
  ⟨state, rfl, here⟩

/-- An error changes nothing. -/
theorem Ends.throw (error : BuildError) (state : BuildState) :
    Ends (MonadExcept.throw error : BuildStep α) state (.error error) state.tree :=
  ⟨state, rfl, rfl⟩

/-- A step after one that succeeds, which may depend on its tree but not on the rest of the state.
-/
theorem Ends.bind_ok (first : Ends step state (.ok value) tree)
    (rest : ∀ between : BuildState, between.tree = tree → Ends (next value) between result after) :
    Ends (step >>= next) state result after := by
  obtain ⟨between, ran, left⟩ := first
  obtain ⟨final, further, ended⟩ := rest between left
  refine ⟨final, ?_, ended⟩
  rw [run_bind, ran]
  exact further

/-- Nothing happens after an error. -/
theorem Ends.bind_error (first : Ends step state (.error error) after) :
    Ends (step >>= next) state (.error error) after := by
  obtain ⟨final, ran, left⟩ := first
  refine ⟨final, ?_, left⟩
  rw [run_bind, ran]

/-- A part that only reads: it leaves the files as they are. -/
def Reads (step : BuildStep α) (value : FileTree → Except BuildError α) : Prop :=
  ∀ state, Ends step state (value state.tree) state.tree

/-- What only reads may come after a part that ends well. -/
theorem Ends.bind_reads (first : Ends step state (.ok value) tree)
    (rest : Reads (next value) fun _ => result) : Ends (step >>= next) state result tree :=
  first.bind_ok fun between same => same ▸ rest between

/-- A value is given whatever the tree is. -/
theorem Reads.pure (value : α) : Reads (Pure.pure value) fun _ => .ok value :=
  fun state => .pure value state

/-- An error is given whatever the tree is. -/
theorem Reads.throw (error : BuildError) :
    Reads (MonadExcept.throw error : BuildStep α) fun _ => .error error :=
  fun state => .throw error state

/-- Steps that only read, one after the other, see the same tree. -/
theorem Reads.bind {value : FileTree → Except BuildError α}
    {later : α → FileTree → Except BuildError β} (first : Reads step value)
    (rest : ∀ a, Reads (next a) (later a)) :
    Reads (step >>= next) fun tree => (value tree).bind fun a => later a tree := by
  intro state
  have here := first state
  change Ends _ _ ((value state.tree).bind fun a => later a state.tree) _
  cases read : value state.tree with
  | error error =>
      rw [read] at here
      exact here.bind_error
  | ok a =>
      rw [read] at here
      refine here.bind_ok fun between same => ?_
      rw [← same]
      exact rest a between

/-- A step that tells nothing of the tree can be left out. -/
theorem Reads.bind_ok {result : FileTree → Except BuildError β}
    (first : Reads step fun _ => .ok value) (rest : Reads (next value) result) :
    Reads (step >>= next) result := by
  intro state
  refine (first state).bind_ok fun between same => ?_
  rw [← same]
  exact rest between

/-- What depends on the files only. -/
theorem Reads.get_bind {next : BuildState → BuildStep β} {value : FileTree → Except BuildError β}
    (rest : ∀ state, Reads (next state) fun _ => value state.tree) :
    Reads (get >>= next) value := by
  intro state
  have here : Ends (get : BuildStep BuildState) state (.ok state) state.tree := ⟨state, rfl, rfl⟩
  exact here.bind_reads (rest state)

/-- What is read for each of a list is read from the same tree. -/
theorem Reads.mapM {f : α → BuildStep β} {value : α → FileTree → Except BuildError β}
    (each : ∀ a, Reads (f a) (value a)) (as : List α) :
    Reads (as.mapM f) fun tree => as.mapM (value · tree) := by
  induction as with
  | nil => exact .pure []
  | cons a rest ih =>
      simp only [List.mapM_cons]
      exact (each a).bind fun b => ih.bind fun bs => .pure (b :: bs)

/-- What does not depend on the tree is the same for each of a list. -/
theorem Reads.mapM_ok {f : α → BuildStep β} {value : α → β}
    (each : ∀ a, Reads (f a) fun _ => .ok (value a)) (as : List α) :
    Reads (as.mapM f) fun _ => .ok (as.map value) := by
  have all : as.mapM (fun a => (Except.ok (value a) : Except BuildError β)) =
      .ok (as.map value) := List.mapM_pure
  rw [← all]
  exact Reads.mapM each as

/-- What is noted down leaves the tree as it is. -/
theorem Reads.ofModify {change : BuildState → BuildState}
    (same : ∀ state, (change state).tree = state.tree) :
    Reads (modify change : BuildStep PUnit) fun _ => .ok () :=
  fun state => ⟨change state, rfl, same state⟩

/-- Logging leaves the tree as it is. -/
theorem Reads.tell (event : Event) : Reads (tell event) fun _ => .ok () :=
  .ofModify fun _ => rfl

/-- A logged result is given, and its events are noted down. -/
theorem Reads.logged (run : Logged α) : Reads (logged run) fun _ => .ok run.value := by
  have kept : Reads (modify fun state : BuildState =>
      { state with events := state.events ++ run.events }) fun _ => .ok () := .ofModify fun _ => rfl
  exact kept.bind fun _ => .pure run.value

/-- A directive leaves the tree as it is. -/
theorem Reads.directive (plan : BuildPlan) (text : String) :
    Reads (directive plan text) fun _ => .ok () := by
  unfold BuildStep.directive
  split
  · exact .ofModify fun _ => rfl
  · exact .pure ()

/-- Asking for a path to be watched leaves the tree as it is. -/
theorem Reads.watch (plan : BuildPlan) (path : FilePath) :
    Reads (watch plan path) fun _ => .ok () :=
  .directive plan _

/-- A part that yields a value after it has changed the files, or stops and leaves them. -/
def Changes (step : BuildStep α) (value : α) (change : FileTree → Except BuildError FileTree) :
    Prop :=
  ∀ state : BuildState,
    match change state.tree with
    | .ok after => Ends step state (.ok value) after
    | .error error => Ends step state (.error error) state.tree

end BuildStep

namespace BuildPlan

open BuildStep

/-! ## The parts of a step -/

/-- The configuration is read from the tree. -/
theorem readConfig_reads (plan : BuildPlan) : Reads plan.readConfig plan.configFrom := by
  unfold readConfig configFrom
  cases plan.configFile with
  | none => exact .pure _
  | some path =>
      refine (Reads.watch plan path).bind_ok (.get_bind fun state => ?_)
      dsimp only
      cases configIn state.tree path with
      | ok config => exact .pure config
      | error error => exact .throw _

/-- A source is read from the tree. -/
theorem readSource_reads (plan : BuildPlan) (source : FilePath × ModulePath) :
    Reads (plan.readSource source.1 source.2) (sourceFrom · source) := by
  refine (Reads.watch plan source.1).bind_ok (.get_bind fun state => ?_)
  unfold sourceFrom
  cases state.tree.read? source.1 with
  | none => exact .throw _
  | some text =>
      cases told : (ReadSource.ofText source.1 source.2 text).warning? with
      | none =>
          simp only [told]
          exact .pure _
      | some warning =>
          simp only [told]
          exact (Reads.tell _).bind fun _ => .pure _

/-- A file is written only if its text is another one. -/
theorem writeChanged_changes (path : FilePath) (text : String) :
    Changes (writeChanged path text) () fun tree =>
      if tree.read? path = some text then .ok tree
      else
        match tree.write? path (.text text) with
        | some (after, _) => .ok after
        | none => .error (.file path) := by
  intro state
  have ran : (writeChanged path text).run.run state =
      (if state.tree.read? path = some text then pure ()
      else
        match state.tree.write? path (.text text) with
        | some (tree, location) =>
          set { state with tree, changed := state.changed ++ [location] }
        | none => throw (.file path) : BuildStep Unit).run.run state := by
    rw [writeChanged, run_bind]
    rfl
  by_cases unchanged : state.tree.read? path = some text
  · simp only [unchanged, ↓reduceIte] at ran ⊢
    exact ⟨state, ran, rfl⟩
  · simp only [unchanged, ↓reduceIte] at ran ⊢
    cases written : state.tree.write? path (.text text) with
    | none =>
        rw [written] at ran
        exact ⟨state, ran, rfl⟩
    | some placed =>
        rw [written] at ran
        exact ⟨_, ran, rfl⟩

/-- Each module's unit is written to its own file. -/
theorem writeUnit_changes (inputs : BuildInputs) (module : ModulePath) :
    Changes (writeUnit inputs.config inputs.target inputs.generation module)
      (inputs.fileOf module) (inputs.write · module) := by
  intro state
  have ran : writeUnit inputs.config inputs.target inputs.generation module =
      match inputs.unitOf module with
      | .error failure =>
        return .error ⟨.error, none, module.display ++ ": " ++ failure.message⟩
      | .ok text => do
        let path := unitPath inputs.target module
        writeChanged path text
        tell ⟨.debug, "Wrote module unit",
          [("module", .text module.display), ("path", .text path.text),
            ("items", .count (inputs.generation.sourcesIn module).length)]⟩
        return .ok path := rfl
  dsimp only
  rw [ran, BuildInputs.write, BuildInputs.fileOf]
  cases inputs.unitOf module with
  | error failure => exact .pure _ state
  | ok text =>
      have changes := writeChanged_changes (unitPath inputs.target module) text state
      dsimp only at changes ⊢
      split at changes
      next after written =>
        exact changes.bind_reads ((Reads.tell _).bind fun _ => .pure _)
      next error stopped => exact changes.bind_error

/-- Units are written one after the other, up to the first that cannot be. -/
theorem mapM_writeUnit_ends (inputs : BuildInputs) (modules : List ModulePath)
    (state : BuildState) :
    Ends (modules.mapM (writeUnit inputs.config inputs.target inputs.generation)) state
      ((inputs.writeEach modules state.tree).1.map fun _ => modules.map inputs.fileOf)
      (inputs.writeEach modules state.tree).2 := by
  induction modules generalizing state with
  | nil => exact .pure [] state
  | cons module rest ih =>
      rw [List.mapM_cons, BuildInputs.writeEach]
      have first := writeUnit_changes inputs module state
      dsimp only at first
      split at first
      next after written =>
        rw [written]
        refine first.bind_ok fun between same => ?_
        have later := ih between
        rw [same] at later
        cases ended : (inputs.writeEach rest after).1 with
        | error error =>
            rw [ended] at later
            exact later.bind_error
        | ok _ =>
            rw [ended] at later
            exact later.bind_reads (.pure _)
      next error stopped =>
        rw [stopped]
        exact first.bind_error

/-- A result that was computed before leaves the tree as it is. -/
theorem liftExcept_ends (result : Except BuildError α) (state : BuildState) :
    Ends (step.liftExcept result) state result state.tree := by
  cases result with
  | ok value => exact .pure value state
  | error error => exact .throw error state

/-- The last part of a build writes all units and reports what it did. -/
theorem finish_ends (plan : BuildPlan) (inputs : BuildInputs) (state : BuildState) :
    Ends (do
      let units ← inputs.modules.mapM (writeUnit inputs.config inputs.target inputs.generation)
      let report : BuildReport :=
        { scanned := inputs.read.map ReadSource.path
          written := units.filterMap Except.toOption
          mergedTypes := mergedCount inputs.generation
          diagnostics := inputs.read.filterMap ReadSource.warning? ++
            units.filterMap Generation.diagnosticFrom? ++ inputs.generation.diagnostics }
      let _ ← report.diagnostics.mapM fun diagnostic => directive plan (warningText diagnostic)
      tell ⟨.info, "polystruct generation finished",
        [("files", .count report.scanned.length), ("merged_types", .count report.mergedTypes),
          ("diagnostics", .count report.diagnostics.length)]⟩
      return report) state
      ((inputs.writeEach inputs.modules state.tree).1.map fun _ => inputs.report)
      (inputs.writeEach inputs.modules state.tree).2 := by
  have written := mapM_writeUnit_ends inputs inputs.modules state
  cases ended : (inputs.writeEach inputs.modules state.tree).1 with
  | error error =>
      rw [ended] at written
      exact written.bind_error
  | ok _ =>
      rw [ended] at written
      have report : inputs.report =
          { scanned := inputs.read.map ReadSource.path
            written := (inputs.modules.map inputs.fileOf).filterMap Except.toOption
            mergedTypes := mergedCount inputs.generation
            diagnostics := inputs.read.filterMap ReadSource.warning? ++
              (inputs.modules.map inputs.fileOf).filterMap Generation.diagnosticFrom? ++
              inputs.generation.diagnostics } := by
        rw [List.filterMap_map, List.filterMap_map]
        rfl
      have told (diagnostic : Diagnostic) :
          Reads (directive plan (warningText diagnostic)) fun _ => .ok () :=
        .directive plan _
      rw [report]
      refine written.bind_reads ?_
      exact (Reads.mapM_ok told _).bind fun _ =>
        (Reads.tell _).bind fun _ => .pure _

/-- What is done once all inputs have been read. -/
theorem write_ends (plan : BuildPlan) (inputs : BuildInputs) {state : BuildState} {tree : FileTree}
    (here : state.tree = tree) :
    Ends (do
      let _ ← plan.sourceFolders.mapM (watch plan)
      let generation ← logged
        (Generation.run inputs.config (inputs.read.filterMap ReadSource.unit?))
      match (← get).tree.makeFolders? inputs.target with
      | none => throw (.file inputs.target)
      | some tree => modify fun state => { state with tree }
      let units ← (modulesOf inputs.read generation).mapM
        (writeUnit inputs.config inputs.target generation)
      let report : BuildReport :=
        { scanned := inputs.read.map ReadSource.path
          written := units.filterMap Except.toOption
          mergedTypes := mergedCount generation
          diagnostics := inputs.read.filterMap ReadSource.warning? ++
            units.filterMap Generation.diagnosticFrom? ++ generation.diagnostics }
      let _ ← report.diagnostics.mapM fun diagnostic => directive plan (warningText diagnostic)
      tell ⟨.info, "polystruct generation finished",
        [("files", .count report.scanned.length), ("merged_types", .count report.mergedTypes),
          ("diagnostics", .count report.diagnostics.length)]⟩
      return report) state (inputs.outcome tree).1 (inputs.outcome tree).2 := by
  subst here
  refine (Reads.mapM_ok (Reads.watch plan) plan.sourceFolders state).bind_ok fun between same => ?_
  refine (Reads.logged _ between).bind_ok fun between' same' => ?_
  refine (Ends.get (same'.trans same)).bind_ok fun ready there => ?_
  dsimp only
  unfold BuildInputs.outcome
  rw [same'.trans same]
  cases state.tree.makeFolders? inputs.target with
  | none =>
      rw [← there]
      exact (Ends.throw _ ready).bind_error
  | some prepared =>
      have made : Ends (modify fun state : BuildState => { state with tree := prepared }) ready
          (.ok PUnit.unit) prepared := ⟨_, rfl, rfl⟩
      refine made.bind_ok fun writing done => ?_
      subst done
      exact finish_ends plan inputs writing

/-- **What a build step comes to.** Its result and the files that it leaves are those of its
outcome. -/
theorem run_eq_outcome (plan : BuildPlan) (environment : Option FilePath) (tree : FileTree) :
    ((plan.run environment tree).1, (plan.run environment tree).2.tree) =
      plan.outcome environment tree := by
  suffices ends : Ends (plan.step environment) ⟨tree, [], [], []⟩
      (plan.outcome environment tree).1 (plan.outcome environment tree).2 by
    obtain ⟨final, ran, left⟩ := ends
    have ran : plan.run environment tree = ((plan.outcome environment tree).1, final) := ran
    rw [ran, left]
  -- Each part that can stop is an input; if none of them does, all is left to `write_ends`.
  unfold step outcome inputs
  have read := readConfig_reads plan ⟨tree, [], [], []⟩
  dsimp only at read
  cases configured : plan.configFrom tree with
  | error error =>
      rw [configured] at read
      exact read.bind_error
  | ok config =>
      rw [configured] at read
      refine read.bind_ok fun afterConfig same => ?_
      dsimp only [Except.bind]
      cases plan.outputFolder.or environment with
      | none => exact same ▸ .throw _ afterConfig
      | some output =>
          refine (Ends.get same).bind_ok fun between same => ?_
          dsimp only
          rw [‹afterConfig.tree = tree›]
          have listed := liftExcept_ends (plan.sources tree) between
          rw [same] at listed
          cases found : plan.sources tree with
          | error error =>
              rw [found] at listed
              exact listed.bind_error
          | ok sources =>
              rw [found] at listed
              refine listed.bind_ok fun between same => ?_
              dsimp only
              have contents :
                  Ends _ between (sources.mapM (sourceFrom between.tree)) between.tree :=
                Reads.mapM (readSource_reads plan) sources between
              rw [same] at contents
              cases taken : sources.mapM (sourceFrom tree) with
              | error error =>
                  rw [taken] at contents
                  exact contents.bind_error
              | ok read =>
                  rw [taken] at contents
                  refine contents.bind_ok fun between same => ?_
                  exact write_ends plan ⟨{ config with mode := .moduleUnits },
                    output.join targetName, read⟩ same

end BuildPlan

end VariantMerge
