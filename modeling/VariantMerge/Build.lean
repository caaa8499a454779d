import VariantMerge.Config.Document
import VariantMerge.Files.FileTree
import VariantMerge.ModuleUnit

/-!
# The build step

A build step generates for a whole program. It finds the source files, reads them, runs a pass
over them, and writes one file for each module, which holds the sources that this module hosts.
Files whose content does not change are not written. What the build tool has to know is told in
directives.

A file that cannot be read as source text is like an empty one, but for a warning. What stops the
step is only a file or folder that is not there as it should be, or a configuration that is not
valid.
-/

namespace VariantMerge

/-- A source file to be read, at the module that is given or the one that its name stands for. -/
structure GivenFile where
  path : FilePath
  module : Option ModulePath
  deriving Repr

/-- What a build step is told to do. -/
structure BuildPlan where
  sourceFolders : List FilePath
  files : List GivenFile
  config : Option Config
  configFile : Option FilePath
  outputFolder : Option FilePath
  showsDirectives : Bool
  deriving Repr

/-- Why a build step stops. -/
inductive BuildError where
  /-- A file or folder cannot be read, or not be written. -/
  | file (path : FilePath)
  /-- A folder cannot be searched. -/
  | folder (path : FilePath)
  | config (error : ConfigError)
  | noOutputFolder
  /-- No module can be told for a source file. -/
  | unknownModule (path : FilePath)
  deriving DecidableEq, Repr

namespace BuildError

def message : BuildError → String
  | file path => "IO error on " ++ path.text
  | folder path => "Failed to walk " ++ path.text
  | config _ => "Configuration error"
  | noOutputFolder => "No output directory: set OUT_DIR or call Builder::out_dir"
  | unknownModule path =>
    "Cannot infer a module path for " ++ path.text ++ "; use Builder::file_in_module"

end BuildError

/-- What a build step has done. -/
structure BuildReport where
  scanned : List FilePath
  /-- The files of all modules, changed or not. -/
  written : List FilePath
  mergedTypes : Nat
  diagnostics : List Diagnostic
  deriving Repr

/-- What a build step leaves behind, up to the place where it may have stopped. -/
structure BuildState where
  tree : FileTree
  directives : List String
  /-- Where files have been written. -/
  changed : List Location
  events : List Event
  deriving Repr

/-- A part of a build step. What it has done stays done if it stops. -/
abbrev BuildStep := ExceptT BuildError (StateM BuildState)

namespace BuildStep

def tell (event : Event) : BuildStep Unit :=
  modify fun state => { state with events := state.events ++ [event] }

/-- Runs a computation and keeps its events. -/
def logged (run : Logged α) : BuildStep α := do
  modify fun state => { state with events := state.events ++ run.events }
  return run.value

/-- Tells the build tool something. -/
def directive (plan : BuildPlan) (text : String) : BuildStep Unit :=
  if plan.showsDirectives then
    modify fun state => { state with directives := state.directives ++ ["cargo:" ++ text] }
  else pure ()

/-- Tells the build tool to come back when a file changes. -/
def watch (plan : BuildPlan) (path : FilePath) : BuildStep Unit :=
  directive plan ("rerun-if-changed=" ++ path.text)

end BuildStep

namespace BuildPlan

open BuildStep

/-! ## What is given -/

/-- The format that a file's extension stands for. -/
def formatOf (path : FilePath) : ConfigFormat :=
  match path.extension? with
  | some ['y', 'a', 'm', 'l'] | some ['y', 'm', 'l'] => .yaml
  | _ => .toml

/-- The configuration in a file. -/
def configIn (tree : FileTree) (path : FilePath) : Except ConfigError Config :=
  match tree.read? path with
  | some text => Config.ofDocument (formatOf path) text
  | none => .error .unreadable

/-- The configuration of a step. A file goes before what is given otherwise. -/
def readConfig (plan : BuildPlan) : BuildStep Config :=
  match plan.configFile with
  | some path => do
    watch plan path
    match configIn (← get).tree path with
    | .ok config => return config
    | .error error => throw (.config error)
  | none => return plan.config.getD Config.default

/-- The source files in a folder with their modules, in the order in which they are listed. -/
def sourcesIn (tree : FileTree) (folder : FilePath) :
    Except BuildError (List (FilePath × ModulePath)) := do
  match tree.walk? folder with
  | none => throw (.folder folder)
  | some found =>
    let paths := found.map fun (names, _) => (folder.joinAll names, names)
    (paths.filter fun (path, _) => path.isSource).mapM fun (path, names) =>
      match (FilePath.mk (String.intercalate "/" names)).module? with
      | some module => return (path, module)
      | none => throw (.unknownModule path)

/-- A given file with its module. -/
def givenSource (file : GivenFile) : Except BuildError (FilePath × ModulePath) :=
  match file.module with
  | some module => .ok (file.path, module)
  | none =>
    let name : FilePath :=
      match file.path.fileName? with
      | some name => ⟨String.ofList name⟩
      | none => file.path
    match name.module? with
    | some module => .ok (file.path, module)
    | none => .error (.unknownModule file.path)

/-- All source files with their modules: those in folders, and then those that are given. -/
def sources (plan : BuildPlan) (tree : FileTree) :
    Except BuildError (List (FilePath × ModulePath)) := do
  let found ← plan.sourceFolders.mapM (sourcesIn tree)
  return found.flatten ++ (← plan.files.mapM givenSource)

/-! ## Reading -/

/-- A source file that has been read: its declarations, or a warning. -/
structure ReadSource where
  path : FilePath
  module : ModulePath
  unit : Except Diagnostic SourceUnit

namespace ReadSource

/-- What a text holds at a module. -/
def ofText (path : FilePath) (module : ModulePath) (text : String) : ReadSource :=
  match SourceUnit.parse path.text module text with
  | .ok unit => ⟨path, module, .ok unit⟩
  | .error failure => ⟨path, module, .error ⟨.warning, none, failure.message⟩⟩

/-- The declarations, unless the text could not be read. -/
def unit? (source : ReadSource) : Option SourceUnit :=
  source.unit.toOption

/-- The warning about a text that could not be read. -/
def warning? (source : ReadSource) : Option Diagnostic :=
  match source.unit with
  | .ok _ => none
  | .error warning => some warning

end ReadSource

/-- Reads a source file. -/
def readSource (plan : BuildPlan) (path : FilePath) (module : ModulePath) :
    BuildStep ReadSource := do
  watch plan path
  match (← get).tree.read? path with
  | none => throw (.file path)
  | some text =>
    let source := ReadSource.ofText path module text
    match source.warning? with
    | some warning =>
      tell ⟨.warn, "Skipping unparsable file",
        [("file", .text path.text), ("error", .text warning.message)]⟩
    | none => pure ()
    return source

/-! ## Writing -/

/-- The folder that receives the files, inside of the output folder. -/
def targetName : String := "polystruct"

/-- The file of a module. -/
def unitPath (target : FilePath) (module : ModulePath) : FilePath :=
  target.join (module.fileStem ++ ".rs")

/-- Writes a file, unless it holds the text already. -/
def writeChanged (path : FilePath) (text : String) : BuildStep Unit := do
  let state ← get
  if state.tree.read? path = some text then return ()
  else
    match state.tree.write? path (.text text) with
    | some (tree, location) =>
      set { state with tree, changed := state.changed ++ [location] }
    | none => throw (.file path)

/-- Writes the file of a module: its path, or a report of why there is none. -/
def writeUnit (config : Config) (target : FilePath) (generation : Generation)
    (module : ModulePath) : BuildStep (Except Diagnostic FilePath) := do
  let hosted := generation.sourcesIn module
  match ModuleUnit.render config module hosted with
  | .error failure =>
    return .error ⟨.error, none, module.display ++ ": " ++ failure.message⟩
  | .ok text =>
    let path := unitPath target module
    writeChanged path text
    tell ⟨.debug, "Wrote module unit",
      [("module", .text module.display), ("path", .text path.text),
        ("items", .count hosted.length)]⟩
    return .ok path

/-! ## The whole step -/

/-- The modules of a step: those of the files, and then all that the pass has found in them. -/
def modulesOf (read : List ReadSource) (generation : Generation) : List ModulePath :=
  (read.map ReadSource.module ++ generation.modules).eraseDups

/-- How many merged types a pass has generated. -/
def mergedCount (generation : Generation) : Nat :=
  (generation.sources.filter (·.kind == .merged)).length

/-- A diagnostic on one line. -/
def warningText (diagnostic : Diagnostic) : String :=
  "warning=" ++ String.ofList (diagnostic.display.toList.map fun c => if c == '\n' then ' ' else c)

/-- The build step. `environment` is the output folder where the plan names none. -/
def step (plan : BuildPlan) (environment : Option FilePath) : BuildStep BuildReport := do
  let config := { (← plan.readConfig) with mode := .moduleUnits }
  match plan.outputFolder.or environment with
  | none => throw .noOutputFolder
  | some output =>
    let sources ← liftExcept (plan.sources (← get).tree)
    let read ← sources.mapM fun (path, module) => plan.readSource path module
    let _ ← plan.sourceFolders.mapM (watch plan)
    let generation ← logged (Generation.run config (read.filterMap ReadSource.unit?))
    let target := output.join targetName
    match (← get).tree.makeFolders? target with
    | none => throw (.file target)
    | some tree => modify fun state => { state with tree }
    let units ← (modulesOf read generation).mapM (writeUnit config target generation)
    let report : BuildReport :=
      { scanned := read.map ReadSource.path
        written := units.filterMap Except.toOption
        mergedTypes := mergedCount generation
        diagnostics := read.filterMap ReadSource.warning? ++
          units.filterMap Generation.diagnosticFrom? ++ generation.diagnostics }
    let _ ← report.diagnostics.mapM fun diagnostic => directive plan (warningText diagnostic)
    tell ⟨.info, "polystruct generation finished",
      [("files", .count report.scanned.length), ("merged_types", .count report.mergedTypes),
        ("diagnostics", .count report.diagnostics.length)]⟩
    return report
where
  liftExcept {α : Type} : Except BuildError α → BuildStep α
    | .ok a => pure a
    | .error error => throw error

/-- Runs a build step on a tree of files. -/
def run (plan : BuildPlan) (environment : Option FilePath) (tree : FileTree) :
    Except BuildError BuildReport × BuildState :=
  (plan.step environment).run.run ⟨tree, [], [], []⟩

end BuildPlan

end VariantMerge
