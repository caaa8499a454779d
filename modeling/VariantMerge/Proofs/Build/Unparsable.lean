import VariantMerge.Proofs.Build.EmptyTexts

/-!
# Source files that cannot be read

A build step passes by a source file whose text cannot be read. It takes its module into account all
the same, so that the step does what it would do if the file were empty: it writes the same files
and reports the same, but for a warning about each such file (`BuildPlan.run_emptied`).
-/

namespace VariantMerge

namespace BuildPlan

/-! ## The files -/

/-- What is wrong with the text of a file, if it cannot be read. -/
def problemAt? (tree : FileTree) (path : FilePath) : Option SyntaxError :=
  match (tree.read? path).map Source.parseFile with
  | some (.error problem) => some problem
  | _ => none

/-- The source files whose text cannot be read, in the order in which files are scanned, and what is
wrong with each. -/
def unparsable (plan : BuildPlan) (tree : FileTree) : List (FilePath × SyntaxError) :=
  match plan.sources tree with
  | .error _ => []
  | .ok sources =>
    sources.filterMap fun source =>
      (problemAt? tree source.1).map fun problem => (source.1, problem)

/-- The files of the step, where those that cannot be read are empty. -/
def emptied (plan : BuildPlan) (tree : FileTree) : FileTree :=
  tree.emptyFiles fun place =>
    (plan.unparsable tree).any fun source => tree.locate? source.1 == some place

/-- The files that cannot be read, with what is in them. -/
def IsUnparsable (plan : BuildPlan) (tree : FileTree) (place : Location) (content : FileContent) :
    Prop :=
  (∃ source ∈ plan.unparsable tree, tree.locate? source.1 = some place) ∧
    tree.entryAt? place = some (.file content)

variable {plan : BuildPlan} {environment : Option FilePath} {tree : FileTree}
  {sources : List (FilePath × ModulePath)} {inputs : BuildInputs}

theorem problemAt?_eq_some_iff {path : FilePath} {problem : SyntaxError} :
    problemAt? tree path = some problem ↔
      ∃ text, tree.read? path = some text ∧ Source.parseFile text = .error problem := by
  unfold problemAt?
  cases tree.read? path with
  | none => simp
  | some text =>
      cases parsed : Source.parseFile text with
      | ok items => simp [parsed]
      | error wrong => simp [parsed]

theorem mem_unparsable_iff (listed : plan.sources tree = .ok sources) {path : FilePath}
    {problem : SyntaxError} :
    (path, problem) ∈ plan.unparsable tree ↔
      (∃ module, (path, module) ∈ sources) ∧ problemAt? tree path = some problem := by
  rw [unparsable, listed, List.mem_filterMap]
  constructor
  · rintro ⟨⟨found, module⟩, member, failed⟩
    obtain ⟨wrong, here, same⟩ := Option.map_eq_some_iff.mp failed
    cases same
    exact ⟨⟨module, member⟩, here⟩
  · rintro ⟨⟨module, member⟩, here⟩
    exact ⟨(path, module), member, by rw [here, Option.map_some]⟩

/-! ## Reading the same files -/

theorem emptiedIn_emptied (plan : BuildPlan) (tree : FileTree) :
    FileTree.EmptiedIn (plan.IsUnparsable tree) tree (plan.emptied tree) := by
  intro place
  refine (FileTree.emptiedIn_emptyFiles tree _ place).imp_right ?_
  rintro ⟨content, ⟨chosen, there⟩, same⟩
  obtain ⟨source, listed, located⟩ := List.any_eq_true.mp chosen
  exact ⟨content, ⟨⟨source, listed, beq_iff_eq.mp located⟩, there⟩, same⟩

/-- The source files among those with these names in a folder. -/
def sourcesNamed (folder : FilePath) (found : List Location) :
    Except BuildError (List (FilePath × ModulePath)) :=
  ((found.map fun names => (folder.joinAll names, names)).filter fun (path, _) =>
    path.isSource).mapM fun (path, names) =>
      match (FilePath.mk (String.intercalate "/" names)).module? with
      | some module => return (path, module)
      | none => throw (.unknownModule path)

/-- The source files in a folder are told by the names that are listed there. -/
theorem sourcesIn_eq (tree : FileTree) (folder : FilePath) :
    sourcesIn tree folder = ((tree.walk? folder).map (List.map Prod.fst)).elim
      (.error (.folder folder)) (sourcesNamed folder) := by
  unfold sourcesIn
  cases tree.walk? folder with
  | none => rfl
  | some found =>
      rw [Option.map_some, Option.elim_some, sourcesNamed, List.map_map]
      rfl

theorem sources_emptied (plan : BuildPlan) (tree : FileTree) :
    plan.sources (plan.emptied tree) = plan.sources tree := by
  have folders : sourcesIn (plan.emptied tree) = sourcesIn tree := by
    funext folder
    rw [sourcesIn_eq, sourcesIn_eq, emptied, FileTree.map_fst_walk?_emptyFiles]
  rw [sources, sources, folders]

/-- A source file is read as if it were empty if its text cannot be read. -/
theorem sourceFrom_emptied (listed : plan.sources tree = .ok sources)
    {source : FilePath × ModulePath} (member : source ∈ sources) :
    sourceFrom (plan.emptied tree) source = (sourceFrom tree source).map ReadSource.emptied := by
  obtain ⟨path, module⟩ := source
  unfold sourceFrom
  dsimp only
  cases located : tree.locate? path with
  | none =>
      have alsoLocated :=
        (FileTree.locate?_congr (plan.emptiedIn_emptied tree).sameFolders path).trans located
      rw [FileTree.read?, FileTree.read?, located, alsoLocated]
      rfl
  | some place =>
      -- Other paths may lead to the same file, so the place decides whether it is emptied.
      cases chosen : (plan.unparsable tree).any fun source =>
          tree.locate? source.1 == some place with
      | true =>
          obtain ⟨⟨other, problem⟩, wrong, there⟩ := List.any_eq_true.mp chosen
          obtain ⟨text, found, unread⟩ :=
            problemAt?_eq_some_iff.mp ((mem_unparsable_iff listed).mp wrong).2
          have here : tree.read? path = some text := by
            rw [FileTree.read?_eq located, ← FileTree.read?_eq (beq_iff_eq.mp there), found]
          have emptied : (plan.emptied tree).read? path = some "" :=
            FileTree.read?_emptyFiles_of_chosen here located chosen
          simp only [here, emptied, ReadSource.ofText_of_error unread]
          rfl
      | false =>
          have kept : (plan.emptied tree).read? path = tree.read? path :=
            FileTree.read?_emptyFiles_of_not_chosen located chosen
          rw [kept]
          cases found : tree.read? path with
          | none => rfl
          | some text =>
              cases parsed : Source.parseFile text with
              | ok items =>
                  simp only [ReadSource.ofText_of_ok parsed]
                  rfl
              | error problem =>
                  have wrong : (path, problem) ∈ plan.unparsable tree :=
                    (mem_unparsable_iff listed).mpr
                      ⟨⟨module, member⟩, problemAt?_eq_some_iff.mpr ⟨text, found, parsed⟩⟩
                  have absent := List.any_eq_false.mp chosen _ wrong
                  exact absurd (beq_iff_eq.mpr located) absent

theorem inputs_emptied (configured : plan.configFrom (plan.emptied tree) = plan.configFrom tree) :
    plan.inputs environment (plan.emptied tree) =
      (plan.inputs environment tree).map BuildInputs.emptied := by
  unfold BuildPlan.inputs
  rw [configured, sources_emptied]
  cases plan.configFrom tree with
  | error error => rfl
  | ok config =>
      dsimp only [Except.bind]
      cases plan.outputFolder.or environment with
      | none => rfl
      | some output =>
          dsimp only
          cases listed : plan.sources tree with
          | error error => rfl
          | ok sources =>
              have read : sources.mapM (sourceFrom (plan.emptied tree)) =
                  (sources.mapM (sourceFrom tree)).map (List.map ReadSource.emptied) :=
                Except.mapM_eq_map fun source member => sourceFrom_emptied listed member
              dsimp only
              rw [read]
              cases sources.mapM (sourceFrom tree) <;> rfl

theorem sourceFrom_eq_ok {source : FilePath × ModulePath} {read : ReadSource}
    (found : sourceFrom tree source = .ok read) :
    read.IsRead ∧ read.warning? =
      (problemAt? tree source.1).map fun problem => skipWarning (source.1, problem) := by
  unfold sourceFrom at found
  split at found
  next text present =>
    cases found
    refine ⟨ReadSource.isRead_ofText _ _ _, ?_⟩
    rw [problemAt?, present, Option.map_some]
    cases parsed : Source.parseFile text with
    | ok items => rw [ReadSource.ofText_of_ok parsed]; rfl
    | error problem => rw [ReadSource.ofText_of_error parsed]; rfl
  next => cases found

/-- There is a warning for each source that cannot be read, in order. -/
theorem warnings_of_forall₂ {sources : List (FilePath × ModulePath)} {read : List ReadSource}
    (each : List.Forall₂ (fun source found => sourceFrom tree source = .ok found) sources read) :
    read.filterMap ReadSource.warning? = (sources.filterMap fun source =>
      (problemAt? tree source.1).map fun problem => (source.1, problem)).map skipWarning := by
  induction each with
  | nil => rfl
  | @cons source found sources read made _ ih =>
      rw [List.filterMap_cons, List.filterMap_cons, (sourceFrom_eq_ok made).2, ih]
      cases problemAt? tree source.1 <;> rfl

theorem read_eq (read : plan.inputs environment tree = .ok inputs) :
    (∀ source ∈ inputs.read, source.IsRead) ∧
      inputs.read.filterMap ReadSource.warning? = (plan.unparsable tree).map skipWarning := by
  obtain ⟨-, -, sources, -, -, listed, taken, -, -⟩ := inputs_eq_ok read
  have each := Except.mapM_eq_ok_iff.mp taken
  constructor
  · intro source member
    obtain ⟨origin, -, made⟩ := exists_of_forall₂ each.flip member
    exact (sourceFrom_eq_ok made).1
  · rw [unparsable, listed]
    exact warnings_of_forall₂ each

/-! ## Both runs -/

theorem outcome_emptied (configured : plan.configFrom (plan.emptied tree) = plan.configFrom tree) :
    let ended := plan.outcome environment tree
    let otherEnded := plan.outcome environment (plan.emptied tree)
    ended.1 = otherEnded.1.map
        (BuildReport.withWarnings ((plan.unparsable tree).map skipWarning)) ∧
      FileTree.EmptiedIn (plan.IsUnparsable tree) ended.2 otherEnded.2 ∧
      ∀ report, ended.1 = .ok report → ∀ path ∈ report.written,
        FileTree.SameText path ended.2 otherEnded.2 := by
  have emptied := plan.emptiedIn_emptied tree
  unfold BuildPlan.outcome
  rw [inputs_emptied configured]
  cases read : plan.inputs environment tree with
  | error error => exact ⟨rfl, emptied, nofun⟩
  | ok inputs =>
      obtain ⟨allRead, warnings⟩ := read_eq read
      rw [← warnings]
      exact inputs.outcome_emptied allRead emptied

/-- **A file that cannot be read is like an empty one.** With the same configuration, a step on the
given files ends as the step does on the files where those that cannot be read are empty. If both
finish, they have scanned and written the same files in the same order and generated the same number
of merged types, and the diagnostics of the first are those of the second after a warning for each
file that cannot be read. What they have written is the same, and the files afterwards are the same,
but for files that cannot be read and have stayed as they were. -/
theorem run_emptied (configured : plan.configFrom (plan.emptied tree) = plan.configFrom tree) :
    let ran := plan.run environment tree
    let otherRan := plan.run environment (plan.emptied tree)
    ran.1 = otherRan.1.map
        (BuildReport.withWarnings ((plan.unparsable tree).map skipWarning)) ∧
      (∀ report, ran.1 = .ok report → ∀ path ∈ report.written, ∃ text,
        ran.2.tree.read? path = some text ∧ otherRan.2.tree.read? path = some text) ∧
      ∀ location, otherRan.2.tree.entryAt? location = ran.2.tree.entryAt? location ∨
        ∃ content, plan.IsUnparsable tree location content ∧
          ran.2.tree.entryAt? location = some (.file content) ∧
          otherRan.2.tree.entryAt? location = some (.file (.text "")) := by
  intro ran otherRan
  have here : (ran.1, ran.2.tree) = plan.outcome environment tree := run_eq_outcome ..
  have there : (otherRan.1, otherRan.2.tree) = plan.outcome environment (plan.emptied tree) :=
    run_eq_outcome ..
  have ends := @outcome_emptied plan environment tree configured
  dsimp only at ends
  rw [← here, ← there] at ends
  exact ⟨ends.1, ends.2.2, ends.2.1⟩

def discPlan : BuildPlan where
  sourceFolders := []
  files := [⟨⟨"disc.rs"⟩, none⟩, ⟨⟨"lib.rs"⟩, none⟩]
  config := none
  configFile := none
  outputFolder := some ⟨"out"⟩
  showsDirectives := false

/-- The file cannot be read, and the root declares its module once more. -/
def discTree : FileTree :=
  ⟨[(["disc.rs"], .file (.text "struct Disc; )")), (["lib.rs"], .file (.text "mod disc {}"))]⟩

/-- The step goes on with the empty module. -/
theorem run_emptied_disc :
    discPlan.configFrom (discPlan.emptied discTree) = discPlan.configFrom discTree ∧
    discPlan.unparsable discTree = [(⟨"disc.rs"⟩, ⟨1⟩)] ∧
    (discPlan.run none discTree).1 = (discPlan.run none (discPlan.emptied discTree)).1.map
      (BuildReport.withWarnings [skipWarning (⟨"disc.rs"⟩, ⟨1⟩)]) ∧
    ∃ report, (discPlan.run none discTree).1 = .ok report ∧
      report.written = [⟨"out/polystruct/disc.rs"⟩, ⟨"out/polystruct/crate.rs"⟩] ∧
      ∀ path ∈ report.written, ∃ text,
        (discPlan.run none discTree).2.tree.read? path = some text ∧
        (discPlan.run none (discPlan.emptied discTree)).2.tree.read? path = some text := by
  have configured : discPlan.configFrom (discPlan.emptied discTree) =
      discPlan.configFrom discTree := rfl
  have wrong : discPlan.unparsable discTree = [(⟨"disc.rs"⟩, ⟨1⟩)] := by decide +kernel
  have finishes : (discPlan.run none discTree).1.toOption.map BuildReport.written =
      some [⟨"out/polystruct/disc.rs"⟩, ⟨"out/polystruct/crate.rs"⟩] := by decide +kernel
  obtain ⟨report, finished, written⟩ := Except.exists_of_toOption_map finishes
  obtain ⟨same, files, -⟩ := @run_emptied discPlan none discTree configured
  rw [wrong] at same
  exact ⟨configured, wrong, same, report, finished, written, files report finished⟩

end BuildPlan

end VariantMerge
