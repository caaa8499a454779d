import VariantMerge.Proofs.Generation.Modes

/-!
# Drafts of sources

An interface is merged first, and then its sources are written (`Generation.ofInterface_merged`).
Where indentation can be built, only the merging can fail: code is a list of lines that have to be
joined. What a source is called, where it is hosted and what its lines are is its draft, and the
sources that an interface adds to a pass are those of its drafts (`Generation.added_drafts`).
-/

namespace VariantMerge

namespace Generation

variable {config : Config} {scan : ScanResult} {interface : Interface}

/-- The merged type of an interface, if it has variants. -/
def mergedOf (config : Config) (scan : ScanResult) (interface : Interface) :
    Except Failure (Option MergedType) :=
  (MergedType.nameFor interface.name config.interfacePrefix).bind fun name =>
    ((scan.variantsOf interface.name name).mapM fun decl =>
      Variant.ofStruct decl.item decl.module).bind fun variants =>
        if variants.isEmpty then .ok none
        else (Hierarchy.collect scan interface).outcome.bind fun members =>
          (SlotLayout.ofVariants variants).bind fun layout =>
            (checkPlaces config interface variants members).bind fun _ =>
              .ok (some (assemble config interface name variants members layout))

/-- What a merged type adds. -/
def sourcesOf? (config : Config) (scan : ScanResult) :
    Option MergedType → Except Failure (List GeneratedSource)
  | none => .ok []
  | some merged => sourcesOf config scan merged

/-- **Merging comes first.** -/
theorem ofInterface_merged (config : Config) (scan : ScanResult) (interface : Interface) :
    (ofInterface config scan interface).outcome =
      (mergedOf config scan interface).bind (sourcesOf? config scan) := by
  rw [ofInterface_outcome, mergedOf, Except.bind_assoc]
  refine congrArg (Except.bind _) (funext fun name => ?_)
  rw [Except.bind_assoc]
  refine congrArg (Except.bind _) (funext fun variants => ?_)
  split
  · rfl
  · rw [Except.bind_assoc]
    refine congrArg (Except.bind _) (funext fun members => ?_)
    rw [Except.bind_assoc]
    refine congrArg (Except.bind _) (funext fun layout => ?_)
    rw [Except.bind_assoc]
    rfl

/-- What was merged is generated if indentation can be built. -/
theorem Generates.of_mergedOf {unit : String} (built : config.indent.unit? = some unit)
    {merged : MergedType} (made : mergedOf config scan interface = .ok (some merged)) :
    ∃ sources, Generates config scan interface merged sources := by
  obtain ⟨name, named, made⟩ := Except.bind_eq_ok_iff.mp made
  obtain ⟨variants, found, made⟩ := Except.bind_eq_ok_iff.mp made
  split at made
  · cases made
  next nonempty =>
    obtain ⟨members, collected, made⟩ := Except.bind_eq_ok_iff.mp made
    obtain ⟨layout, placed, made⟩ := Except.bind_eq_ok_iff.mp made
    obtain ⟨_, checked, made⟩ := Except.bind_eq_ok_iff.mp made
    cases made
    obtain ⟨sources, written⟩ := exists_sourcesOf built scan
      (assemble config interface name variants members layout)
    exact ⟨sources, named, found, fun empty => nonempty (List.isEmpty_iff.mpr empty), collected,
      placed, checked, rfl, rfl, rfl, rfl, written⟩

/-- What a source is called, where it is hosted, and what its lines are. -/
structure Draft where
  name : String
  module : ModulePath
  lines : List String
  deriving DecidableEq

/-- The draft of code under a heading, with this unit of indentation. -/
def draft (unit : String) (heading : String × SourceKind × String × ModulePath)
    (code : List Code) : Draft :=
  ⟨heading.1, heading.2.2.2, (Code.writeAll ⟨unit, [], []⟩ code).lines⟩

/-- The drafts of an interface, if it can be merged. -/
def drafts (config : Config) (unit : String) (scan : ScanResult) (interface : Interface) :
    Option (List Draft) :=
  match mergedOf config scan interface with
  | .ok (some merged) => some ((headings merged).zipWith (draft unit) (codes config merged))
  | _ => none

/-- A source is made from a draft. -/
structure Draft.Becomes (draft : Draft) (source : GeneratedSource) : Prop where
  name : source.name = draft.name
  module : source.module = draft.module
  text : source.text.toList = Text.feeds draft.lines

/-- A draft is read like its source. -/
theorem Draft.Becomes.parse {draft : Draft} {source : GeneratedSource}
    (becomes : draft.Becomes source) (phrase : Grammar → Parser α) :
    Source.parse phrase source.text = Source.parseChars phrase (Text.feeds draft.lines) := by
  rw [Source.parse, becomes.text]

/-- Sources have the names of their drafts. -/
theorem Draft.names_eq {written : List Draft} {sources : List GeneratedSource}
    (made : List.Forall₂ Draft.Becomes written sources) :
    sources.map GeneratedSource.name = written.map Draft.name := by
  rw [← List.forall₂_eq_eq_eq, List.forall₂_map_left_iff, List.forall₂_map_right_iff]
  exact made.flip.imp fun _ _ becomes => becomes.name

/-- The sources of a merged type are made from its headings and its code. -/
theorem sourcesOf_drafts {unit : String} (built : config.indent.unit? = some unit)
    {merged : MergedType} {sources : List GeneratedSource}
    (written : sourcesOf config scan merged = .ok sources) :
    List.Forall₂ Draft.Becomes ((headings merged).zipWith (draft unit) (codes config merged))
      sources := by
  obtain ⟨headed, texts⟩ := sourcesOf_contents written
  rw [headed]
  have coded : List.Forall₂ (fun code source => Code.text config.indent code =
      .ok source.text) (codes config merged) sources := by
    rw [List.map_map, ← List.forall₂_eq_eq_eq, List.forall₂_map_left_iff,
      List.forall₂_map_right_iff] at texts
    exact texts
  clear headed texts written
  generalize codes config merged = pieces at coded
  induction coded with
  | nil => exact .nil
  | @cons code source _ _ emitted _ ih =>
      refine .cons ⟨rfl, rfl, ?_⟩ ih
      rw [Code.text_eq_ok built] at emitted
      rw [← Except.ok.inj emitted, SourceWriter.toList_text]
      rfl

/-- **Sources are made from drafts.** An interface that has drafts adds the sources that they become, and
no diagnostic. -/
theorem added_drafts {unit : String} (built : config.indent.unit? = some unit)
    {written : List Draft} (drafted : drafts config unit scan interface = some written) :
    List.Forall₂ Draft.Becomes written (added config scan interface).1 ∧
      (added config scan interface).2 = [] := by
  unfold drafts at drafted
  split at drafted
  next merged merges =>
    cases drafted
    obtain ⟨sources, emitted⟩ := exists_sourcesOf built scan merged
    have succeeds : (ofInterface config scan interface).outcome = .ok sources := by
      rw [ofInterface_merged, merges]
      exact emitted
    rw [added_eq, succeeds]
    exact ⟨sourcesOf_drafts built emitted, rfl⟩
  next => cases drafted

end Generation

end VariantMerge
