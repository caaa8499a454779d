import VariantMerge.Expansion
import VariantMerge.Proofs.Generation.Drafts
import VariantMerge.Proofs.Hierarchy.Methods

/-!
# What a module is expanded to

Once the arguments and the module have been read (`Expansion.Accepts`), expansion is a pass over
the module as the only unit, and everything that the pass yields goes into one answer: the items of
all sources, read again, behind those of the module, and an error for each diagnostic behind the
module. A pass never fails, and an interface that fails leaves only its diagnostic. But all texts
are read before anything is put together, so that the first one that is no list of declarations is
all that expansion tells (`Expansion.Accepts.module_value`). There are such texts, since the name of
a merged type is checked by its first letter alone: one word with a capital is a keyword.
-/

namespace VariantMerge

namespace Expansion

variable {arguments declaration : String} {config : Config} {head : ModuleHead} {items : List Item}

/-! ## What is accepted -/

/-- The arguments are a valid configuration, and the declaration is a module with these items. -/
structure Accepts (arguments declaration : String) (config : Config) (head : ModuleHead)
    (items : List Item) : Prop where
  configured : (trees arguments).bind Expansion.config = .ok config
  declared : Source.parse Source.moduleItem declaration = .ok (head, some items)

/-- The unit that a module with a body is scanned as. -/
def unitOf (head : ModuleHead) (items : List Item) : SourceUnit :=
  ⟨head.name, .root, items⟩

/-- Events do not change what an expansion comes to. -/
theorem value_bind {ε α β : Type} (first : ExceptT ε Logged α) (next : α → ExceptT ε Logged β) :
    (first >>= next).run.value = first.run.value.bind fun value => (next value).run.value := by
  change (ExceptT.bindCont next first.run.value).value = _
  cases first.run.value <;> rfl

/-- Expansion reads everything that it is given, and then assembles what a pass yields. -/
theorem module_value_eq (arguments declaration : String) :
    (module arguments declaration).value = (trees arguments).bind fun given =>
      (reading (Source.parse Source.moduleItem declaration)).bind fun read =>
        (Expansion.config given).bind fun config =>
          match read.2 with
          | none => .error .noBody
          | some items =>
            assemble config read.1 items (Generation.run config [unitOf read.1 items]).value := by
  unfold module
  simp only [value_bind]
  refine congrArg (Except.bind _) (funext fun given => congrArg (Except.bind _) (funext fun read =>
    congrArg (Except.bind _) (funext fun config => ?_)))
  obtain ⟨head, content⟩ := read
  cases content with
  | none => rfl
  | some items => exact value_bind _ _

/-- What is accepted is expanded to what is assembled from a pass. -/
theorem Accepts.module_eq (accepts : Accepts arguments declaration config head items) :
    (module arguments declaration).value =
      assemble config head items (Generation.run config [unitOf head items]).value := by
  obtain ⟨given, read, configured⟩ := Except.bind_eq_ok_iff.mp accepts.configured
  rw [module_value_eq, read, accepts.declared]
  simp only [reading, Except.mapError, Except.bind, configured]

/-- No argument changes the mode. -/
theorem addArgument_mode {before after : Config} {argument : Attribute}
    (added : addArgument before argument = .ok after) : after.mode = before.mode := by
  unfold addArgument at added
  split at added
  · split at added
    · unfold applyArgument at added
      split at added <;> cases added <;> rfl
    · cases added
    · cases added
  · cases added

/-- No argument asks for module units. -/
theorem Accepts.mode (accepts : Accepts arguments declaration config head items) :
    config.mode = .inPlace := by
  obtain ⟨given, -, configured⟩ := Except.bind_eq_ok_iff.mp accepts.configured
  obtain ⟨written, -, rest⟩ := Except.bind_eq_ok_iff.mp configured
  obtain ⟨asked, folded, checked⟩ := Except.bind_eq_ok_iff.mp rest
  have step : ∀ argument ∈ written, ∀ before after : Config, before.mode = .inPlace →
      addArgument before argument = .ok after → after.mode = .inPlace :=
    fun argument _ before after held added => (addArgument_mode added).trans held
  have kept := Except.foldlM_keeps step rfl folded
  have same : asked.check = .ok config := Except.mapError_eq_ok_iff.mp checked
  unfold Config.check at same
  split at same
  · cases same
  · cases same
    exact kept

/-- What can be computed from a module that can be read, without arguments. -/
theorem exists_accepts_of_read {chars : List Char} {f : ModuleHead → List Item → α} {result : α}
    (same : declaration.toList = chars)
    (read : (Source.parseChars Source.moduleItem chars).toOption.map
      (fun read => read.2.map (f read.1)) = some (some result)) :
    ∃ head items, Accepts "" declaration .default head items ∧ f head items = result := by
  obtain ⟨⟨head, content⟩, declared, yields⟩ := Except.exists_of_toOption_map read
  obtain ⟨items, rfl, yields⟩ := Option.map_eq_some_iff.mp yields
  refine ⟨head, items, ⟨rfl, ?_⟩, yields⟩
  rw [Source.parse, same]
  exact declared

/-! ## What is assembled -/

/-- A module with items behind its own, and a call that fails for each diagnostic. -/
def assembled (config : Config) (head : ModuleHead) (items made : List Item)
    (diagnostics : List Diagnostic) : List Token :=
  (Item.module head (some (strippedItems config.marker items ++ made))).tokens ++
    diagnostics.flatMap fun diagnostic => compileError diagnostic.display

/-- Assembly puts the items of all sources together if all can be read. -/
theorem assemble_eq (config : Config) (head : ModuleHead) (items : List Item)
    (generation : Generation) :
    assemble config head items generation = (generation.sources.mapM generatedItems).map fun made =>
      assembled config head items made.flatten
        (generation.diagnostics.filter Diagnostic.isError) := by
  unfold assemble
  cases generation.sources.mapM generatedItems <;> rfl

/-- Generated items are missing exactly if their source cannot be parsed. -/
theorem generatedItems_eq_error_iff {source : GeneratedSource} {error : ExpansionError} :
    generatedItems source = .error error ↔
      ∃ problem, Source.parse Parser.items source.text = .error problem ∧
        error = .unreadableSource source.name problem := by
  unfold generatedItems
  cases Source.parse Parser.items source.text with
  | error problem => simp [eq_comm]
  | ok read => simp

/-- Every diagnostic of a pass is an error. -/
theorem filter_isError (config : Config) (units : List SourceUnit) :
    (Generation.run config units).value.diagnostics.filter Diagnostic.isError =
      (Generation.run config units).value.diagnostics := by
  rw [List.filter_eq_self, (Generation.run_eq_added config units).2]
  intro diagnostic listed
  obtain ⟨interface, -, here⟩ := List.mem_flatMap.mp listed
  let scan := ScanResult.ofUnits config.marker units
  have contributes : Generation.Contributes config scan interface
      (Generation.added config scan interface).1 (Generation.added config scan interface).2 :=
    Generation.contribution_contributes config scan interface
  generalize Generation.added config scan interface = parts at here contributes
  obtain ⟨sources, diagnostics⟩ := parts
  cases contributes with
  | generated => cases here
  | skipped => cases here
  | failed severity =>
      obtain rfl := List.mem_singleton.mp here
      simp [Diagnostic.isError, severity]

/-- What is expanded depends on the sources and the diagnostics of a pass. -/
theorem Accepts.module_eq_map (accepts : Accepts arguments declaration config head items) :
    let output := (Generation.run config [unitOf head items]).value
    (module arguments declaration).value = (output.sources.mapM generatedItems).map fun made =>
      assembled config head items made.flatten output.diagnostics := by
  intro output
  rw [← filter_isError config [unitOf head items], ← assemble_eq]
  exact accepts.module_eq

/-- Expansion succeeds if all sources are lists of declarations. -/
theorem Accepts.module_eq_ok_iff (accepts : Accepts arguments declaration config head items)
    {tokens : List Token} :
    let output := (Generation.run config [unitOf head items]).value
    (module arguments declaration).value = .ok tokens ↔ ∃ made,
      List.Forall₂ (fun source read => generatedItems source = .ok read) output.sources made ∧
        tokens = assembled config head items made.flatten output.diagnostics := by
  rw [accepts.module_eq_map, Except.map_eq_ok_iff]
  exact exists_congr fun made => and_congr Except.mapM_eq_ok_iff eq_comm

/-- Expansion fails because of the first source that is no list of declarations. -/
theorem Accepts.module_eq_error_iff (accepts : Accepts arguments declaration config head items)
    {error : ExpansionError} :
    let output := (Generation.run config [unitOf head items]).value
    (module arguments declaration).value = .error error ↔ ∃ before source after problem,
      output.sources = before ++ source :: after ∧
        (∀ earlier ∈ before, ∃ read, generatedItems earlier = .ok read) ∧
        Source.parse Parser.items source.text = .error problem ∧
        error = .unreadableSource source.name problem := by
  intro output
  rw [accepts.module_eq_map, Except.map_eq_error_iff, Except.mapM_eq_error_iff]
  simp only [generatedItems_eq_error_iff, exists_and_left]
  rfl

open Generation in
/-- **What a module is expanded to.** A pass over an accepted module yields what its interfaces add:
each all sources of its merged type, nothing, or one error. Expansion succeeds exactly if all of
these sources are lists of declarations, and then the answer is the module with its own items, without
the attributes of the generator, and behind them those of all sources in order, followed by one
failing call for each interface that failed. So an interface that fails, or has no variants, takes
nothing from the others. Otherwise the answer is an error about the first source that cannot be read,
whatever the other sources are. -/
theorem Accepts.module_value (accepts : Accepts arguments declaration config head items) :
    let scan := ScanResult.ofUnits config.marker [unitOf head items]
    let output := (Generation.run config [unitOf head items]).value
    let result := (module arguments declaration).value
    (output.sources = scan.interfaces.flatMap (fun interface => (added config scan interface).1) ∧
      output.diagnostics =
        scan.interfaces.flatMap (fun interface => (added config scan interface).2) ∧
      ∀ interface ∈ scan.interfaces, Contributes config scan interface
        (added config scan interface).1 (added config scan interface).2) ∧
    (∀ tokens, result = .ok tokens ↔ ∃ made,
      List.Forall₂ (fun source read => generatedItems source = .ok read) output.sources made ∧
        tokens = assembled config head items made.flatten output.diagnostics) ∧
    ∀ error, result = .error error ↔ ∃ before source after problem,
      output.sources = before ++ source :: after ∧
        (∀ earlier ∈ before, ∃ read, generatedItems earlier = .ok read) ∧
        Source.parse Parser.items source.text = .error problem ∧
        error = .unreadableSource source.name problem := by
  intro scan output result
  obtain ⟨sources, diagnostics⟩ := run_eq_added config [unitOf head items]
  exact ⟨⟨sources, diagnostics, fun interface _ => contribution_contributes config scan interface⟩,
    fun tokens => accepts.module_eq_ok_iff, fun error => accepts.module_eq_error_iff⟩

/-! ## A shape -/

/-- The source of a merged type with one variant and no members. -/
def shapeTypeLines : List String :=
  ["/// Discriminant of [`Shape`].",
    "#[derive(Clone, Copy, Debug, PartialEq, Eq, Hash)]",
    "enum ShapeTypeId \x7b",
    "    Square,",
    "\x7d",
    "",
    "/// Flattened value of every `IShape` implementor.",
    "#[derive(Default, Clone, Debug, PartialEq)]",
    "struct Shape \x7b",
    "    pub current_type_id: ::core::option::Option<ShapeTypeId>,",
    "\x7d",
    "",
    "#[allow(unused_variables, clippy::let_unit_value)]",
    "impl IShape for Shape \x7b",
    "\x7d"]

/-- The source of its variant, which has no fields. -/
def squareLines : List String :=
  ["#[allow(clippy::clone_on_copy, clippy::needless_update)]",
    "impl Square \x7b",
    "    fn from_shape(_merged: &Shape) -> Self \x7b",
    "        Self \x7b",
    "        \x7d",
    "    \x7d",
    "",
    "    fn to_shape(&self) -> Shape \x7b",
    "        Shape \x7b",
    "            current_type_id: ::core::option::Option::Some(ShapeTypeId::Square),",
    "            ..::core::default::Default::default()",
    "        \x7d",
    "    \x7d",
    "",
    "    fn write_into_shape(&self, merged: &mut Shape) \x7b",
    "        merged.current_type_id = ::core::option::Option::Some(ShapeTypeId::Square);",
    "    \x7d",
    "\x7d",
    "",
    "impl ::core::convert::From<Square> for Shape \x7b",
    "    fn from(value: Square) -> Self \x7b",
    "        value.to_shape()",
    "    \x7d",
    "\x7d",
    "",
    "impl ::core::convert::From<&Shape> for Square \x7b",
    "    fn from(merged: &Shape) -> Self \x7b",
    "        Self::from_shape(merged)",
    "    \x7d",
    "\x7d"]

/-- The source of the type is a list of declarations. -/
theorem parse_shapeTypeLines :
    (Source.parseChars Parser.items (Text.feeds shapeTypeLines)).toOption.map (·.2.length) =
      some 3 := by
  rw [shapeTypeLines]
  repeat rw [Text.feeds_cons]
  decide +kernel

/-- The source of the variant is a list of declarations. -/
theorem parse_squareLines :
    (Source.parseChars Parser.items (Text.feeds squareLines)).toOption.map (·.2.length) =
      some 3 := by
  rw [squareLines]
  repeat rw [Text.feeds_cons]
  decide +kernel

open Generation in
/-- The items of a source are those of its draft's lines. -/
theorem generatedItems_eq_ok {draft : Draft} {source : GeneratedSource} {count : Nat}
    (becomes : draft.Becomes source)
    (read : (Source.parseChars Parser.items (Text.feeds draft.lines)).toOption.map (·.2.length) =
      some count) : ∃ made, generatedItems source = .ok made ∧ made.length = count := by
  obtain ⟨⟨attributes, made⟩, parsed, counted⟩ := Except.exists_of_toOption_map read
  refine ⟨made, ?_, counted⟩
  rw [generatedItems, becomes.parse, parsed]

/-! ## An interface that fails next to one that does not -/

/-- A module with an interface that cannot be merged, since its name has no prefix, and one that has a
variant. -/
def mixedText : String :=
  "mod shapes \x7b
    #[polymorphic_struct] trait Shape \x7b\x7d
    #[polymorphic_struct] trait IShape \x7b\x7d
    struct Square;
    impl IShape for Square \x7b\x7d
\x7d"

def unprefixed : Diagnostic :=
  ⟨.error, some "Shape", (Failure.invalidName "Shape" (.missingPrefix "I")).message⟩

def shapeDrafts (module : ModulePath) : List Generation.Draft :=
  [⟨"Shape", module, shapeTypeLines⟩, ⟨"square_shape", module, squareLines⟩]

/-- Whether the first interface adds no source, its diagnostics, and the drafts of all interfaces. -/
structure MixedOutline where
  first : Option (Bool × List Diagnostic)
  drafts : List (Option (List Generation.Draft))
  deriving DecidableEq

def mixedOutline (scan : ScanResult) : MixedOutline where
  first := (scan.interfaces.head?.map (Generation.added .default scan)).map fun parts =>
    (parts.1.isEmpty, parts.2)
  drafts := scan.interfaces.map (Generation.drafts .default "    " scan)

set_option maxRecDepth 8000 in
/-- The first interface adds an error, and the second one the drafts of a shape. -/
theorem accepts_mixed : ∃ head items, Accepts "" mixedText .default head items ∧
    mixedOutline (ScanResult.ofUnits Config.default.marker [unitOf head items]) =
      ⟨some (true, [unprefixed]), [none, some (shapeDrafts .root)]⟩ := by
  refine exists_accepts_of_read String.toList_ofList ?_
  decide +kernel

open Generation in
/-- One interface fails, and the module still gets the items of the other one, behind its own. -/
theorem module_value_mixed : ∃ head items typeItems variantItems,
    Accepts "" mixedText .default head items ∧ typeItems.length = 3 ∧ variantItems.length = 3 ∧
    (module "" mixedText).value =
      .ok (assembled .default head items (typeItems ++ variantItems) [unprefixed]) := by
  obtain ⟨head, items, accepts, outlined⟩ := accepts_mixed
  obtain ⟨added_, succeeds, -⟩ := accepts.module_value
  obtain ⟨sources, diagnostics, -⟩ := added_
  unfold mixedOutline at outlined
  generalize ScanResult.ofUnits Config.default.marker [unitOf head items] = scan
    at outlined sources diagnostics
  obtain ⟨first, drafted⟩ := MixedOutline.mk.inj outlined
  obtain ⟨failing, shape, both⟩ : ∃ failing shape, scan.interfaces = [failing, shape] :=
    List.length_eq_two.mp (by simpa using congrArg List.length drafted)
  rw [both] at first drafted sources diagnostics
  obtain ⟨-, drafted⟩ := List.cons.inj drafted
  obtain ⟨empty, failed⟩ := Prod.mk.inj (Option.some.inj first)
  have built : Config.default.indent.unit? = some "    " := rfl
  obtain ⟨becomes, silent⟩ := added_drafts built (List.singleton_inj.mp drafted)
  -- The sources are those of the drafts, since the first interface adds none.
  obtain ⟨type, rest, becomesType, later, parts⟩ := List.forall₂_cons_left_iff.mp becomes
  obtain ⟨variant, none_, becomesVariant, last, rfl⟩ := List.forall₂_cons_left_iff.mp later
  obtain rfl := List.forall₂_nil_left_iff.mp last
  obtain ⟨typeItems, typeRead, types⟩ := generatedItems_eq_ok becomesType parse_shapeTypeLines
  obtain ⟨variantItems, variantRead, variants⟩ := generatedItems_eq_ok becomesVariant parse_squareLines
  have all : (run .default [unitOf head items]).value.sources = [type, variant] := by
    rw [sources, List.flatMap_cons, List.flatMap_singleton, List.isEmpty_iff.mp empty, parts,
      List.nil_append]
  have told : (run .default [unitOf head items]).value.diagnostics = [unprefixed] := by
    rw [diagnostics, List.flatMap_cons, List.flatMap_singleton, failed, silent, List.append_nil]
  refine ⟨head, items, typeItems, variantItems, accepts, types, variants,
    (succeeds _).mpr ⟨[typeItems, variantItems], ?_, ?_⟩⟩
  · rw [all]
    exact .cons typeRead (.cons variantRead .nil)
  · rw [told, List.flatten_cons, List.flatten_singleton]

/-! ## A merged type that has no name -/

/-- A module with two interfaces that are implemented by one struct. One of them would be merged
into a type of the name that every implementation has for its own. -/
def selfTypeText : String :=
  "mod shapes \x7b
    #[polymorphic_struct] trait ISelf \x7b\x7d
    #[polymorphic_struct] trait IShape \x7b\x7d
    struct Square;
    impl ISelf for Square \x7b\x7d
    impl IShape for Square \x7b\x7d
\x7d"

def selfTypeLines : List String :=
  ["/// Discriminant of [`Self`].",
    "#[derive(Clone, Copy, Debug, PartialEq, Eq, Hash)]",
    "enum SelfTypeId \x7b",
    "    Square,",
    "\x7d",
    "",
    "/// Flattened value of every `ISelf` implementor.",
    "#[derive(Default, Clone, Debug, PartialEq)]",
    "struct Self \x7b",
    "    pub current_type_id: ::core::option::Option<SelfTypeId>,",
    "\x7d",
    "",
    "#[allow(unused_variables, clippy::let_unit_value)]",
    "impl ISelf for Self \x7b",
    "\x7d"]

/-- The text of a type that has no name cannot be read. -/
theorem parse_selfTypeLines :
    Source.parseChars Parser.items (Text.feeds selfTypeLines) = .error ⟨9⟩ := by
  refine (Except.map_eq_error_iff (f := fun _ => ())).mp ?_
  rw [selfTypeLines]
  repeat rw [Text.feeds_cons]
  decide +kernel

/-- The names of the drafts of all interfaces of a module, and the lines of the first one. -/
def outline (head : ModuleHead) (items : List Item) :
    List (String × Option (List String)) × Option (List String) :=
  let scan := ScanResult.ofUnits Config.default.marker [unitOf head items]
  let drafts := scan.interfaces.map fun interface =>
    (interface.name, Generation.drafts .default "    " scan interface)
  (drafts.map fun entry => (entry.1, entry.2.map (List.map Generation.Draft.name)),
    drafts.head?.bind fun entry => (entry.2.bind List.head?).map Generation.Draft.lines)

set_option maxRecDepth 8000 in
/-- Both interfaces have drafts, and the first lines are those of a type without a name. -/
theorem accepts_selfType : ∃ head items, Accepts "" selfTypeText .default head items ∧
    outline head items =
      ([("ISelf", some ["Self", "square_self"]), ("IShape", some ["Shape", "square_shape"])],
        some selfTypeLines) := by
  refine exists_accepts_of_read String.toList_ofList ?_
  decide +kernel

open Generation in
/-- One interface can take the sources of all others away: its own cannot be read, and that is all
that expansion tells. -/
theorem module_selfType : ∃ head items, Accepts "" selfTypeText .default head items ∧
    (∃ shape ∈ (ScanResult.ofUnits Config.default.marker [unitOf head items]).interfaces,
      shape.name = "IShape" ∧ (added .default (ScanResult.ofUnits Config.default.marker
        [unitOf head items]) shape).1.map GeneratedSource.name = ["Shape", "square_shape"]) ∧
    (module "" selfTypeText).value = .error (.unreadableSource "Self" ⟨9⟩) := by
  obtain ⟨head, items, accepts, outlined⟩ := accepts_selfType
  refine ⟨head, items, accepts, ?_⟩
  have sources := (run_eq_added .default [unitOf head items]).1
  unfold outline at outlined
  generalize ScanResult.ofUnits Config.default.marker [unitOf head items] = scan at outlined sources ⊢
  obtain ⟨names, lines⟩ := Prod.mk.inj outlined
  obtain ⟨selfType, shape, both⟩ : ∃ selfType shape, scan.interfaces = [selfType, shape] :=
    List.length_eq_two.mp (by simpa using congrArg List.length names)
  simp only [both, List.map_cons, List.map_nil, List.cons.injEq, Prod.mk.injEq, and_true] at names
  obtain ⟨⟨-, selfNames⟩, shapeName, shapeNames⟩ := names
  have built : Config.default.indent.unit? = some "    " := rfl
  -- The sources of both interfaces are those of their drafts.
  obtain ⟨written, drafted, named⟩ := Option.map_eq_some_iff.mp selfNames
  obtain ⟨first, rest, rfl, firstName, -⟩ := List.map_eq_cons_iff.mp named
  obtain ⟨source, others, becomes, -, selfSources⟩ :=
    List.forall₂_cons_left_iff.mp (added_drafts built drafted).1
  have firstLines : first.lines = selfTypeLines := by
    simpa [both, drafted] using lines
  obtain ⟨shapeDrafts, shapeDrafted, shapeNamed⟩ := Option.map_eq_some_iff.mp shapeNames
  have shapeSources := (added_drafts built shapeDrafted).1
  have parts : (run .default [unitOf head items]).value.sources =
      [] ++ source :: (others ++ (added .default scan shape).1) := by
    rw [sources, both]
    simp [selfSources]
  refine ⟨⟨shape, by simp [both], shapeName, ?_⟩, ?_⟩
  · rw [Draft.names_eq shapeSources, shapeNamed]
  · refine accepts.module_eq_error_iff.mpr ⟨[], source, _, ⟨9⟩, parts,
      fun _ none_ => absurd none_ List.not_mem_nil, ?_, ?_⟩
    · rw [becomes.parse, firstLines, parse_selfTypeLines]
    · rw [becomes.name, firstName]

end Expansion

end VariantMerge
