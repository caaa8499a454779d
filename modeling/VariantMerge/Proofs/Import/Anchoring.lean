import Mathlib.Data.List.Forall2
import VariantMerge.Proofs.Import.Meaning

/-!
# Anchored imports

An import is anchored so that its line names the same item in every module. It does so exactly if the
leaf that it was made of is anchorable (`Import.anchors_of_ofLeaf?`): the relative beginning of its
path is one `self`, or only `super`, or a child module, and it ends before the imported name.
`Import.ofUse_anchors` says so of all leaves of an import. A second name to climb by stays in the
anchored path, and an imported child module is not anchored at all (`Import.ofUse_misplaces`).
-/

namespace VariantMerge

/-- What follows the beginning of a path that is replaced when the path is anchored. -/
def afterBeginning : List String → List String
  | [] => []
  | first :: rest => if first = "self" then rest else (first :: rest).dropWhile (· == "super")

/-- Of a path from the module itself, only the first name is passed over. -/
theorem afterBeginning_self (rest : List String) : afterBeginning ("self" :: rest) = rest := rfl

/-- Of a path from above, all steps up are passed over. -/
theorem afterBeginning_super (rest : List String) :
    afterBeginning ("super" :: rest) = ("super" :: rest).dropWhile (· == "super") := rfl

/-- What comes after the beginning is an end of the path. -/
theorem afterBeginning_suffix (path : List String) : afterBeginning path <:+ path := by
  cases path with
  | nil => exact List.suffix_refl _
  | cons first rest =>
      by_cases self : first = "self"
      · rw [afterBeginning, if_pos self]
        exact List.suffix_cons first rest
      · rw [afterBeginning, if_neg self]
        exact List.dropWhile_suffix _

/-- A leaf whose path can be anchored: nothing relative follows its beginning, and it is not itself a
child module. -/
structure IsAnchorable (children : List String) (leading : Bool)
    (leaf : List String × ImportedName) : Prop where
  settled : ∀ name ∈ (afterBeginning leaf.1 ++ leaf.2.leafSegments).head?, ¬ IsRelative name
  below : leading = false → leaf.1 = [] → ∀ name ∈ leaf.2.leafSegments, name ∉ children

instance (children : List String) (leading : Bool) (leaf : List String × ImportedName) :
    Decidable (IsAnchorable children leading leaf) :=
  decidable_of_iff
    ((∀ name ∈ (afterBeginning leaf.1 ++ leaf.2.leafSegments).head?, ¬ IsRelative name) ∧
      (leading = false → leaf.1 = [] → ∀ name ∈ leaf.2.leafSegments, name ∉ children))
    ⟨fun ⟨settled, below⟩ => ⟨settled, below⟩, fun ⟨settled, below⟩ => ⟨settled, below⟩⟩

/-- Where a plain path leads that does not start with a child module. -/
def Place.ofPlain : Bool → List String → Place
  | false, "crate" :: rest => .inside rest
  | leading, path => .outside leading path

/-- A plain path leads to a place from all modules without a child that it starts with. -/
def LeadsTo (leading : Bool) (path : List String) (place : Place) : Prop :=
  IsPlain path ∧ Place.ofPlain leading path = place

/-! ## Plain paths -/

/-- A path is plain if both parts are. -/
theorem isPlain_append {path rest : List String} :
    IsPlain (path ++ rest) ↔ IsPlain path ∧ IsPlain rest := by
  simp only [IsPlain, List.mem_append, or_imp, forall_and]

/-- A path is plain if its first name is not relative and its rest is plain. -/
theorem isPlain_cons {first : String} {rest : List String} :
    IsPlain (first :: rest) ↔ ¬ IsRelative first ∧ IsPlain rest := by
  simp only [IsPlain, List.mem_cons, forall_eq_or_imp]

/-- The root is named from anywhere. -/
theorem not_isRelative_crate : ¬ IsRelative "crate" := by decide

/-- A plain path leads to itself, unless it begins with a child. -/
theorem ModulePath.place?_of_isPlain {module : ModulePath} {children : List String}
    {leading : Bool} {path : List String} (plain : IsPlain path)
    (free : leading = false → ∀ first ∈ path.head?, first ∉ children) :
    module.place? children leading path = some (.ofPlain leading path) := by
  unfold place?
  cases leading with
  | true => simp [plain, Place.ofPlain]
  | false =>
      cases path with
      | nil => rfl
      | cons first rest =>
          obtain ⟨absolute, plainRest⟩ := isPlain_cons.mp plain
          have notChild : first ∉ children := free rfl first rfl
          simp only [Bool.false_eq_true, ↓reduceIte, absolute, plainRest, not_true_eq_false,
            notChild]
          by_cases root : first = "crate"
          · subst root
            rfl
          · rw [if_neg root, Place.ofPlain]
            simp [root]

namespace ModulePath

variable {module : ModulePath} {children : List String}

/-! ## Climbing -/

/-- Where a path does not climb, it leads below the module, if it is plain. -/
theorem climb?_of_settled {path : List String}
    (settled : ∀ name ∈ path.head?, ¬ IsRelative name) :
    module.climb? path = if IsPlain path then some (module.segments ++ path) else none := by
  cases path with
  | nil => simp [climb?, IsPlain]
  | cons first rest =>
      have absolute : ¬ IsRelative first := settled first rfl
      have notSelf : first ≠ "self" := fun same => absolute (.inl same)
      have notSuper : first ≠ "super" := fun same => absolute (.inr same)
      simp only [climb?, notSelf, notSuper, ↓reduceIte, isPlain_cons, absolute,
        not_false_eq_true, true_and]

/-- All steps up are made before the rest of the path is followed. -/
theorem climb?_supers (module : ModulePath) (path tail : List String) :
    module.climb? (path ++ tail) =
      (module.ancestor? (path.takeWhile (· == "super")).length).bind fun base =>
        base.climb? (path.dropWhile (· == "super") ++ tail) := by
  induction path generalizing module with
  | nil => rfl
  | cons first rest ih =>
      by_cases climbs : first = "super"
      · subst climbs
        simp only [List.cons_append, climb?, List.takeWhile_cons, List.dropWhile_cons,
          beq_self_eq_true, ↓reduceIte, List.length_cons, ancestor?, Option.bind_assoc, ih]
        rfl
      · simp only [List.takeWhile_cons, List.dropWhile_cons, beq_iff_eq, climbs, ↓reduceIte,
          List.length_nil, ancestor?, Option.bind_some]

/-- A module above has a beginning of the path. -/
theorem ancestor?_leads_above {count : Nat} {base : ModulePath}
    (climbed : module.ancestor? count = some base) : base.segments <+: module.segments := by
  induction count generalizing module with
  | zero =>
      cases climbed
      exact List.prefix_refl _
  | succ count ih =>
      obtain ⟨above, parent, further⟩ := Option.bind_eq_some_iff.mp climbed
      unfold parent? at parent
      split at parent
      · cases parent
      · cases parent
        exact (ih further).trans (List.dropLast_prefix _)

/-! ## Anchoring -/

/-- A path from the module itself is anchored below the module. -/
theorem anchor_self (rest : List String) :
    module.anchor children ("self" :: rest) = "crate" :: module.segments ++ rest := rfl

/-- A path from above is anchored below the module that its first steps lead to, if there is one. -/
theorem anchor_super {rest : List String} :
    module.anchor children ("super" :: rest) =
      match module.ancestor? (("super" :: rest).takeWhile (· == "super")).length with
      | some base => "crate" :: base.segments ++ ("super" :: rest).dropWhile (· == "super")
      | none => "super" :: rest := rfl

/-- Another path is anchored if it begins with a child, and is kept otherwise. -/
theorem anchor_of_not_isRelative {first : String} {rest : List String}
    (absolute : ¬ IsRelative first) :
    module.anchor children (first :: rest) =
      if first ∈ children then "crate" :: module.segments ++ first :: rest else first :: rest := by
  have notSelf : first ≠ "self" := fun same => absolute (.inl same)
  have notSuper : first ≠ "super" := fun same => absolute (.inr same)
  simp [anchor, notSelf, notSuper]

/-- No path gets lost by being anchored. -/
theorem anchor_eq_nil_iff {path : List String} : module.anchor children path = [] ↔ path = [] := by
  cases path with
  | nil => simp [anchor]
  | cons first rest =>
      by_cases climbs : IsRelative first
      · obtain rfl | rfl := climbs
        · simp [anchor_self]
        · rw [anchor_super]
          split <;> simp
      · rw [anchor_of_not_isRelative climbs]
        split <;> simp

/-- Behind a name that is not relative, nothing relative leads anywhere. -/
theorem isPlain_of_place? {leading : Bool} {path : List String} {place : Place}
    (settled : ∀ name ∈ path.head?, ¬ IsRelative name)
    (leads : module.place? children leading path = some place) : IsPlain path := by
  cases path with
  | nil => simp [IsPlain]
  | cons first rest =>
      have absolute : ¬ IsRelative first := settled first rfl
      by_contra entangled
      have behind : ¬ IsPlain rest := fun plain => entangled (isPlain_cons.mpr ⟨absolute, plain⟩)
      cases leading with
      | true => simp [place?, entangled] at leads
      | false => simp [place?, absolute, behind] at leads

/-- A path that begins with a child leads below the module. -/
theorem place?_child {first : String} {rest : List String} (absolute : ¬ IsRelative first)
    (plain : IsPlain rest) (child : first ∈ children) :
    module.place? children false (first :: rest) =
      some (.inside (module.segments ++ first :: rest)) := by
  simp [place?, absolute, plain, child]

/-- A relative path leads to where it climbs. -/
theorem place?_relative {first : String} {rest : List String} (relative : IsRelative first) :
    module.place? children false (first :: rest) =
      (module.climb? (first :: rest)).map .inside := by
  simp [place?, relative]

/-- A plain path from the root leads to the same place from every module. -/
theorem crate_leadsTo {base rest : List String} (above : IsPlain base) (plain : IsPlain rest) :
    LeadsTo false ("crate" :: base ++ rest) (.inside (base ++ rest)) :=
  ⟨isPlain_cons.mpr ⟨not_isRelative_crate, isPlain_append.mpr ⟨above, plain⟩⟩, rfl⟩

/-- What is imported from no path at all is named without one. -/
theorem anchor_nil_leadsTo {tail : List String} {place : Place}
    (settled : ∀ name ∈ tail.head?, ¬ IsRelative name) (below : ∀ name ∈ tail, name ∉ children)
    (leads : module.place? children false tail = some place) : LeadsTo false tail place := by
  have plain : IsPlain tail := isPlain_of_place? settled leads
  rw [place?_of_isPlain plain fun _ first listed => below first (List.mem_of_mem_head? listed)]
    at leads
  exact ⟨plain, Option.some.inj leads⟩

/-- **From the module itself.** The anchored path leads to the same place from every module, unless
it goes on climbing. -/
theorem anchor_self_leadsTo {rest tail : List String} {place : Place}
    (above : IsPlain module.segments)
    (settled : ∀ name ∈ (rest ++ tail).head?, ¬ IsRelative name)
    (leads : module.place? children false ("self" :: (rest ++ tail)) = some place) :
    LeadsTo false (module.anchor children ("self" :: rest) ++ tail) place := by
  rw [place?_relative (.inl rfl)] at leads
  obtain ⟨segments, climbed, rfl⟩ := Option.map_eq_some_iff.mp leads
  change module.climb? (rest ++ tail) = some segments at climbed
  rw [climb?_of_settled settled] at climbed
  split at climbed
  next plain =>
    cases climbed
    rw [anchor_self, List.append_assoc]
    exact crate_leadsTo above plain
  next => cases climbed

/-- **From above.** The anchored path leads to the same place from every module, unless it climbs
again behind its first steps. -/
theorem anchor_super_leadsTo {rest tail : List String} {place : Place}
    (above : IsPlain module.segments)
    (settled : ∀ name ∈ (("super" :: rest).dropWhile (· == "super") ++ tail).head?,
      ¬ IsRelative name)
    (leads : module.place? children false ("super" :: rest ++ tail) = some place) :
    LeadsTo false (module.anchor children ("super" :: rest) ++ tail) place := by
  rw [List.cons_append, place?_relative (.inr rfl), ← List.cons_append] at leads
  obtain ⟨segments, climbed, rfl⟩ := Option.map_eq_some_iff.mp leads
  -- The path climbs to the same module as the anchored path starts at.
  rw [climb?_supers] at climbed
  obtain ⟨base, up, climbed⟩ := Option.bind_eq_some_iff.mp climbed
  rw [climb?_of_settled settled] at climbed
  split at climbed
  next plain =>
    cases climbed
    have aboveBase : IsPlain base.segments :=
      fun name listed => above name ((ancestor?_leads_above up).subset listed)
    rw [anchor_super, up, List.append_assoc]
    exact crate_leadsTo aboveBase plain
  next => cases climbed

/-- **From a child or from outside.** The anchored path leads to the same place from every module.
-/
theorem anchor_absolute_leadsTo {first : String} {rest tail : List String} {place : Place}
    (above : IsPlain module.segments) (absolute : ¬ IsRelative first)
    (leads : module.place? children false (first :: (rest ++ tail)) = some place) :
    LeadsTo false (module.anchor children (first :: rest) ++ tail) place := by
  have plain : IsPlain (first :: (rest ++ tail)) :=
    isPlain_of_place? (fun name listed => by cases listed; exact absolute) leads
  rw [anchor_of_not_isRelative absolute]
  by_cases child : first ∈ children
  · rw [place?_child absolute (isPlain_cons.mp plain).2 child] at leads
    rw [if_pos child, List.append_assoc, ← Option.some.inj leads]
    exact crate_leadsTo above plain
  · have free (name : String) (listed : name ∈ (first :: (rest ++ tail)).head?) :
        name ∉ children := by
      cases listed
      exact child
    rw [place?_of_isPlain plain fun _ => free] at leads
    rw [if_neg child]
    exact ⟨plain, Option.some.inj leads⟩

/-- **An anchored path is plain and leads to the same place,** if nothing relative follows the
beginning that was replaced. -/
theorem anchor_leadsTo {path tail : List String} {place : Place}
    (above : IsPlain module.segments)
    (settled : ∀ name ∈ (afterBeginning path ++ tail).head?, ¬ IsRelative name)
    (below : path = [] → ∀ name ∈ tail, name ∉ children)
    (leads : module.place? children false (path ++ tail) = some place) :
    LeadsTo false (module.anchor children path ++ tail) place := by
  cases path with
  | nil => exact anchor_nil_leadsTo settled (below rfl) leads
  | cons first rest =>
      by_cases relative : IsRelative first
      · obtain rfl | rfl := relative
        · rw [afterBeginning_self] at settled
          exact anchor_self_leadsTo above settled leads
        · rw [afterBeginning_super] at settled
          exact anchor_super_leadsTo above settled leads
      · exact anchor_absolute_leadsTo above relative leads

end ModulePath

/-! ## Imports of single names -/

def ImportedName.IsSelf (imported : ImportedName) : Prop :=
  imported.segments = ["self"]

instance (imported : ImportedName) : Decidable imported.IsSelf :=
  inferInstanceAs (Decidable (_ = _))

/-- A leaf adds one name to its path, or none. -/
theorem ImportedName.leafSegments_cases (imported : ImportedName) :
    imported.leafSegments = [] ∨ ∃ name, imported.leafSegments = [name] ∧ name ≠ "self" := by
  have single (outer : String) :
      [outer].filter (· ≠ "self") = [] ∨
        ∃ name, [outer].filter (· ≠ "self") = [name] ∧ name ≠ "self" := by
    by_cases self : outer = "self"
    · exact .inl (by simp [self])
    · exact .inr ⟨outer, by simp [self], self⟩
  cases imported with
  | name outer => exact single outer
  | renamed outer newName => exact single outer
  | glob => exact .inl rfl

namespace Import

variable {module : ModulePath} {children : List String} {leading : Bool}
  {leaf : List String × ImportedName} {anchored : Import}

/-- The import of a leaf, which ends with what the leaf adds to its path. -/
theorem ofLeaf?_eq_some {conditions : String} {path : List String} {imported : ImportedName}
    (made : ofLeaf? conditions leading path imported = some anchored) :
    anchored.leading = leading ∧ anchored.fullPath = path ++ imported.leafSegments ∧
      anchored.imported.item = imported.item := by
  have folded {name : String} (last : path.getLast? = some name) :
      path.dropLast ++ [name] = path := by
    obtain ⟨before, rfl⟩ := List.getLast?_eq_some_iff.mp last
    rw [List.dropLast_concat]
  unfold ofLeaf? at made
  split at made
  · obtain ⟨name, last, rfl⟩ := Option.map_eq_some_iff.mp made
    exact ⟨rfl, (folded last).trans (List.append_nil path).symm, rfl⟩
  · obtain ⟨name, last, rfl⟩ := Option.map_eq_some_iff.mp made
    exact ⟨rfl, (folded last).trans (List.append_nil path).symm, rfl⟩
  next notName notRenamed =>
    cases made
    refine ⟨rfl, congrArg (path ++ ·) ?_, rfl⟩
    cases imported with
    | name outer =>
        have other : outer ≠ "self" := fun same => notName (by rw [same])
        simp [ImportedName.leafSegments, ImportedName.segments, other]
    | renamed outer newName =>
        have other : outer ≠ "self" := fun same => notRenamed newName (by rw [same])
        simp [ImportedName.leafSegments, ImportedName.segments, other]
    | glob => rfl

/-- Only a leaf `self` with nothing before it has no import. -/
theorem ofLeaf?_eq_none_iff {conditions : String} {path : List String}
    {imported : ImportedName} :
    ofLeaf? conditions leading path imported = none ↔ path = [] ∧ imported.IsSelf := by
  unfold ofLeaf?
  split
  · simp [ImportedName.IsSelf, ImportedName.segments]
  · simp [ImportedName.IsSelf, ImportedName.segments]
  next notName notRenamed =>
    simp only [reduceCtorEq, false_iff, not_and]
    intro _ self
    cases imported with
    | name outer => exact notName (by rw [List.singleton_inj.mp self])
    | renamed outer newName => exact notRenamed newName (by rw [List.singleton_inj.mp self])
    | glob => cases self

/-- Its line names the item in every module that has no child module of the name that the path
starts with. -/
def NamesEverywhere (anchored : Import) (item : ImportedItem) : Prop :=
  ∀ host others, (anchored.leading = false → ∀ first ∈ anchored.fullPath.head?, first ∉ others) →
    anchored.item? host others = some item

/-- What an import has to do with the leaf that it was made of, if that names something. -/
structure Anchors (module : ModulePath) (children : List String) (leading : Bool)
    (leaf : List String × ImportedName) (anchored : Import) : Prop where
  everywhere : ∀ item, leafItem? module children leading leaf = some item →
    (anchored.NamesEverywhere item ↔ IsAnchorable children leading leaf)
  plain : ∀ item, leafItem? module children leading leaf = some item →
    IsAnchorable children leading leaf → IsPlain anchored.fullPath
  absolute : ∀ item, leafItem? module children leading leaf = some item →
    IsAnchorable children leading leaf → leading = false →
    ∀ first ∈ (leaf.1 ++ leaf.2.leafSegments).head?, IsRelative first ∨ first ∈ children →
      anchored.leading = false ∧ anchored.fullPath.head? = some "crate"

/-- The path before the imported name, as it is written in the import of a leaf. -/
def anchoredPath (module : ModulePath) (children : List String) (leading : Bool)
    (path : List String) : List String :=
  if leading then path else module.anchor children path

/-- A leaf that can be anchored leads to the same place from every module. -/
theorem anchoredPath_leadsTo {place : Place} (plain : IsPlain module.segments)
    (leads : module.place? children leading (leaf.1 ++ leaf.2.leafSegments) = some place)
    (anchorable : IsAnchorable children leading leaf) :
    LeadsTo leading (anchoredPath module children leading leaf.1 ++ leaf.2.leafSegments) place := by
  cases leading with
  | false => exact ModulePath.anchor_leadsTo plain anchorable.settled (anchorable.below rfl) leads
  | true =>
      simp only [ModulePath.place?, ↓reduceIte] at leads
      split at leads
      next plainPath => exact ⟨plainPath, Option.some.inj leads⟩
      next => cases leads

/-- An import of a plain path names the same item from every module. -/
theorem namesEverywhere_of_isPlain (plain : IsPlain anchored.fullPath) :
    anchored.NamesEverywhere
      (anchored.imported.item (.ofPlain anchored.leading anchored.fullPath)) := by
  intro host others free
  rw [item?, ModulePath.place?_of_isPlain plain free, Option.map_some]

/-! ## Leaves that cannot be anchored -/

/-- A path that climbs below the root leads nowhere. -/
theorem place?_crate_eq_none {rest : List String} (entangled : ¬ IsPlain rest) :
    module.place? children false ("crate" :: rest) = none := by
  simp [ModulePath.place?, not_isRelative_crate, entangled]

/-- A second name to climb by is left behind the names of a module. -/
theorem exists_anchor_of_unsettled {path tail : List String} {place : Place} {name : String}
    (nonempty : path ≠ []) (next : name ∈ (afterBeginning path ++ tail).head?)
    (relative : IsRelative name)
    (leads : module.place? children false (path ++ tail) = some place) :
    ∃ rest, module.anchor children path ++ tail = "crate" :: rest ∧ ¬ IsPlain rest := by
  have entangled (base : List String) : ¬ IsPlain (base ++ (afterBeginning path ++ tail)) := by
    intro plain
    exact plain name (List.mem_append_right _ (List.mem_of_mem_head? next)) relative
  cases path with
  | nil => exact absurd rfl nonempty
  | cons first rest =>
      by_cases climbs : IsRelative first
      · obtain rfl | rfl := climbs
        · exact ⟨_, List.append_assoc ("crate" :: module.segments) .., entangled module.segments⟩
        · rw [List.cons_append, ModulePath.place?_relative (.inr rfl), ← List.cons_append,
            ModulePath.climb?_supers] at leads
          obtain ⟨segments, climbed, -⟩ := Option.map_eq_some_iff.mp leads
          obtain ⟨base, up, -⟩ := Option.bind_eq_some_iff.mp climbed
          rw [ModulePath.anchor_super, up]
          exact ⟨_, List.append_assoc ("crate" :: base.segments) .., entangled base.segments⟩
      · -- The beginning is empty, so the path itself would have to be relative.
        have notSelf : first ≠ "self" := fun same => climbs (.inl same)
        have notSuper : first ≠ "super" := fun same => climbs (.inr same)
        simp only [afterBeginning, notSelf, ↓reduceIte, List.dropWhile_cons, beq_iff_eq, notSuper,
          List.cons_append, List.head?_cons, Option.mem_some_iff] at next
        exact absurd (next ▸ relative) climbs

/-- An imported `super` names another module elsewhere. -/
theorem place?_super_ne {place : Place}
    (leads : module.place? children false ["super"] = some place) :
    (module.child "inner").place? [] false ["super"] ≠ some place := by
  have relative : IsRelative "super" := .inr rfl
  rw [ModulePath.place?_relative relative] at leads ⊢
  obtain ⟨segments, climbed, rfl⟩ := Option.map_eq_some_iff.mp leads
  obtain ⟨above, parent, same⟩ := Option.bind_eq_some_iff.mp climbed
  unfold ModulePath.parent? at parent
  split at parent
  · cases parent
  next below =>
    cases parent
    cases same
    intro again
    have inner : (module.child "inner").climb? ["super"] = some module.segments := by
      simp [ModulePath.climb?, ModulePath.child, ModulePath.parent?, ModulePath.isRoot]
    rw [inner] at again
    have length := congrArg List.length (Place.inside.inj (Option.some.inj again))
    have some_ : module.segments ≠ [] := fun empty => below (List.isEmpty_iff.mpr empty)
    have positive := List.length_pos_iff.mpr some_
    change module.segments.length = module.segments.dropLast.length at length
    rw [List.length_dropLast] at length
    omega

/-- An imported child module is outside elsewhere. -/
theorem place?_child_ne {name : String} {place : Place} (absolute : ¬ IsRelative name)
    (child : name ∈ children) (leads : module.place? children false [name] = some place) :
    ModulePath.root.place? [] false [name] ≠ some place := by
  have plain : IsPlain [name] := isPlain_cons.mpr ⟨absolute, by simp [IsPlain]⟩
  rw [ModulePath.place?_child absolute (by simp [IsPlain]) child] at leads
  rw [ModulePath.place?_of_isPlain plain fun _ _ _ => List.not_mem_nil, ← leads]
  intro same
  have places := Option.some.inj same
  unfold Place.ofPlain at places
  split at places
  next names =>
    cases names
    have length := congrArg List.length (Place.inside.inj places)
    simp at length
  next => cases places

/-! ## Leaves and their imports -/

/-- What a leaf names lies where its path leads. -/
theorem place?_of_leafItem? {item : ImportedItem}
    (names : leafItem? module children leading leaf = some item) :
    ∃ place, module.place? children leading (leaf.1 ++ leaf.2.leafSegments) = some place ∧
      leaf.2.item place = item :=
  Option.map_eq_some_iff.mp names

/-- Different places are different items. -/
theorem item_injective (imported : ImportedName) : Function.Injective imported.item :=
  fun _ _ same => congrArg ImportedItem.place same

/-- An import that names an item from everywhere leads to its place from every module. -/
theorem NamesEverywhere.place?_eq {conditions : String} {place : Place}
    (made : ofLeaf? conditions leading (anchoredPath module children leading leaf.1) leaf.2 =
      some anchored)
    (everywhere : anchored.NamesEverywhere (leaf.2.item place)) (host : ModulePath) :
    host.place? [] leading (anchoredPath module children leading leaf.1 ++ leaf.2.leafSegments) =
      some place := by
  obtain ⟨sameLeading, fullPath, sameItem⟩ := ofLeaf?_eq_some made
  have named := everywhere host [] fun _ _ _ => List.not_mem_nil
  rw [item?, sameLeading, fullPath, sameItem] at named
  obtain ⟨there, leads, same⟩ := Option.map_eq_some_iff.mp named
  rw [leads, item_injective leaf.2 same]

/-- A path under a double colon leads somewhere only if it is plain. -/
theorem isAnchorable_leading {place : Place}
    (leads : module.place? children true (leaf.1 ++ leaf.2.leafSegments) = some place) :
    IsAnchorable children true leaf := by
  have plain : IsPlain (leaf.1 ++ leaf.2.leafSegments) := by
    by_contra entangled
    simp [ModulePath.place?, entangled] at leads
  refine ⟨fun name next => plain name ?_, fun contrary => nomatch contrary⟩
  obtain here | there := List.mem_append.mp (List.mem_of_mem_head? next)
  · exact List.mem_append_left _ ((afterBeginning_suffix leaf.1).subset here)
  · exact List.mem_append_right _ there

/-- A name that is imported without a path stays as it is, so it has to mean the same everywhere. -/
theorem isAnchorable_sole {imported : ImportedName} {place : Place}
    (leads : module.place? children false imported.leafSegments = some place)
    (anywhere : ∀ host : ModulePath,
      host.place? [] false imported.leafSegments = some place) :
    IsAnchorable children false ([], imported) := by
  obtain none_ | ⟨sole, segments, notSelf⟩ := imported.leafSegments_cases
  · constructor <;> simp [none_, afterBeginning]
  · rw [segments] at leads anywhere
    -- A `super` leads elsewhere from a module below, a child module nowhere from the root.
    have notSuper : sole ≠ "super" := by
      rintro rfl
      exact place?_super_ne leads (anywhere (module.child "inner"))
    have absolute : ¬ IsRelative sole := not_or.mpr ⟨notSelf, notSuper⟩
    have notChild : sole ∉ children := fun child =>
      place?_child_ne absolute child leads (anywhere .root)
    constructor
    · simpa [segments, afterBeginning] using absolute
    · simpa [segments] using notChild

/-- Behind a path that leads on from the root, everything has to be plain. -/
theorem isAnchorable_path {place : Place} (nonempty : leaf.1 ≠ [])
    (leads : module.place? children false (leaf.1 ++ leaf.2.leafSegments) = some place)
    (anywhere : ∀ host : ModulePath, host.place? [] false
      (module.anchor children leaf.1 ++ leaf.2.leafSegments) = some place) :
    IsAnchorable children false leaf := by
  refine ⟨fun name next relative => ?_, fun _ empty => absurd empty nonempty⟩
  obtain ⟨rest, anchoredAs, entangled⟩ := exists_anchor_of_unsettled nonempty next relative leads
  have here := anywhere .root
  rw [anchoredAs, place?_crate_eq_none entangled] at here
  cases here

/-- Only a leaf that can be anchored is imported for every module. -/
theorem isAnchorable_of_namesEverywhere {conditions : String} {item : ImportedItem}
    (made : ofLeaf? conditions leading (anchoredPath module children leading leaf.1) leaf.2 =
      some anchored)
    (names : leafItem? module children leading leaf = some item)
    (everywhere : anchored.NamesEverywhere item) : IsAnchorable children leading leaf := by
  obtain ⟨place, leads, rfl⟩ := place?_of_leafItem? names
  have anywhere := everywhere.place?_eq made
  cases leading with
  | true => exact isAnchorable_leading leads
  | false =>
      by_cases empty : leaf.1 = []
      · obtain ⟨path, imported⟩ := leaf
        subst empty
        exact isAnchorable_sole leads anywhere
      · exact isAnchorable_path empty leads anywhere

/-- A path that is relative, or begins with a child, leads to a place inside the crate. -/
theorem exists_inside {first : String} {rest : List String} {place : Place}
    (near : IsRelative first ∨ first ∈ children)
    (leads : module.place? children false (first :: rest) = some place) :
    ∃ path, place = .inside path := by
  by_cases relative : IsRelative first
  · rw [ModulePath.place?_relative relative] at leads
    obtain ⟨path, -, same⟩ := Option.map_eq_some_iff.mp leads
    exact ⟨path, same.symm⟩
  · have child := near.resolve_left relative
    by_cases plain : IsPlain rest
    · rw [ModulePath.place?_child relative plain child] at leads
      exact ⟨_, (Option.some.inj leads).symm⟩
    · simp [ModulePath.place?, relative, plain] at leads

/-- A plain path to a place inside the crate begins at the root. -/
theorem head?_of_inside {path inside : List String}
    (same : Place.ofPlain false path = .inside inside) : path.head? = some "crate" := by
  unfold Place.ofPlain at same
  split at same
  · rfl
  · cases same

/-- **Imports and their leaves.** The import of a leaf names the same item in every module exactly
if the leaf is anchorable, and then no relative name is left in its path. -/
theorem anchors_of_ofLeaf? {conditions : String} (plain : IsPlain module.segments)
    (made : ofLeaf? conditions leading (anchoredPath module children leading leaf.1) leaf.2 =
      some anchored) : Anchors module children leading leaf anchored := by
  obtain ⟨sameLeading, fullPath, sameItem⟩ := ofLeaf?_eq_some made
  refine ⟨fun item names => ⟨isAnchorable_of_namesEverywhere made names, fun anchorable => ?_⟩,
    fun item names anchorable => ?_, fun item names anchorable root first listed near => ?_⟩
  · obtain ⟨place, leads, rfl⟩ := place?_of_leafItem? names
    obtain ⟨plainPath, same⟩ := anchoredPath_leadsTo plain leads anchorable
    rw [← fullPath] at plainPath same
    have everywhere := namesEverywhere_of_isPlain plainPath
    rwa [sameLeading, same, sameItem] at everywhere
  · obtain ⟨place, leads, rfl⟩ := place?_of_leafItem? names
    rw [fullPath]
    exact (anchoredPath_leadsTo plain leads anchorable).1
  · obtain ⟨place, leads, rfl⟩ := place?_of_leafItem? names
    obtain ⟨-, same⟩ := anchoredPath_leadsTo plain leads anchorable
    subst root
    obtain ⟨rest, path⟩ := List.head?_eq_some_iff.mp listed
    rw [path] at leads
    obtain ⟨inside, rfl⟩ := exists_inside near leads
    exact ⟨sameLeading, fullPath ▸ head?_of_inside same⟩

/-- What is kept of a list is related to what is made of it. -/
theorem forall₂_filterMap {R : α → β → Prop} {f : α → Option β} {keep : α → Bool}
    (kept : ∀ value, keep value = false ↔ f value = none)
    (made : ∀ value result, f value = some result → R value result) (values : List α) :
    List.Forall₂ R (values.filter keep) (values.filterMap f) := by
  induction values with
  | nil => exact .nil
  | cons value rest ih =>
      cases result : f value with
      | none =>
          rw [List.filterMap_cons_none result, List.filter_cons_of_neg (by simp [kept, result])]
          exact ih
      | some result' =>
          have keeps : keep value = true := by
            by_contra drops
            rw [Bool.not_eq_true, kept, result] at drops
            cases drops
          rw [List.filterMap_cons_some result, List.filter_cons_of_pos keeps]
          exact .cons (made value result' result) ih

/-- A leading sign changes nothing about an empty path. -/
theorem anchoredPath_eq_nil_iff {path : List String} :
    anchoredPath module children leading path = [] ↔ path = [] := by
  unfold anchoredPath
  split
  · rfl
  · exact ModulePath.anchor_eq_nil_iff

/-- An import item stands for one import for each leaf of its tree, in order, but for a leaf `self`
with nothing before it. -/
theorem forall₂_ofUse {item : UseItem} {R : List String × ImportedName → Import → Prop}
    (made : ∀ leaf anchored, ofLeaf? (conditionsOf item.attributes) item.leading
      (anchoredPath module children item.leading leaf.1) leaf.2 = some anchored → R leaf anchored) :
    List.Forall₂ R
      ((item.tree.leaves []).filter fun leaf => !decide (leaf.1 = [] ∧ leaf.2.IsSelf))
      (ofUse item module children) := by
  refine forall₂_filterMap (fun leaf => ?_) made _
  rw [ofLeaf?_eq_none_iff, anchoredPath_eq_nil_iff, Bool.not_eq_false', decide_eq_true_eq]

/-- **Anchored imports name the same items.** An import item stands for one import for each leaf of
its tree, in order, but for a leaf `self` with nothing before it. If the leaf names something in the
declaring module, the import names the same in every module without a child that its path starts
with, exactly if the leaf is anchorable. Then no `self` or `super` is in its path, and it starts at
the root if the leaf started at `self`, `super` or a child module. -/
theorem ofUse_anchors (item : UseItem) (module : ModulePath) (children : List String)
    (plain : IsPlain module.segments) :
    (∀ path imported, (path, imported) ∈ item.tree.leaves [] ↔ item.tree.HasLeaf path imported) ∧
      List.Forall₂ (Anchors module children item.leading)
        ((item.tree.leaves []).filter fun leaf => !decide (leaf.1 = [] ∧ leaf.2.IsSelf))
        (ofUse item module children) := by
  constructor
  · intro path imported
    simp [UseTree.mem_leaves_iff]
  · exact forall₂_ofUse fun leaf anchored made => anchors_of_ofLeaf? plain made

def statesModule : ModulePath := ⟨["states"]⟩

/-- Imports of the module above, from it, from a child module and from outside. -/
def nestedUse : UseItem :=
  ⟨[], .inherited, false,
    .group [.path "super" (.group [.rename "self" "top", .path "time" (.name "Clock")] false),
      .path "idle" (.name "Idle"), .path "glam" .glob] false⟩

/-- Imports from the module itself, from above, from a child and from another crate. -/
theorem ofUse_anchors_nestedUse :
    IsPlain statesModule.segments ∧
      List.Forall₂ NamesEverywhere (ofUse nestedUse statesModule ["idle"])
        [⟨.inside [], false, some "top"⟩, ⟨.inside ["time", "Clock"], false, none⟩,
          ⟨.inside ["states", "idle", "Idle"], false, none⟩, ⟨.outside false ["glam"], true, none⟩] := by
  have plain : IsPlain statesModule.segments := by decide
  obtain ⟨-, anchors⟩ := ofUse_anchors nestedUse statesModule ["idle"] plain
  obtain _ | ⟨top, _ | ⟨clock, _ | ⟨idle, _ | ⟨glam, rest⟩⟩⟩⟩ := anchors
  cases rest
  refine ⟨plain, .cons ?_ (.cons ?_ (.cons ?_ (.cons ?_ .nil)))⟩
  · exact (top.everywhere _ rfl).mpr (by decide)
  · exact (clock.everywhere _ rfl).mpr (by decide)
  · exact (idle.everywhere _ rfl).mpr (by decide)
  · exact (glam.everywhere _ rfl).mpr (by decide)

/-- An import that climbs behind `self`, and an import of a child module itself. -/
def strayUse : UseItem :=
  ⟨[], .inherited, false,
    .group [.path "self" (.path "super" (.name "Clock")), .rename "idle" "Still"] false⟩

/-- Both name something in the declaring module, but their imports do not name it in the root. -/
theorem ofUse_misplaces :
    strayUse.tree.leaves [] = [(["self", "super"], .name "Clock"), ([], .renamed "idle" "Still")] ∧
      leafItem? statesModule ["idle"] false (["self", "super"], .name "Clock") =
        some ⟨.inside ["Clock"], false, none⟩ ∧
      leafItem? statesModule ["idle"] false ([], .renamed "idle" "Still") =
        some ⟨.inside ["states", "idle"], false, some "Still"⟩ ∧
      (ofUse strayUse statesModule ["idle"]).map line =
        ["use crate::states::super::Clock;", "use idle as Still;"] ∧
      (ofUse strayUse statesModule ["idle"]).map (·.item? .root []) =
        [none, some ⟨.outside false ["idle"], false, some "Still"⟩] :=
  ⟨rfl, rfl, rfl, by decide +kernel, rfl⟩

end Import

end VariantMerge
