import Mathlib.Data.List.Forall2
import VariantMerge.Expansion
import VariantMerge.Proofs.Scan.Declared
import VariantMerge.Proofs.Scan.TraitChanges

/-!
# Stripped items

Stripping takes the marker from traits, the property mark from their methods and the output mark from
typed parameters, at any depth of modules, and leaves everything else (`Item.Unmarked`). These are the
positions that are looked at when traits are scanned and members are collected, and there none of the
marks is left (`TraitItem.IsUnmarked`). A scan of what remains finds no interface, and the same
declarations otherwise (`strippedItems_scan`).
-/

namespace VariantMerge

/-! ## Lost marks -/

/-- The attributes of a name are lost, and no others. -/
inductive Attribute.Lose (name : String) : List Attribute → List Attribute → Prop
  | nil : Lose name [] []
  | lost {attr : Attribute} {before after : List Attribute} :
      attr.isNamed name = true → Lose name before after → Lose name (attr :: before) after
  | kept {attr : Attribute} {before after : List Attribute} :
      attr.isNamed name = false → Lose name before after → Lose name (attr :: before) (attr :: after)

/-- A typed parameter loses its output mark. -/
inductive FnInput.Unmarked : FnInput → FnInput → Prop
  | receiver {self : Receiver} : Unmarked (.receiver self) (.receiver self)
  | typed {attributes others : List Attribute} {pattern : Pattern} {ty : Ty} :
      Attribute.Lose Param.outMark attributes others →
      Unmarked (.typed attributes pattern ty) (.typed others pattern ty)

/-- A method loses its property mark, and its parameters their output marks. -/
inductive TraitEntry.Unmarked : TraitEntry → TraitEntry → Prop
  | method {attributes others : List Attribute} {signature : Signature} {inputs : List FnInput}
      {body : Option (List Token)} :
      Attribute.Lose Property.mark attributes others →
      List.Forall₂ FnInput.Unmarked signature.inputs inputs →
      Unmarked (.method attributes signature body)
        (.method others { signature with inputs := inputs } body)
  | assocType {name : String} {tokens : List Token} :
      Unmarked (.assocType name tokens) (.assocType name tokens)
  | assocConst {name : String} {tokens : List Token} :
      Unmarked (.assocConst name tokens) (.assocConst name tokens)
  | other {tokens : List Token} : Unmarked (.other tokens) (.other tokens)

/-- A trait loses its marker and the marks of its entries. -/
inductive TraitItem.Unmarked (marker : String) : TraitItem → TraitItem → Prop
  | trait {item : TraitItem} {attributes : List Attribute} {entries : List TraitEntry} :
      Attribute.Lose marker item.attributes attributes →
      List.Forall₂ TraitEntry.Unmarked item.entries entries →
      Unmarked marker item { item with attributes := attributes, entries := entries }

/-- Traits lose their marks, at any depth of modules. Other items stay as they are. -/
inductive Item.Unmarked (marker : String) : Item → Item → Prop
  | trait {item other : TraitItem} :
      TraitItem.Unmarked marker item other → Unmarked marker (.trait item) (.trait other)
  | module {head : ModuleHead} {items others : List Item} :
      List.Forall₂ (Unmarked marker) items others →
      Unmarked marker (.module head (some items)) (.module head (some others))
  | file {head : ModuleHead} : Unmarked marker (.module head none) (.module head none)
  | struct {item : StructItem} : Unmarked marker (.struct item) (.struct item)
  | impl {item : ImplItem} : Unmarked marker (.impl item) (.impl item)
  | use {item : UseItem} : Unmarked marker (.use item) (.use item)
  | other {tokens : List Token} : Unmarked marker (.other tokens) (.other tokens)

/-- A declared trait loses its marks and stays in its module. -/
def TraitDecl.Unmarked (marker : String) (decl other : TraitDecl) : Prop :=
  decl.module = other.module ∧ TraitItem.Unmarked marker decl.item other.item

/-- No mark is left where the scan or the collection of members looks for it. -/
structure TraitItem.IsUnmarked (marker : String) (item : TraitItem) : Prop where
  marker : Attribute.anyNamed item.attributes marker = false
  methods : ∀ attributes signature body, .method attributes signature body ∈ item.entries →
    Attribute.anyNamed attributes Property.mark = false
  parameters : ∀ attributes signature body, .method attributes signature body ∈ item.entries →
    ∀ others pattern ty, .typed others pattern ty ∈ signature.inputs →
      Attribute.anyNamed others Param.outMark = false

/-! ## One trait -/

namespace Attribute

/-- Taking attributes away loses those with the name, and no other. -/
theorem lose_without (name : String) (attributes : List Attribute) :
    Lose name attributes (without name attributes) := by
  induction attributes with
  | nil => exact .nil
  | cons attr rest ih =>
      unfold without at ih ⊢
      cases named : attr.isNamed name with
      | true =>
          rw [List.filter_cons_of_neg (by simp [named])]
          exact .lost named ih
      | false =>
          rw [List.filter_cons_of_pos (by simp [named])]
          exact .kept named ih

/-- None is left with the name. -/
theorem anyNamed_without (name : String) (attributes : List Attribute) :
    anyNamed (without name attributes) name = false := by
  rw [anyNamed, without, List.any_filter]
  simp

/-- Taking them away again changes nothing. -/
theorem without_without (name : String) (attributes : List Attribute) :
    without name (without name attributes) = without name attributes := by
  rw [without, without, List.filter_filter]
  simp

end Attribute

/-- A parameter loses its markers only. -/
theorem FnInput.unmarked_stripped (input : FnInput) : Unmarked input input.stripped := by
  cases input with
  | receiver self => exact .receiver
  | typed attributes pattern ty => exact .typed (Attribute.lose_without _ _)

/-- Stripping a parameter again changes nothing. -/
theorem FnInput.stripped_stripped (input : FnInput) : input.stripped.stripped = input.stripped := by
  cases input with
  | receiver self => rfl
  | typed attributes pattern ty => rw [stripped, stripped, Attribute.without_without]

/-- An entry loses its markers only, and those of its parameters. -/
theorem TraitEntry.unmarked_stripped (entry : TraitEntry) : Unmarked entry entry.stripped := by
  cases entry with
  | method attributes signature body =>
      refine .method (Attribute.lose_without _ _) ?_
      rw [List.forall₂_map_right_iff]
      exact List.forall₂_same.mpr fun input _ => input.unmarked_stripped
  | assocType name tokens => exact .assocType
  | assocConst name tokens => exact .assocConst
  | other tokens => exact .other

/-- Stripping an entry again changes nothing. -/
theorem TraitEntry.stripped_stripped (entry : TraitEntry) :
    entry.stripped.stripped = entry.stripped := by
  cases entry with
  | method attributes signature body =>
      have inputs : FnInput.stripped ∘ FnInput.stripped = FnInput.stripped :=
        funext FnInput.stripped_stripped
      simp only [stripped, Attribute.without_without, List.map_map, inputs]
  | assocType name tokens => rfl
  | assocConst name tokens => rfl
  | other tokens => rfl

namespace TraitItem

/-- A trait loses its markers only, and those of its entries. -/
theorem unmarked_stripped (marker : String) (item : TraitItem) :
    Unmarked marker item (item.stripped marker) := by
  refine .trait (Attribute.lose_without _ _) ?_
  rw [List.forall₂_map_right_iff]
  exact List.forall₂_same.mpr fun entry _ => entry.unmarked_stripped

/-- Stripping a trait again changes nothing. -/
theorem stripped_stripped (marker : String) (item : TraitItem) :
    (item.stripped marker).stripped marker = item.stripped marker := by
  have entries : TraitEntry.stripped ∘ TraitEntry.stripped = TraitEntry.stripped :=
    funext TraitEntry.stripped_stripped
  simp only [stripped, Attribute.without_without, List.map_map, entries]

/-- No marker is left on a stripped trait. -/
theorem isUnmarked_stripped (marker : String) (item : TraitItem) :
    (item.stripped marker).IsUnmarked marker := by
  have method {attributes : List Attribute} {signature : Signature} {body : Option (List Token)}
      (listed : .method attributes signature body ∈ (item.stripped marker).entries) :
      (∃ before, attributes = Attribute.without Property.mark before) ∧
        ∃ before : List FnInput, signature.inputs = before.map FnInput.stripped := by
    obtain ⟨entry, -, same⟩ := List.mem_map.mp listed
    cases entry with
    | method before signature body =>
        cases same
        exact ⟨⟨_, rfl⟩, _, rfl⟩
    | assocType name tokens => cases same
    | assocConst name tokens => cases same
    | other tokens => cases same
  refine ⟨Attribute.anyNamed_without _ _, fun attributes signature body listed => ?_, ?_⟩
  · obtain ⟨⟨before, rfl⟩, -⟩ := method listed
    exact Attribute.anyNamed_without _ _
  · intro attributes signature body listed others pattern ty taken
    obtain ⟨-, before, inputs⟩ := method listed
    rw [inputs] at taken
    obtain ⟨input, -, same⟩ := List.mem_map.mp taken
    cases input with
    | receiver self => cases same
    | typed before pattern ty =>
        cases same
        exact Attribute.anyNamed_without _ _

end TraitItem

/-! ## Items -/

section

variable (marker : String)

mutual

/-- Stripping an item changes the traits in it. -/
theorem Item.stripped_eq : (item : Item) →
    item.stripped marker = item.mapTraits (TraitItem.stripped marker)
  | .trait _ => rfl
  | .struct _ => rfl
  | .impl _ => rfl
  | .use _ => rfl
  | .module _ .none => rfl
  | .module head (.some items) => by
    rw [Item.stripped, Item.mapTraits, strippedItems_eq]
  | .other _ => rfl

/-- Stripping items changes the traits in them. -/
theorem strippedItems_eq : (items : List Item) →
    strippedItems marker items = Item.mapTraitsOfAll (TraitItem.stripped marker) items
  | [] => rfl
  | item :: rest => by
    rw [strippedItems, Item.mapTraitsOfAll, item.stripped_eq, strippedItems_eq]

end

mutual

/-- An item loses nothing but markers, at any depth. -/
theorem Item.unmarked_stripped : (item : Item) → Item.Unmarked marker item (item.stripped marker)
  | .trait item => .trait (item.unmarked_stripped marker)
  | .module _ (.some items) => .module (unmarked_strippedItems items)
  | .module _ .none => .file
  | .struct _ => .struct
  | .impl _ => .impl
  | .use _ => .use
  | .other _ => .other

/-- So do the items of a list. -/
theorem unmarked_strippedItems : (items : List Item) →
    List.Forall₂ (Item.Unmarked marker) items (strippedItems marker items)
  | [] => .nil
  | item :: rest => .cons item.unmarked_stripped (unmarked_strippedItems rest)

end

/-- Nothing is left to be stripped. -/
theorem strippedItems_strippedItems (items : List Item) :
    strippedItems marker (strippedItems marker items) = strippedItems marker items := by
  have again : (fun item : TraitItem => (item.stripped marker).stripped marker) =
      TraitItem.stripped marker := funext (TraitItem.stripped_stripped marker)
  rw [strippedItems_eq, strippedItems_eq, Item.mapTraitsOfAll_mapTraitsOfAll, again]

end

/-- Traits that are declared among changed items were changed. -/
theorem Item.DeclaredAt.of_mapTraits {change : TraitItem → TraitItem} {items : List Item}
    {path : List String} {item : TraitItem}
    (declared : DeclaredAt (Item.mapTraitsOfAll change items) path (.trait item)) :
    ∃ before, item = change before := by
  generalize whole : Item.mapTraitsOfAll change items = changed at declared
  generalize trait_ : Item.trait item = found at declared
  induction declared generalizing items with
  | here listed =>
      rw [← whole, mapTraitsOfAll_eq_map, ← trait_] at listed
      obtain ⟨outer, -, same⟩ := List.mem_map.mp listed
      exact eq_change_of_mapTraits same
  | inside listed _ ih =>
      rw [← whole, mapTraitsOfAll_eq_map] at listed
      obtain ⟨outer, -, same⟩ := List.mem_map.mp listed
      obtain ⟨inner, within⟩ := eq_mapTraitsOfAll_of_mapTraits same
      exact ih within.symm trait_

/-- **Stripping agrees with scanning.** Stripped items have lost their marks and nothing else. Scanned
with the same marker, they hold no interface, but the same traits without their marks, the same structs
with the same claims, and the same modules with the same imports. No mark is left on any trait, at any
depth, and nothing is left to be stripped. -/
theorem strippedItems_scan (marker name : String) (module : ModulePath) (items : List Item) :
    let scan := ScanResult.ofUnits marker [⟨name, module, items⟩]
    let rest := ScanResult.ofUnits marker [⟨name, module, strippedItems marker items⟩]
    List.Forall₂ (Item.Unmarked marker) items (strippedItems marker items) ∧
      (rest.interfaces = [] ∧ List.Forall₂ (TraitDecl.Unmarked marker) scan.traits rest.traits ∧
        rest.structs = scan.structs ∧ rest.modules = scan.modules) ∧
      (∀ path item, Item.DeclaredAt (strippedItems marker items) path (.trait item) →
        item.IsUnmarked marker) ∧
      strippedItems marker (strippedItems marker items) = strippedItems marker items := by
  intro scan rest
  have same := ScanResult.ofUnits_mapTraits (TraitItem.stripped marker) marker
    [⟨name, module, items⟩]
  have stripped : rest = ScanResult.ofUnits marker ([⟨name, module, items⟩].map
      (SourceUnit.mapTraits (TraitItem.stripped marker))) := by
    rw [List.map_singleton, SourceUnit.mapTraits, ← strippedItems_eq]
  refine ⟨unmarked_strippedItems marker items, ?_, fun path item declared => ?_,
    strippedItems_strippedItems marker items⟩
  · rw [stripped, same]
    refine ⟨?_, ?_, rfl, rfl⟩
    · change List.filterMap _ (ScanResult.traitsOf _) = []
      rw [ScanResult.traitsOf_mapTraits, List.filterMap_map, List.filterMap_eq_nil_iff]
      intro decl _
      have unmarked := (decl.item.isUnmarked_stripped marker).marker
      have none_ : (decl.mapItem (TraitItem.stripped marker)).mark? marker = none :=
        List.find?_eq_none.mpr (List.any_eq_false.mp unmarked)
      exact Option.map_eq_none_iff.mpr none_
    · rw [List.forall₂_map_right_iff]
      exact List.forall₂_same.mpr fun decl _ => ⟨rfl, decl.item.unmarked_stripped marker⟩
  · rw [strippedItems_eq] at declared
    obtain ⟨before, rfl⟩ := declared.of_mapTraits
    exact before.isUnmarked_stripped marker

end VariantMerge
