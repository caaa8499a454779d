import VariantMerge.Proofs.Scan.TraitChanges

/-!
# Attributes of trait declarations

The attributes in front of a trait decide whether it is an interface, and nothing else. Two lists of
units that differ only in such attributes are discovered alike: `ScanResult.ofUnits_agrees` says
that they declare the same structs with the same claims, the same modules, and the same traits but
for their attributes.
-/

namespace VariantMerge

/-! ## Declarations without attributes on traits -/

/-- The trait without its attributes. -/
def TraitItem.bare (item : TraitItem) : TraitItem :=
  { item with attributes := [] }

mutual

/-- The item with no attributes on any trait. -/
def Item.bare : Item → Item
  | .trait item => .trait item.bare
  | .module head (.some items) => .module head (.some (itemsBare items))
  | item => item

def itemsBare : List Item → List Item
  | [] => []
  | item :: rest => item.bare :: itemsBare rest

end

/-- The unit with no attributes on any trait. -/
def SourceUnit.bare (unit : SourceUnit) : SourceUnit :=
  { unit with items := itemsBare unit.items }

def TraitDecl.bare (decl : TraitDecl) : TraitDecl :=
  { decl with item := decl.item.bare }

mutual

theorem Item.bare_eq : (item : Item) → item.bare = item.mapTraits TraitItem.bare
  | .trait _ => rfl
  | .struct _ => rfl
  | .impl _ => rfl
  | .use _ => rfl
  | .module _ .none => rfl
  | .module head (.some items) => by rw [Item.bare, Item.mapTraits, itemsBare_eq]
  | .other _ => rfl

theorem itemsBare_eq : (items : List Item) →
    itemsBare items = Item.mapTraitsOfAll TraitItem.bare items
  | [] => rfl
  | item :: rest => by rw [itemsBare, Item.mapTraitsOfAll, item.bare_eq, itemsBare_eq]

end

theorem SourceUnit.bare_eq : SourceUnit.bare = SourceUnit.mapTraits TraitItem.bare := by
  funext unit
  rw [bare, itemsBare_eq, mapTraits]

namespace ScanResult

/-! ## Scans that agree -/

/-- Two scans with the same structs and modules, and the same traits but for their attributes. -/
structure Agrees (scan other : ScanResult) : Prop where
  structs : scan.structs = other.structs
  modules : scan.modules = other.modules
  traits : scan.traits.map TraitDecl.bare = other.traits.map TraitDecl.bare

namespace Agrees

variable {scan other : ScanResult}

theorem module?_eq (agrees : Agrees scan other) : scan.module? = other.module? := by
  funext path
  rw [module?, module?, agrees.modules]

/-- The trait of a name is the same in both scans but for its attributes. -/
theorem findTrait_bare (agrees : Agrees scan other) (name : String) :
    (scan.findTrait name).map TraitDecl.bare = (other.findTrait name).map TraitDecl.bare := by
  have found (scan : ScanResult) : (scan.findTrait name).map TraitDecl.bare =
      (scan.traits.map TraitDecl.bare).find? (·.name == name) := by
    rw [List.find?_map]
    rfl
  rw [found, found, agrees.traits]

end Agrees

/-- **Attributes of traits matter to nothing else.** Two lists of units that differ only in these
are scanned alike. -/
theorem ofUnits_agrees (marker : String) {units others : List SourceUnit}
    (same : units.map SourceUnit.bare = others.map SourceUnit.bare) :
    Agrees (ofUnits marker units) (ofUnits marker others) := by
  rw [SourceUnit.bare_eq] at same
  have scans := congrArg (ofUnits marker) same
  rw [ofUnits_mapTraits, ofUnits_mapTraits] at scans
  obtain ⟨-, traits, structs, modules⟩ := mk.inj scans
  exact ⟨structs, modules, traits⟩

end ScanResult

end VariantMerge
