import VariantMerge.Failure
import VariantMerge.Import
import VariantMerge.Log
import VariantMerge.Source

/-!
# Discovering declarations

The items of all units are laid out in one row, in the order in which they are discovered: those
of a module inside another one follow its declaration. Everything that a pass wants to know is
read off this row: the traits and which of them are marked, the structs with the traits that are
implemented for them, and the imports and child modules of each module. Traits are known by their
names alone; the type of an implementation is found from the module that holds it, among its own
structs first and then along its imports.
-/

namespace VariantMerge

/-- A source text with its declarations, at the module to which they belong. -/
structure SourceUnit where
  name : String
  module : ModulePath
  items : List Item

namespace SourceUnit

/-- Reads the declarations of a text. -/
def parse (name : String) (module : ModulePath) (text : String) : Except Failure SourceUnit :=
  match Source.parseFile text with
  | .ok items => .ok ⟨name, module, items⟩
  | .error problem => .error (.parse name problem.message)

end SourceUnit

/-- A step of discovery: a module that is entered, or an item of a module. -/
inductive Discovery where
  | entered (module : ModulePath)
  | found (module : ModulePath) (item : Item)

namespace Discovery

mutual

/-- An item, and the items of the module that it contains. -/
def ofItem (module : ModulePath) : Item → List Discovery
  | .module head (.some items) =>
    found module (.module head (.some items)) :: entered (module.child head.name) ::
      ofItems (module.child head.name) items
  | item => [found module item]

/-- The items of a module in order. -/
def ofItems (module : ModulePath) : List Item → List Discovery
  | [] => []
  | item :: rest => ofItem module item ++ ofItems module rest

end

/-- All items of a list of units. -/
def ofUnits (units : List SourceUnit) : List Discovery :=
  units.flatMap fun unit => entered unit.module :: ofItems unit.module unit.items

end Discovery

/-- A trait with the module that declares it. -/
structure TraitDecl where
  module : ModulePath
  item : TraitItem

namespace TraitDecl

def name (decl : TraitDecl) : String := decl.item.name

/-- The visibility as it is written. -/
def visibility (decl : TraitDecl) : String := Token.render decl.item.visibility.tokens

/-- The attribute that marks a trait as an interface: the first whose path ends in the marker. -/
def mark? (decl : TraitDecl) (marker : String) : Option Attribute :=
  decl.item.attributes.find? (·.isNamed marker)

/-- The names of the traits that the trait is bounded by, in order. -/
def parents (decl : TraitDecl) : List String :=
  decl.item.supertraits.filterMap fun bound =>
    match bound with
    | .trait _ _ _ path => path.names.getLast?
    | _ => none

end TraitDecl

/-- What a mark says besides that it is there. -/
inductive Payload where
  | absent
  | text (text : String)
  | notText
  deriving DecidableEq, Repr, Inhabited

namespace Payload

/-- The payload of a mark. -/
def ofAttribute (attr : Attribute) : Payload :=
  match attr.content with
  | .none => absent
  | .list _ trees =>
    match Source.parseTrees Source.stringLiteral trees with
    | .ok literal => ((Literal.stringValue? literal).map text).getD notText
    | .error _ => notText
  | .value _ literal => ((literal.bind Literal.stringValue?).map text).getD notText

/-- The text of a payload that has one. -/
def text? : Payload → Option String
  | text t => some t
  | _ => none

end Payload

/-- A marked trait. -/
structure Interface extends TraitDecl where
  payload : Payload

/-- A struct with the module that declares it, and the names of the traits that are implemented
for it, in order of discovery. -/
structure StructDecl where
  module : ModulePath
  item : StructItem
  claims : List String

namespace StructDecl

def name (decl : StructDecl) : String := decl.item.name

end StructDecl

/-- A trait implementation for a path: the module that holds it, the path and the trait's name. -/
structure Claim where
  module : ModulePath
  path : List String
  interface : String
  deriving DecidableEq, Repr

namespace Claim

/-- The claim that an implementation block makes. One without a trait, a negative one, and one
for anything but a plain path make none. -/
def ofImpl? (module : ModulePath) (item : ImplItem) : Option Claim :=
  match item.interface, item.selfTy with
  | some target, .path path =>
    if target.isNegative then none
    else target.path.names.getLast?.map fun name => ⟨module, path.names, name⟩
  | _, _ => none

end Claim

/-- The imports of a module and the names of the modules declared in it. -/
structure ModuleInfo where
  uses : List UseItem
  children : List String

namespace ModuleInfo

/-- The imports of single names, in order. -/
def imports (info : ModuleInfo) (module : ModulePath) : List Import :=
  info.uses.flatMap fun item => Import.ofUse item module info.children

end ModuleInfo

/-- All that was discovered, in order of discovery. -/
structure ScanResult where
  interfaces : List Interface
  traits : List TraitDecl
  structs : List StructDecl
  modules : List (ModulePath × ModuleInfo)

namespace ScanResult

/-! ## Reading off the row of discoveries -/

def traitsOf (row : List Discovery) : List TraitDecl :=
  row.filterMap fun step =>
    match step with
    | .found module (.trait item) => some ⟨module, item⟩
    | _ => none

def interfacesOf (marker : String) (row : List Discovery) : List Interface :=
  (traitsOf row).filterMap fun decl =>
    (decl.mark? marker).map fun attr => ⟨decl, Payload.ofAttribute attr⟩

def structsOf (row : List Discovery) : List StructDecl :=
  row.filterMap fun step =>
    match step with
    | .found module (.struct item) => some ⟨module, item, []⟩
    | _ => none

def claimsOf (row : List Discovery) : List Claim :=
  row.filterMap fun step =>
    match step with
    | .found module (.impl item) => Claim.ofImpl? module item
    | _ => none

/-- The imports and child modules of one module. -/
def infoOf (row : List Discovery) (module : ModulePath) : ModuleInfo where
  uses := row.filterMap fun step =>
    match step with
    | .found at_ (.use item) => if at_ = module then some item else none
    | _ => none
  children := row.filterMap fun step =>
    match step with
    | .found at_ (.module head _) => if at_ = module then some head.name else none
    | _ => none

/-- The modules that are entered, each where it is entered first. -/
def modulesOf (row : List Discovery) : List ModulePath :=
  (row.filterMap fun step =>
    match step with
    | .entered module => some module
    | .found _ _ => none).eraseDups

/-! ## Finding declarations -/

/-- The first trait of this name. -/
def findTrait (scan : ScanResult) (name : String) : Option TraitDecl :=
  scan.traits.find? (·.name == name)

def module? (scan : ScanResult) (path : ModulePath) : Option ModuleInfo :=
  scan.modules.lookup path

/-- The module and name that a path from the root leads to. Other paths leave the scanned
sources. -/
def absolute? (leading : Bool) (path : List String) : Option (ModulePath × String) :=
  match leading, path with
  | false, "crate" :: rest => rest.getLast?.map fun name => (⟨rest.dropLast⟩, name)
  | _, _ => none

/-- The struct that `name` means in a module: one of its own, else the one that its first import
of that name leads to, else, if there is no such import, the first that one of its imports of
everything leads to. At most `hops` imports are followed. -/
def resolveName (scan : ScanResult) : Nat → ModulePath → String → Option Nat
  | hops, module, name =>
    match scan.structs.findIdx? (fun decl => decl.module == module && decl.name == name) with
    | some index => some index
    | none =>
      match hops, scan.module? module with
      | hops + 1, some info =>
        let imports := info.imports module
        match imports.findSome? fun anchored => (anchored.imported.outerName? name).map
            fun outer => absolute? anchored.leading (anchored.path ++ [outer]) with
        | some target => target.bind fun (source, outer) => resolveName scan hops source outer
        | none =>
          (imports.filter (·.imported == .glob)).findSome? fun anchored =>
            (absolute? anchored.leading (anchored.path ++ [name])).bind fun (source, outer) =>
              resolveName scan hops source outer
      | _, _ => none

/-- How many imports are followed to find a struct. -/
def maxHops : Nat := 8

/-- The struct that a path leads to from a module. -/
def resolvePath (scan : ScanResult) (module : ModulePath) (path : List String) : Option Nat :=
  match path with
  | [] => none
  | [name] => scan.resolveName maxHops module name
  | _ =>
    let children := ((scan.module? module).map ModuleInfo.children).getD []
    (absolute? false (module.anchor children path)).bind fun (source, name) =>
      scan.resolveName maxHops source name

/-- The only struct of this name, if there is exactly one. -/
def onlyStruct (scan : ScanResult) (name : String) : Option Nat :=
  match (scan.structs.zipIdx.filter (·.1.name == name)) with
  | [(_, index)] => some index
  | _ => none

/-- The index of the struct that a type path means where it is written. A path that cannot be
followed means the only struct of its last name, if there is exactly one. -/
def resolveStruct (scan : ScanResult) (module : ModulePath) (path : List String) : Option Nat :=
  (scan.resolvePath module path).or (path.getLast?.bind scan.onlyStruct)

/-- The structs for which an interface is implemented, but for one that is called like the merged
type. -/
def variantsOf (scan : ScanResult) (interface mergedName : String) : List StructDecl :=
  scan.structs.filter fun decl => decl.claims.contains interface && decl.name != mergedName

/-! ## Scanning -/

/-- Everything but the claims on structs. -/
def withoutClaims (marker : String) (row : List Discovery) : ScanResult where
  interfaces := interfacesOf marker row
  traits := traitsOf row
  structs := structsOf row
  modules := (modulesOf row).map fun module => (module, infoOf row module)

/-- Adds a trait's name to the claims of the struct at an index, unless it is there already. -/
def addClaim (structs : List StructDecl) (index : Nat) (interface : String) : List StructDecl :=
  structs.modify index fun decl =>
    if decl.claims.contains interface then decl
    else { decl with claims := decl.claims ++ [interface] }

/-- What the units declare. Where a claim leads does not depend on the other claims. -/
def ofUnits (marker : String) (units : List SourceUnit) : ScanResult :=
  let row := Discovery.ofUnits units
  let scan := withoutClaims marker row
  { scan with
    structs := (claimsOf row).foldl (fun structs claim =>
      match scan.resolveStruct claim.module claim.path with
      | some index => addClaim structs index claim.interface
      | none => structs) scan.structs }

/-! ## Events -/

/-- A mark whose payload is not a text. -/
def payloadEvents (marker : String) (row : List Discovery) : List Event :=
  (interfacesOf marker row).filterMap fun interface =>
    if interface.payload = .notText then
      some ⟨.warn, "Marker payload is not a string literal; ignoring it",
        [("interface", .quoted interface.name)]⟩
    else none

/-- What is told about one unit. -/
def unitEvents (marker : String) (unit : SourceUnit) : List Event :=
  ⟨.debug, "Scanning compilation unit",
    [("unit", .text unit.name), ("module", .text unit.module.display)]⟩ ::
    payloadEvents marker (Discovery.ofUnits [unit])

/-- The claims that lead to no struct. -/
def claimEvents (scan : ScanResult) (claims : List Claim) : List Event :=
  claims.filterMap fun claim =>
    match scan.resolveStruct claim.module claim.path with
    | some _ => none
    | none => some ⟨.debug, "Impl target is not a scanned struct",
      [("module", .text claim.module.display),
        ("self_ty", .text (String.intercalate "::" claim.path)),
        ("trait_name", .text claim.interface)]⟩

/-- What is told about a scan. -/
def events (marker : String) (units : List SourceUnit) : List Event :=
  let row := Discovery.ofUnits units
  let scan := withoutClaims marker row
  units.flatMap (unitEvents marker) ++ claimEvents scan (claimsOf row) ++
    [⟨.debug, "Scan complete",
      [("interfaces", .count scan.interfaces.length), ("traits", .count scan.traits.length),
        ("structs", .count scan.structs.length), ("modules", .count scan.modules.length)]⟩]

/-- A scan with its events. -/
def run (marker : String) (units : List SourceUnit) : Logged ScanResult :=
  ⟨ofUnits marker units, events marker units⟩

end ScanResult

end VariantMerge
