import VariantMerge.Proofs.Scan.Imports

/-!
# Which struct a path means

A path is followed along the imports of modules. Where it leads depends on the structs and on what
each module imports and declares, and nothing leads on from a module that does neither, whether it
is known or not (`ScanResult.resolveStruct_congr`).
-/

namespace VariantMerge

namespace ScanResult

variable {scan other : ScanResult}

/-- The imports and child modules of a module. One that is not known has none. -/
def infoIn (scan : ScanResult) (module : ModulePath) : ModuleInfo :=
  (scan.module? module).getD ⟨[], []⟩

theorem importsIn_eq (scan : ScanResult) (module : ModulePath) :
    scan.importsIn module = (scan.infoIn module).imports module := by
  rw [importsIn, infoIn]
  cases scan.module? module <;> rfl

/-- Where a name leads along imports. The search goes on in the modules that they are from. -/
def follow (imports : List Import) (name : String)
    (goOn : ModulePath → String → Option Nat) : Option Nat :=
  match imports.findSome? fun anchored => (anchored.imported.outerName? name).map
      fun outer => absolute? anchored.leading (anchored.path ++ [outer]) with
  | some target => target.bind fun (source, outer) => goOn source outer
  | none =>
    (imports.filter (·.imported == .glob)).findSome? fun anchored =>
      (absolute? anchored.leading (anchored.path ++ [name])).bind fun (source, outer) =>
        goOn source outer

/-- A name that no struct of the module has leads along its imports. There are none to follow if the
module is not known. -/
theorem resolveName_succ (scan : ScanResult) (hops : Nat) (module : ModulePath) (name : String) :
    scan.resolveName (hops + 1) module name =
      (scan.structs.findIdx? fun decl => decl.module == module && decl.name == name).or
        (follow (scan.importsIn module) name (scan.resolveName hops)) := by
  conv =>
    lhs
    unfold resolveName
  rw [importsIn]
  cases scan.structs.findIdx? fun decl => decl.module == module && decl.name == name with
  | some index => rfl
  | none => cases scan.module? module <;> rfl

theorem resolveName_congr (structs : scan.structs = other.structs)
    (infos : ∀ module, scan.infoIn module = other.infoIn module) (hops : Nat)
    (module : ModulePath) (name : String) :
    scan.resolveName hops module name = other.resolveName hops module name := by
  -- Whether a module is known shows in its imports only, and both scans agree on these.
  induction hops generalizing module name with
  | zero =>
      unfold resolveName
      rw [structs]
  | succ hops ih =>
      have goOn : scan.resolveName hops = other.resolveName hops := by
        funext source outer
        exact ih source outer
      rw [resolveName_succ, resolveName_succ, structs, importsIn_eq, importsIn_eq, infos, goOn]

theorem resolveStruct_congr (structs : scan.structs = other.structs)
    (infos : ∀ module, scan.infoIn module = other.infoIn module) :
    scan.resolveStruct = other.resolveStruct := by
  have children (scan : ScanResult) (module : ModulePath) :
      ((scan.module? module).map ModuleInfo.children).getD [] = (scan.infoIn module).children := by
    rw [infoIn]
    cases scan.module? module <;> rfl
  have only : scan.onlyStruct = other.onlyStruct := by
    funext name
    rw [onlyStruct, onlyStruct, structs]
  funext module path
  have followed : scan.resolvePath module path = other.resolvePath module path := by
    unfold resolvePath
    simp only [children, infos, resolveName_congr structs infos]
  rw [resolveStruct, resolveStruct, followed, only]

end ScanResult

end VariantMerge
