import VariantMerge.Generation

/-!
# Module units

The file with the sources that one module hosts. They stand in a private wrapper module, which
sees what the host sees and what the sources need besides, and whose items are exported again into
the host.
-/

namespace VariantMerge

namespace ModuleUnit

/-- The name of the wrapper module. -/
def wrapper : String := "__polystruct"

/-- The first line of a unit. -/
def banner (host : ModulePath) : String :=
  "// @generated by polystruct for `" ++ host.display ++ "`. Do not edit."

/-- The imports of a unit: what the host sees, the modules that sources need, and the names that
they need. -/
def importLines (host : ModulePath) (sources : List GeneratedSource) : List String :=
  ["use super::*;"] ++
    (sources.flatMap fun source => (source.context.globs.filter (· != host)).map fun module =>
      "use " ++ module.display ++ "::*;") ++
    sources.flatMap fun source => source.context.uses

/-- Writes one source after an empty line. -/
def addSource (w : SourceWriter) (source : GeneratedSource) : Except Failure SourceWriter :=
  match w.blank.block? source.text with
  | some written => .ok written
  | none => .error .cutCharacter

/-- The text of the unit for a module. Without sources it is the first line alone. -/
def render (config : Config) (host : ModulePath) (sources : List GeneratedSource) :
    Except Failure String := do
  let w := (← SourceWriter.new config.indent).line (banner host)
  if sources.isEmpty then w.finish
  else
    let opened := (w.attr "allow(unused_imports, dead_code, clippy::all)").beginModule "" wrapper
    let filled ← sources.foldlM addSource (opened.uses (importLines host sources))
    let closed ← filled.endScope
    (closed.line ("pub use self::" ++ wrapper ++ "::*;")).finish

end ModuleUnit

end VariantMerge
