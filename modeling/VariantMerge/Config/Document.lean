import VariantMerge.Toml.Format
import VariantMerge.Yaml.Format

/-!
# Configurations from documents

A configuration can be read from a TOML or a YAML document. It is checked once it has been read.
-/

namespace VariantMerge

/-- The formats in which a configuration can be written. -/
inductive ConfigFormat where
  | toml
  | yaml
  deriving DecidableEq, Repr

/-- Why there is no configuration. -/
inductive ConfigError where
  /-- There is no text to read it from. -/
  | unreadable
  /-- The text is not a document of the format, or it sets something to a value of another kind. -/
  | malformed (format : ConfigFormat)
  /-- Generated code could not contain a setting. -/
  | invalid (problem : ConfigProblem)
  deriving DecidableEq, Repr

namespace Config

/-- The configuration that a document describes. -/
def ofDocument (format : ConfigFormat) (text : String) : Except ConfigError Config :=
  let read :=
    match format with
    | .toml => Toml.config? text
    | .yaml => Yaml.config? text
  match read with
  | some config => config.check.mapError .invalid
  | none => .error (.malformed format)

end Config

end VariantMerge
