import CodeAtlas.Config
import CodeAtlas.Json.Parser
import CodeAtlas.Json.Printer
import CodeAtlas.Toml.Parser
import CodeAtlas.Toml.Printer

/-!
# Configurations as text

A configuration is written as TOML, with a section for each group of settings, or as JSON, with an
object for each. A reader takes what is absent at its standard value and passes over what it does
not know.
-/

namespace CodeAtlas

/-! ## Reading TOML -/

namespace Toml

/-- Fields of a record, each under its name. A list gives the fields in order. A date is a record
without any field that is known. -/
def fields? (names : List String) : Toml → Option (List (Option Toml))
  | .table _ entries => some (names.map fun name => entries.lookup name)
  | .array items => some (names.zipIdx.map fun (_, index) => items[index]?)
  | .tables elements =>
    some (names.zipIdx.map fun (_, index) => elements[index]?.map (.table .header))
  | .datetime _ => some (names.map fun _ => none)
  | _ => none

/-- A field with a value for its absence. -/
def fieldOr? {α : Type} (standard : α) (read : Toml → Option α) : Option Toml → Option α
  | none => some standard
  | some value => read value

/-- The text of a string. -/
def asText? : Toml → Option String
  | .string text => some text
  | _ => none

/-- The value of an integer that is not negative. -/
def asNat? : Toml → Option Nat
  | .integer (.ofNat n) => some n
  | _ => none

/-- The truth value. -/
def asBool? : Toml → Option Bool
  | .boolean value => some value
  | _ => none

/-- The texts of a list of strings. -/
def asTexts? : Toml → Option (List String)
  | .array items => items.mapM asText?
  | _ => none

/-- The value says nothing: a table or a list without anything in it. -/
def isVoid : Toml → Bool
  | .table _ entries => entries.isEmpty
  | .array items => items.isEmpty
  | .tables elements => elements.isEmpty
  | _ => false

/-- One of several named alternatives: its name as a string, or as the only key of a table, with a
value that says nothing. -/
def variant? {α : Type} (ofName? : String → Option α) : Toml → Option α
  | .string text => ofName? text
  | .table _ [(name, value)] => if value.isVoid then ofName? name else none
  | _ => none

end Toml

open Toml (fields? fieldOr? asText? asNat? asBool? asTexts? variant?)

/-- The format with a name. -/
def GraphFormat.ofName? : String → Option GraphFormat
  | "json" => some .json
  | "sqlite" => some .sqlite
  | _ => none

/-- Storage settings of a section. -/
def StorageSettings.ofToml? (value : Toml) : Option StorageSettings := do
  match ← fields? ["graph_dir", "format"] value with
  | [directory, format] =>
    return ⟨← fieldOr? standard.graphDirectory asText? directory,
      ← fieldOr? standard.format (variant? GraphFormat.ofName?) format⟩
  | _ => none

/-- Analysis settings of a section. -/
def AnalysisSettings.ofToml? (value : Toml) : Option AnalysisSettings := do
  match ← fields? ["exclude_patterns", "max_file_size_kb", "parallelism", "relink_retained"]
      value with
  | [patterns, size, parallelism, relink] =>
    return ⟨← fieldOr? standard.excludePatterns asTexts? patterns,
      ← fieldOr? standard.maxFileSizeKb asNat? size,
      ← fieldOr? standard.parallelism asNat? parallelism,
      ← fieldOr? standard.relinkRetained asBool? relink⟩
  | _ => none

/-- Filter settings of a section. -/
def FilterSettings.ofToml? (value : Toml) : Option FilterSettings := do
  match ← fields? ["component_pattern"] value with
  | [pattern] => return ⟨← fieldOr? none (fun value => (asText? value).map some) pattern⟩
  | _ => none

/-- Logging settings of a section. -/
def LoggingSettings.ofToml? (value : Toml) : Option LoggingSettings := do
  match ← fields? ["level", "format"] value with
  | [level, format] =>
    return ⟨← fieldOr? standard.level asText? level,
      ← fieldOr? standard.format (variant? LogFormat.ofName?) format⟩
  | _ => none

namespace Config

/-- The configuration of a document's entries. -/
def ofEntries? (entries : Toml.Entries) : Option Config := do
  match ← fields? ["storage", "analysis", "filter", "logging"] (.table .header entries) with
  | [storage, analysis, filter, logging] =>
    return ⟨← fieldOr? .standard StorageSettings.ofToml? storage,
      ← fieldOr? .standard AnalysisSettings.ofToml? analysis,
      ← fieldOr? .standard FilterSettings.ofToml? filter,
      ← fieldOr? .standard LoggingSettings.ofToml? logging⟩
  | _ => none

/-- The configuration of a TOML text. -/
def ofToml? (text : String) : Option Config :=
  (Toml.parse? text).bind ofEntries?

/-! ## Writing TOML -/

/-- The groups of settings as sections. -/
def toSections (config : Config) : List (String × Toml.Entries) :=
  [("storage",
      [("graph_dir", .string config.storage.graphDirectory),
        ("format", .string config.storage.format.name)]),
    ("analysis",
      [("exclude_patterns", .array (config.analysis.excludePatterns.map .string)),
        ("max_file_size_kb", .integer config.analysis.maxFileSizeKb),
        ("parallelism", .integer config.analysis.parallelism),
        ("relink_retained", .boolean config.analysis.relinkRetained)]),
    ("filter",
      config.filter.componentPattern.toList.map fun pattern =>
        ("component_pattern", .string pattern)),
    ("logging",
      [("level", .string config.logging.level), ("format", .string config.logging.format.name)])]

/-- The TOML text, if all numbers are integers of TOML. -/
def toToml? (config : Config) : Option String :=
  if config.analysis.maxFileSizeKb < 0x8000000000000000
      ∧ config.analysis.parallelism < 0x8000000000000000 then
    some (Toml.renderSections config.toSections)
  else
    none

/-! ## JSON -/

/-- The object of a configuration. -/
def toJson (config : Config) : Json :=
  .object
    [("storage", .object
        [("graph_dir", .string config.storage.graphDirectory),
          ("format", .string config.storage.format.name)]),
      ("analysis", .object
        [("exclude_patterns", .texts config.analysis.excludePatterns),
          ("max_file_size_kb", .nat config.analysis.maxFileSizeKb),
          ("parallelism", .nat config.analysis.parallelism),
          ("relink_retained", .bool config.analysis.relinkRetained)]),
      ("filter", .object (config.filter.componentPattern.toList.map fun pattern =>
        ("component_pattern", .string pattern))),
      ("logging", .object
        [("level", .string config.logging.level),
          ("format", .string config.logging.format.name)])]

/-- The configuration of an object. -/
def ofJson? (value : Json) : Option Config := do
  let part (name : String) : Json := (value.member? name).getD (.object [])
  let field {α : Type} (group : Json) (name : String) (standard : α) (read : Json → Option α) :
      Option α :=
    Json.optional? standard read (group.member? name)
  let storage := part "storage"
  let analysis := part "analysis"
  let logging := part "logging"
  let config := standard
  return {
    storage :=
      { graphDirectory :=
          ← field storage "graph_dir" config.storage.graphDirectory Json.asText?
        format :=
          ← field storage "format" config.storage.format (Json.variant? GraphFormat.ofName?) }
    analysis :=
      { excludePatterns := ← field analysis "exclude_patterns" config.analysis.excludePatterns
          (Json.asList? Json.asText?)
        maxFileSizeKb :=
          ← field analysis "max_file_size_kb" config.analysis.maxFileSizeKb Json.asNat?
        parallelism := ← field analysis "parallelism" config.analysis.parallelism Json.asNat?
        relinkRetained :=
          ← field analysis "relink_retained" config.analysis.relinkRetained Json.asBool? }
    filter :=
      ⟨← field (part "filter") "component_pattern" none (Json.asOption? Json.asText?)⟩
    logging :=
      { level := ← field logging "level" config.logging.level Json.asText?
        format := ← field logging "format" config.logging.format
          (Json.variant? LogFormat.ofName?) } }

end Config

end CodeAtlas
