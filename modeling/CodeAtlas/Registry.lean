import CodeAtlas.Extraction
import CodeAtlas.Text.LetterCase

/-!
# Extractors

An extractor turns the text of a file into a parsed file. The registry chooses one by the extension
of the file's path. The standard registry has one extractor for each language; these get the syntax
tree of a text from a parser, which is a parameter.
-/

namespace CodeAtlas

/-- Gives the syntax tree of a text with normalized line ends. -/
abbrev SyntaxParser := Language → String → Option Node

/-- Turns the path and the text of a file into a parsed file. -/
structure Extractor where
  name : String
  extract : (relativePath source : String) → Except ExtractError ParsedFile

/-- The extractor of a language. -/
def Extractor.ofLanguage (parser : SyntaxParser) (language : Language) : Extractor where
  name := language.name
  extract := fun relativePath source =>
    let text := Text.normalizeLines source
    match parser language text with
    | some root => .ok (Extraction.extract language relativePath text root)
    | none => .error (.parseFailed relativePath)

/-- Extractors by lower-case extension; of repeated extensions the first counts. -/
structure Registry where
  entries : List (String × Extractor)

namespace Registry

/-- No extractors. -/
def empty : Registry :=
  ⟨[]⟩

/-- Choose an extractor for an extension, in any letter case. -/
def register (registry : Registry) (extension : String) (extractor : Extractor) : Registry :=
  ⟨(Text.lower extension, extractor) :: registry.entries⟩

/-- The extractors of all languages. -/
def standard (parser : SyntaxParser) : Registry :=
  Language.all.foldl (fun registry language =>
    language.extensions.foldl (fun registry extension =>
      registry.register extension (.ofLanguage parser language)) registry) empty

/-- The extractor for a path. -/
def forPath? (registry : Registry) (path : String) : Option Extractor :=
  (PathText.extension? path).bind fun extension =>
    registry.entries.lookup (Text.lower extension)

/-- The registry has an extractor for the path. -/
def supports (registry : Registry) (path : String) : Bool :=
  (registry.forPath? path).isSome

/-- The extensions, in order. -/
def extensions (registry : Registry) : List String :=
  Text.sortedSet (registry.entries.map (·.1))

end Registry

end CodeAtlas
