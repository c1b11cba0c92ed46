import CodeAtlas.Language.Rules
import CodeAtlas.Symbol
import CodeAtlas.SyntaxTree

/-!
# The file being extracted

What stays fixed while the tree of a file is walked: its language, its text, and the names under
which it and its symbols are known.
-/

namespace CodeAtlas.Extraction

/-- The language, text and names of the file being extracted. -/
structure Context where
  language : Language
  source : String
  /-- The path with forward slashes. -/
  relativePath : String
  /-- The name of the file's remainder. -/
  moduleName : String
  /-- What the names of the file's symbols start with. -/
  qualifier : String
deriving DecidableEq, Repr, Inhabited

namespace Context

/-- The context of a file with the given path and normalized text. -/
def ofFile (language : Language) (relativePath source : String) : Context where
  language := language
  source := source
  relativePath := Text.replaceChar '\\' '/' relativePath
  moduleName := language.modulePath relativePath
  qualifier := language.symbolQualifier relativePath

/-- The rules of the file's language. -/
def rules (ctx : Context) : Rules :=
  ctx.language.rules

/-- The text a node covers. -/
def text (ctx : Context) (node : Node) : String :=
  node.text ctx.source

/-- The canonical name a node spells, if it spells one. -/
def symbol? (ctx : Context) (node : Node) : Option String :=
  Symbol.normalize? (ctx.text node)

end Context

end CodeAtlas.Extraction
