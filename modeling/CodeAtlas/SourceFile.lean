import CodeAtlas.Component
import CodeAtlas.Digest.Fingerprint

/-!
# Source files

The record of one analyzed file: its path, its text with normalized line ends, and the names it
imports, calls and offers. Components belong to a file through their file identifier.
-/

namespace CodeAtlas

/-- One analyzed file. -/
structure SourceFile where
  id : FileId
  relativePath : String
  imports : List String
  calledSymbols : List String
  callableSymbols : List String
  formattedText : String
deriving DecidableEq, Repr, Inhabited

/-- The record of a file whose identifier is the fingerprint of its path and text. -/
def SourceFile.ofContent (fingerprint : Fingerprint) (relativePath formattedText : String)
    (imports calledSymbols callableSymbols : List String) : SourceFile where
  id := fingerprint relativePath formattedText
  relativePath := relativePath
  imports := imports
  calledSymbols := calledSymbols
  callableSymbols := callableSymbols
  formattedText := formattedText

end CodeAtlas
