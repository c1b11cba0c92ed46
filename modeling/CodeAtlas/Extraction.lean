import CodeAtlas.Extraction.Parsed
import CodeAtlas.Extraction.Resolution
import CodeAtlas.Text.Sorted

/-!
# Extraction of a file

The components of a file from its syntax tree. Every byte of the text belongs to exactly one of
them: a definition owns its range without the ranges of the definitions directly inside of it, and
the remainder owns what no outermost definition covers.
-/

namespace CodeAtlas.Extraction

/-- The ranges of the definitions directly inside of an owner, in order of their starts. -/
def rangesBelow (found : Findings) (owner : Option Nat) : List Span :=
  Span.sort ((found.drafts.filter fun draft => draft.parent == owner).map (·.range))

/-- The callees of an owner's calls, in order. -/
def calleesOf (found : Findings) (owner : Option Nat) : List String :=
  (found.calls.filter fun call => call.owner == owner).map (·.callee)

/-- The names an owner refers to: its callees resolved, each once. -/
def referencesOf (ctx : Context) (found : Findings) (owner : Option Nat)
    (selfType selfAlias : Option String) : List String :=
  Text.firstOccurrences ((calleesOf found owner).map (resolve ctx found selfType selfAlias))

/-- The component of a definition. -/
def componentOfDraft (ctx : Context) (found : Findings) (index : Nat) (draft : Draft) :
    ParsedComponent where
  qualifiedName := draft.qualifiedName
  kind := draft.kind
  parent := (draft.parent.bind (found.drafts[·]?)).map (·.qualifiedName)
  spans := draft.range.subtract (rangesBelow found (some index))
  referencedSymbols := referencesOf ctx found (some index) draft.selfType draft.selfAlias

/-- The component that remains of the file. -/
def residualComponent (ctx : Context) (found : Findings) : ParsedComponent where
  qualifiedName := ctx.moduleName
  kind := .residual
  parent := none
  spans := (Span.mk 0 ctx.source.utf8ByteSize).subtract (rangesBelow found none)
  referencedSymbols := referencesOf ctx found none none none

/-- The callees of the file: those of the definitions in order, then those of the remainder. -/
def allCallees (found : Findings) : List String :=
  (List.range found.drafts.length).flatMap (fun index => calleesOf found (some index))
    ++ calleesOf found none

/-- The parsed file of what a walk has found. -/
def assemble (ctx : Context) (found : Findings) : ParsedFile where
  relativePath := ctx.relativePath
  moduleName := ctx.moduleName
  text := ctx.source
  imports := Text.firstOccurrences found.imports.targets
  calledSymbols := Text.firstOccurrences (allCallees found)
  callableSymbols := (found.drafts.filter (·.kind.isCallable)).map (·.qualifiedName)
  components :=
    (found.drafts.zipIdx.map fun (draft, index) => componentOfDraft ctx found index draft)
      ++ [residualComponent ctx found]

/-- Extract a file from its path, its normalized text and its syntax tree. -/
def extract (language : Language) (relativePath source : String) (root : Node) : ParsedFile :=
  let ctx := Context.ofFile language relativePath source
  assemble ctx (walk ctx root)

end CodeAtlas.Extraction
