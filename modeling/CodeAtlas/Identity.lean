import CodeAtlas.CodeGraph

/-!
# Identity of components

A component is identified by the fingerprint of its qualified name and its code, which is known only
when the code has been assembled. Until then it is known by its place in the order of registration,
so that a parent can be referred to. Components with equal name and code are one component, and the
first of them is kept.
-/

namespace CodeAtlas

/-- A component that was registered, before its code is known. -/
structure Registration where
  /-- The number of the file in the pass. -/
  fileIndex : Nat
  qualifiedName : String
  kind : ComponentKind
  /-- Qualified name of the enclosing component in the same file. -/
  parent : Option String
deriving DecidableEq, Repr, Inhabited

/-- The code and references of a component, once assembled. -/
structure Assembly where
  codeText : String
  spans : List Span
  referencedSymbols : List String
deriving DecidableEq, Repr, Inhabited

/-- A registered component, with its assembly unless that failed. -/
structure Candidate where
  registration : Registration
  assembly : Option Assembly
deriving DecidableEq, Repr, Inhabited

/-- The components of a pass with their final identifiers. -/
structure Finalized where
  components : List Component
  nameTable : NameTable
  /-- Number of dropped components that repeat an earlier one. -/
  duplicates : Nat
deriving DecidableEq, Repr, Inhabited

namespace Identity

/-- The file and the name under which a component is registered. -/
def key (candidate : Candidate) : Nat × String :=
  (candidate.registration.fileIndex, candidate.registration.qualifiedName)

/-- Number of different registrations, by file and name. -/
def registeredCount (candidates : List Candidate) : Nat :=
  (candidates.map key).eraseDups.length

/-- The final identifier of a candidate, if its code was assembled. -/
def finalId? (fingerprint : Fingerprint) (candidate : Candidate) : Option ComponentId :=
  candidate.assembly.map fun assembly =>
    fingerprint candidate.registration.qualifiedName assembly.codeText

/-- The identifier of the component last registered under a file and a name. -/
def registeredId? (fingerprint : Fingerprint) (candidates : List Candidate)
    (fileIndex : Nat) (name : String) : Option ComponentId :=
  (candidates.reverse.find? fun candidate => key candidate == (fileIndex, name)).bind
    (finalId? fingerprint)

/-- The component of an assembled candidate in a file, not yet linked. -/
def componentOf (fingerprint : Fingerprint) (candidates : List Candidate)
    (registration : Registration) (assembly : Assembly) (fileId : FileId) : Component where
  id := fingerprint registration.qualifiedName assembly.codeText
  qualifiedName := registration.qualifiedName
  codeText := assembly.codeText
  kind := registration.kind
  fileId := fileId
  parentId := registration.parent.bind (registeredId? fingerprint candidates registration.fileIndex)
  spans := assembly.spans
  linkedIds := []
  externalIds := []
  referencedSymbols := assembly.referencedSymbols

/-- The components of the candidates that were assembled and whose file is known, in order. -/
def resolved (fingerprint : Fingerprint) (candidates : List Candidate) (fileIds : List FileId) :
    List Component :=
  candidates.filterMap fun candidate =>
    match candidate.assembly, fileIds[candidate.registration.fileIndex]? with
    | some assembly, some fileId =>
      some (componentOf fingerprint candidates candidate.registration assembly fileId)
    | _, _ => none

/-- Keep the first component of each identifier. -/
def keepFirst (components : List Component) : List Component :=
  components.foldl
    (fun kept c => if kept.any (·.id == c.id) then kept else kept ++ [c]) []

end Identity

/-- Give the candidates of a pass their final identifiers. Candidates without code, or of a file
that does not exist, are dropped; every other name is entered into the table of names. -/
def finalize (fingerprint : Fingerprint) (candidates : List Candidate) (fileIds : List FileId) :
    Finalized :=
  let components := Identity.resolved fingerprint candidates fileIds
  let kept := Identity.keepFirst components
  { components := kept
    nameTable := .ofPairs (components.map fun c => (c.qualifiedName, c.id))
    duplicates := components.length - kept.length }

end CodeAtlas
