import CodeAtlas.Text.Sorted
import CodeAtlas.Text.Chars

/-!
# Change sets

Which files were modified, added or deleted. A change set is read from a list of changes or from a
version control report, and two of them are combined so that the second decides about every path it
mentions.
-/

namespace CodeAtlas

/-- What happened to a path. -/
inductive ChangeStatus where
  | modified
  | added
  | deleted
deriving DecidableEq, Repr, Inhabited

/-- The name of a status. -/
def ChangeStatus.name : ChangeStatus → String
  | .modified => "modified"
  | .added => "added"
  | .deleted => "deleted"

/-- The status with a given name. -/
def ChangeStatus.ofName? (s : String) : Option ChangeStatus :=
  [ChangeStatus.modified, .added, .deleted].find? (·.name == s)

/-- One changed path. -/
structure FileChange where
  path : String
  status : ChangeStatus
deriving DecidableEq, Repr, Inhabited

/-- The changed paths by status. -/
structure ChangeSet where
  modified : List String
  added : List String
  deleted : List String
deriving DecidableEq, Repr, Inhabited

namespace ChangeSet

/-- No changes. -/
def empty : ChangeSet :=
  ⟨[], [], []⟩

/-- The paths of a list of changes that have the given status. -/
def pathsWith (status : ChangeStatus) (changes : List FileChange) : List String :=
  (changes.filter (·.status == status)).map (·.path)

/-- Group changes by status; paths are sorted and not repeated. -/
def ofChanges (changes : List FileChange) : ChangeSet where
  modified := Text.sortedSet (pathsWith .modified changes)
  added := Text.sortedSet (pathsWith .added changes)
  deleted := Text.sortedSet (pathsWith .deleted changes)

/-- There is a change. -/
def hasChanges (set : ChangeSet) : Bool :=
  !set.modified.isEmpty || !set.added.isEmpty || !set.deleted.isEmpty

/-- Number of changes. -/
def total (set : ChangeSet) : Nat :=
  set.modified.length + set.added.length + set.deleted.length

/-- The paths to be extracted again: the modified ones, then the added ones. -/
def toProcess (set : ChangeSet) : List String :=
  set.modified ++ set.added

/-- Keep the paths that satisfy a predicate. -/
def retain (set : ChangeSet) (keep : String → Bool) : ChangeSet where
  modified := set.modified.filter keep
  added := set.added.filter keep
  deleted := set.deleted.filter keep

/-- The single changes: modified, added, deleted. -/
def changes (set : ChangeSet) : List FileChange :=
  set.modified.map (⟨·, .modified⟩) ++ set.added.map (⟨·, .added⟩)
    ++ set.deleted.map (⟨·, .deleted⟩)

/-- Combine two change sets; the second decides about the paths it mentions. -/
def union (set other : ChangeSet) : ChangeSet :=
  let mentioned := other.changes.map (·.path)
  ofChanges ((set.changes.filter fun change => !mentioned.contains change.path) ++ other.changes)

end ChangeSet

/-! ## Version control reports -/

/-- The status a report's letter stands for: addition, deletion, and modification for the rest. -/
def statusOfLetter (letter : Char) : ChangeStatus :=
  if letter = 'A' then .added else if letter = 'D' then .deleted else .modified

/-- The change of a status field and a path field; a blank status or an empty path gives none. -/
def changeOfFields (status path : String) : Option FileChange :=
  match (Text.trim status).toList with
  | [] => none
  | letter :: _ => if path = "" then none else some ⟨path, statusOfLetter letter⟩

/-- Read fields in pairs of status and path. -/
def changesOfFields : List String → List FileChange
  | status :: path :: rest =>
    (changeOfFields status path).toList ++ changesOfFields rest
  | _ => []

/-- Read a report in which every status and every path is ended by a zero character. -/
def parseNameStatus (report : String) : List FileChange :=
  changesOfFields (Text.split '\x00' report)

end CodeAtlas
