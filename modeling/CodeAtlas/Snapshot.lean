import CodeAtlas.Builder
import CodeAtlas.ChangeSet

/-!
# Comparison with a stored snapshot

The changes of a directory since a graph was built, found by comparing the files that are there now
with the files of the graph. A file counts as modified when the fingerprint of its path and text is
not the stored identifier, or when it cannot be read.
-/

namespace CodeAtlas

namespace Snapshot

/-- The identifier that the file at a path would have now, if it can be read. -/
def currentId? (builder : Builder) (fs : FileSystem) (directory path : String) : Option FileId :=
  match fs.readText (PathText.join directory path) with
  | .ok source => some (builder.fingerprint path (Text.normalizeLines source))
  | .error _ => none

/-- The stored identifier of a path. -/
def storedId? (files : List SourceFile) (path : String) : Option FileId :=
  (files.reverse.find? (·.relativePath == path)).map (·.id)

/-- The change of a path that is there now, if it changed. -/
def changeOf (builder : Builder) (fs : FileSystem) (directory : String) (files : List SourceFile)
    (path : String) : Option FileChange :=
  match storedId? files path with
  | none => some ⟨path, .added⟩
  | some stored =>
    if currentId? builder fs directory path = some stored then none else some ⟨path, .modified⟩

/-- The changes since the files were stored, with the paths that are there now. -/
def changesTo (builder : Builder) (fs : FileSystem) (directory : String) (current : List String)
    (files : List SourceFile) : ChangeSet :=
  let gone := (files.map (·.relativePath)).filter fun path => !current.contains path
  .ofChanges (current.filterMap (changeOf builder fs directory files)
    ++ gone.map (⟨·, .deleted⟩))

/-- The changes of a directory since the files were stored, unless collecting breaks off. -/
def changes (builder : Builder) (fs : FileSystem) (home directory : String)
    (files : List SourceFile) : Option ChangeSet :=
  (builder.collectFiles fs home directory).map fun current =>
    changesTo builder fs directory current files

end Snapshot

end CodeAtlas
