import CodeAtlas.FileSystem

/-!
# Databases as files

A database is kept in a file. Beside it there can be a journal of changes that are to be taken back,
a log of changes that are still to be applied, and an index of the log. Opening a database is not
without effects: a file with at most one byte is made a database without tables, and the files
beside the database are removed when it is closed. A directory in the place of one of them stops
what would use the file. What is in the files beside a database is taken to be no changes to it.
-/

namespace CodeAtlas

namespace Content

/-- There are no bytes, or only one: the file counts as a database without pages. -/
def isBlank : Content → Bool
  | .text s => decide (s.utf8ByteSize ≤ 1)
  | .binary bytes => decide (bytes.length ≤ 1)
  | .database _ => false

/-- There are no bytes. -/
def isEmpty : Content → Bool
  | .text s => s.isEmpty
  | .binary bytes => bytes.isEmpty
  | .database _ => false

/-- The first byte is there and is not zero: a journal that is to be played back. -/
def isHot : Content → Bool
  | .text s => s.toList.head?.any (· != '\x00')
  | .binary bytes => bytes.head?.any (· != 0)
  | .database _ => true

end Content

namespace FileSystem

/-- The bytes of a database without tables: the fields of its header, with the version of the
library as the last of them, and an empty page. All of them are ASCII characters. -/
def blankDatabase : String :=
  let fields := [0, 16, 0, 2, 2, 0, 64, 32, 32, 0, 0, 0, 1, 0, 0, 0, 1] ++ List.replicate 60 0
    ++ [0, 0, 0, 1, 0, 46, 122, 112]
  let page := [13, 0, 0, 0, 0, 16] ++ List.replicate 3990 0
  "SQLite format 3" ++ String.ofList ((fields ++ page).map Char.ofNat)

/-- The place of the journal of a database. -/
def journalPath (path : String) : String :=
  path ++ "-journal"

/-- The place of the log of a database. -/
def logPath (path : String) : String :=
  path ++ "-wal"

/-- The place of the index of the log of a database. -/
def indexPath (path : String) : String :=
  path ++ "-shm"

/-- Remove the file at a path if there is one whose content is of some kind. -/
def discardIf (fs : FileSystem) (path : String) (kind : Content → Bool) : FileSystem :=
  if (fs.content? path).any kind then fs.discard path else fs

/-- Make a database without tables in a file that has no pages. This fails if there is a directory
in the place of its log or journal. -/
def startDatabase (fs : FileSystem) (path : String) : Except IoError Unit × FileSystem :=
  let fs := fs.discardIf (journalPath path) fun content => !content.isEmpty
  if fs.isDirectory (logPath path) then (.error .isADirectory, fs)
  else
    let fs := fs.discardIf (logPath path) fun content => !content.isEmpty
    if fs.isDirectory (journalPath path) then (.error .isADirectory, fs)
    else
      match (fs.discard (journalPath path)).write path (.text blankDatabase) with
      | .error error => (.error error, fs)
      | .ok fs => (.ok (), fs)

/-- Close a database: its log and the index are removed, unless there is a directory in the place of
the index. -/
def closeDatabase (fs : FileSystem) (path : String) : FileSystem :=
  if fs.isDirectory (indexPath path) then
    if fs.pathExists (logPath path) then fs
    else
      match fs.write (logPath path) (.text "") with
      | .error _ => fs
      | .ok fs => fs
  else (fs.discard (logPath path)).discard (indexPath path)

/-- Close a file that has turned out to be no database. -/
def closeOther (fs : FileSystem) (path : String) : FileSystem :=
  if (fs.content? (logPath path)).any fun content => !content.isEmpty then
    if fs.isDirectory (indexPath path) then fs
    else (fs.discard (logPath path)).discard (indexPath path)
  else fs

/-- The rows of the database in the file at a path, if it is one and has tables. Opening the file
and closing it again can change it and the files beside it. -/
def openDatabase (fs : FileSystem) (path : String) : Option Database × FileSystem :=
  match fs.content? path with
  | none => (none, fs)
  | some content =>
    if content.isBlank then
      match fs.startDatabase path with
      | (.error _, fs) => (none, fs)
      | (.ok (), fs) => (none, fs.closeDatabase path)
    else if fs.isDirectory (journalPath path) then (none, fs)
    else
      let fs := fs.discardIf (journalPath path) Content.isHot
      if fs.isDirectory (logPath path) then (none, fs)
      else
        match content with
        | .database rows => (some rows, fs.closeDatabase path)
        | .text s =>
          (none, if s = blankDatabase then fs.closeDatabase path else fs.closeOther path)
        | .binary _ => (none, fs.closeOther path)

/-- Write rows into a new database at a path where nothing is. This fails as well if there is a
directory in the place of the index of its log. -/
def createDatabase (fs : FileSystem) (path : String) (rows : Database) :
    Except IoError Unit × FileSystem :=
  match fs.write path (.text "") with
  | .error error => (.error error, fs)
  | .ok fs =>
    match fs.startDatabase path with
    | (.error error, fs) => (.error error, fs)
    | (.ok (), fs) =>
      let closed := fs.closeDatabase path
      if fs.isDirectory (indexPath path) then (.error .isADirectory, closed)
      else
        match closed.write path (.database rows) with
        | .error error => (.error error, closed)
        | .ok fs => (.ok (), fs)

end FileSystem

end CodeAtlas
