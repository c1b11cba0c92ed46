import CodeAtlas.Database
import CodeAtlas.PathText
import CodeAtlas.Text.Sorted

/-!
# File systems

A tree of directories and files as a value, with the operations the library needs of one. A path is
followed part by part: everything before its last part must be a directory that exists, and a path
that ends in a slash means a directory. Relative paths start at the current directory.
-/

namespace CodeAtlas

/-- Reasons why an operation on files fails. -/
inductive IoError where
  | notFound
  | alreadyExists
  | notADirectory
  | isADirectory
  | invalidText
deriving DecidableEq, Repr, Inhabited

/-- The wording of a failure. -/
def IoError.message : IoError → String
  | .notFound => "No such file or directory (os error 2)"
  | .alreadyExists => "File exists (os error 17)"
  | .notADirectory => "Not a directory (os error 20)"
  | .isADirectory => "Is a directory (os error 21)"
  | .invalidText => "stream did not contain valid UTF-8"

/-- What a file holds. The rows of a database stand for its bytes. -/
inductive Content where
  | text (s : String)
  /-- Bytes that are no text. -/
  | binary (bytes : List UInt8)
  | database (rows : Database)
deriving DecidableEq, Repr, Inhabited

namespace Content

/-- The content of some bytes. -/
def ofBytes (bytes : ByteArray) : Content :=
  match String.fromUTF8? bytes with
  | some s => .text s
  | none => .binary bytes.toList

/-- The number of bytes of a text or of bytes. -/
def size : Content → Nat
  | .text s => s.utf8ByteSize
  | .binary bytes => bytes.length
  | .database _ => 0

/-- The text, if the file is one. -/
def text? : Content → Option String
  | .text s => some s
  | _ => none

/-- The lines of a list of bytes. -/
def splitLines : List UInt8 → List (List UInt8)
  | [] => [[]]
  | byte :: rest =>
    match splitLines rest with
    | [] => [[byte]]
    | line :: lines => if byte = 10 then [] :: line :: lines else (byte :: line) :: lines

/-- The texts of lines up to the first that is no text. -/
def leadingTexts : List (List UInt8) → List String
  | [] => []
  | line :: rest =>
    match String.fromUTF8? ⟨line.toArray⟩ with
    | some s => s :: leadingTexts rest
    | none => []

/-- The lines of a file that can be read before one that is no text. -/
def readableLines : Content → List String
  | .text s => Text.split '\n' s
  | .binary bytes => leadingTexts (splitLines bytes)
  | .database _ => []

end Content

/-- A directory or a file. -/
inductive Entry where
  | directory
  | file (content : Content)
deriving DecidableEq, Repr, Inhabited

/-- The names on the way from the root. -/
abbrev Location := List String

/-- The entries below the root, and the directory where relative paths start. -/
structure FileSystem where
  entries : List (Location × Entry)
  current : String
deriving DecidableEq, Repr, Inhabited

namespace FileSystem

/-- The entry at a location; the root is a directory. -/
def at? (fs : FileSystem) (location : Location) : Option Entry :=
  if location = [] then some .directory else fs.entries.lookup location

/-- Set the entry at a location. -/
def put (fs : FileSystem) (location : Location) (entry : Entry) : FileSystem :=
  { fs with entries := fs.entries.filter (·.1 != location) ++ [(location, entry)] }

/-- Remove a location and everything below it. -/
def erase (fs : FileSystem) (location : Location) : FileSystem :=
  { fs with entries := fs.entries.filter fun entry => !location.isPrefixOf entry.1 }

/-! ## Following paths -/

/-- Follow the parts of a path from a location. All but the last must lead to a directory. -/
def follow (fs : FileSystem) : Location → List PathText.Part → Except IoError Location
  | location, [] => .ok location
  | location, part :: rest =>
    match fs.at? location with
    | none => .error .notFound
    | some (.file _) => .error .notADirectory
    | some .directory =>
      match part with
      | .root => follow fs [] rest
      | .here => follow fs location rest
      | .up => follow fs location.dropLast rest
      | .name text => follow fs (location ++ [text]) rest

/-- The location of a path; no entry need be there. -/
def locate (fs : FileSystem) (path : String) : Except IoError Location :=
  if path = "" then .error .notFound
  else follow fs [] (PathText.parts (PathText.join fs.current path))

/-- The path's text asks for a directory. -/
def asksDirectory (path : String) : Bool :=
  Text.endsWith "/" path || Text.endsWith "/." path

/-- The entry at a path. -/
def entry (fs : FileSystem) (path : String) : Except IoError Entry := do
  match fs.at? (← fs.locate path) with
  | none => throw .notFound
  | some .directory => return .directory
  | some (.file content) =>
    if asksDirectory path then throw .notADirectory else return .file content

/-! ## Looking -/

/-- There is an entry at the path. -/
def pathExists (fs : FileSystem) (path : String) : Bool :=
  match fs.entry path with
  | .ok _ => true
  | .error _ => false

/-- There is a directory at the path. -/
def isDirectory (fs : FileSystem) (path : String) : Bool :=
  match fs.entry path with
  | .ok .directory => true
  | _ => false

/-- The content of the file at a path, if there is a file. -/
def content? (fs : FileSystem) (path : String) : Option Content :=
  match fs.entry path with
  | .ok (.file content) => some content
  | _ => none

/-- There is a file at the path. -/
def isFile (fs : FileSystem) (path : String) : Bool :=
  (fs.content? path).isSome

/-- The text of the file at a path. -/
def readText (fs : FileSystem) (path : String) : Except IoError String := do
  match ← fs.entry path with
  | .directory => throw .isADirectory
  | .file (.text text) => return text
  | .file _ => throw .invalidText

/-- The names of the entries of a directory, in order. -/
def namesIn (fs : FileSystem) (location : Location) : List String :=
  Text.sortedSet (fs.entries.filterMap fun entry =>
    match location.isPrefixOf? entry.1 with
    | some [name] => some name
    | _ => none)

/-- The files below a location, with their paths relative to it. -/
def filesBelow (fs : FileSystem) (location : Location) : List (String × Content) :=
  Text.sortBy (·.1) (fs.entries.filterMap fun (place, entry) =>
    match location.isPrefixOf? place, entry with
    | some rest, .file content => some (Text.join "/" rest, content)
    | _, _ => none)

/-! ## Changing -/

/-- Write a file in a directory that exists. -/
def write (fs : FileSystem) (path : String) (content : Content) : Except IoError FileSystem := do
  let location ← fs.locate path
  if asksDirectory path || fs.at? location == some .directory then
    throw .isADirectory
  match fs.at? location.dropLast with
  | some .directory => return fs.put location (.file content)
  | some (.file _) => throw .notADirectory
  | none => throw .notFound

/-- Create the directories on the way along the parts of a path. Where a file is in the way, what
has been made by then stays. -/
def createAlong (fs : FileSystem) :
    Location → List PathText.Part → Except IoError Unit × FileSystem
  | _, [] => (.ok (), fs)
  | _, .root :: rest => createAlong fs [] rest
  | location, .here :: rest => createAlong fs location rest
  | location, .up :: rest => createAlong fs location.dropLast rest
  | location, .name text :: rest =>
    let next := location ++ [text]
    match fs.at? next with
    | some .directory => createAlong fs next rest
    | some (.file _) => (.error (if rest.isEmpty then .alreadyExists else .notADirectory), fs)
    | none =>
      -- Directories are made from the innermost that exists, so a file is met as one of them.
      let (result, fs) := createAlong (fs.put next .directory) next rest
      (result.mapError fun _ => .alreadyExists, fs)

/-- Create a directory and all directories above it that are missing. The file system is given back
also when that fails. -/
def createDirectories (fs : FileSystem) (path : String) : Except IoError Unit × FileSystem :=
  if path = "" then (.ok (), fs)
  else createAlong fs [] (PathText.parts (PathText.join fs.current path))

/-- Remove the file at a path. -/
def removeFile (fs : FileSystem) (path : String) : Except IoError FileSystem := do
  match ← fs.entry path with
  | .directory => throw .isADirectory
  | .file _ => return fs.erase (← fs.locate path)

/-- Remove the file if that is possible. -/
def discard (fs : FileSystem) (path : String) : FileSystem :=
  match fs.removeFile path with
  | .ok fs => fs
  | .error _ => fs

/-- Move a file to another path, in place of a file that is there. -/
def rename (fs : FileSystem) (source target : String) : Except IoError FileSystem := do
  match ← fs.entry source with
  | .directory => throw .isADirectory
  | .file content =>
    let location ← fs.locate target
    if asksDirectory target then throw .notADirectory
    if fs.at? location == some .directory then throw .isADirectory
    return (fs.erase (← fs.locate source)).put location (.file content)

end FileSystem

end CodeAtlas
