import CodeAtlas.Text.Chars

/-!
# Paths as text

A path is a text of segments between slashes. Empty segments and segments of one dot carry no
meaning, except a single dot at the beginning of a relative path; two dots go up. The operations
here look at the text only and never at a file system.
-/

namespace CodeAtlas.PathText

/-- A meaningful part of a path. -/
inductive Part where
  | root
  | here
  | up
  | name (text : String)
deriving DecidableEq, Repr, Inhabited

/-- The path starts at the root. -/
def isAbsolute (path : String) : Bool :=
  Text.startsWith "/" path

/-- The part a segment stands for; empty segments and single dots stand for nothing. -/
def partOfSegment (segment : String) : Option Part :=
  if segment = "" ∨ segment = "." then none
  else if segment = ".." then some .up
  else some (.name segment)

/-- The parts of a path. Paths with the same parts are the same path. -/
def parts (path : String) : List Part :=
  let segments := Text.split '/' path
  let lead : List Part :=
    if isAbsolute path then [.root]
    else if segments.head? = some "." then [.here]
    else []
  lead ++ segments.filterMap partOfSegment

/-- The last part, when it is a name. -/
def fileName? (path : String) : Option String :=
  match (parts path).getLast? with
  | some (.name text) => some text
  | _ => none

/-- The part of a file name after its last dot. A name whose only dot is its first character has no
extension, and neither has a name without a dot. -/
def extensionOfName? (name : String) : Option String :=
  match Text.cutLast? '.' name.toList with
  | some (before, after) => if before.isEmpty then none else some (String.ofList after)
  | none => none

/-- The extension of a path's file name. -/
def extension? (path : String) : Option String :=
  (fileName? path).bind extensionOfName?

/-- Append a path to another; an absolute path replaces what is before it. -/
def join (base path : String) : String :=
  if isAbsolute path then path
  else if base = "" ∨ Text.endsWith "/" base then base ++ path
  else base ++ "/" ++ path

/-- Drop the segments at the end that carry no meaning. The list is reversed, and the first segment
of the path, which is last here, stays. -/
def dropIdleSegments : List String → List String
  | [] => []
  | [first] => [first]
  | segment :: rest =>
    if segment = "" ∨ segment = "." then dropIdleSegments rest else segment :: rest

/-- The path without its last part: none for the root, the empty path, and paths of no part. -/
def parent? (path : String) : Option String :=
  match (parts path).getLast? with
  | none | some .root => none
  | some _ =>
    let kept := dropIdleSegments ((dropIdleSegments (Text.split '/' path).reverse).drop 1)
    match kept with
    | [] => some ""
    | [""] => some (if isAbsolute path then "/" else "")
    | kept => some (Text.join "/" kept.reverse)

/-- The path with another file name; a path without a file name gets the name appended. -/
def withFileName (path name : String) : String :=
  if (fileName? path).isSome then
    join ((parent? path).getD "") name
  else
    join path name

end CodeAtlas.PathText
