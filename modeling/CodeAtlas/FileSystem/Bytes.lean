import CodeAtlas.Database.Json
import CodeAtlas.FileSystem
import CodeAtlas.Json.Parser
import CodeAtlas.Json.Printer

/-!
# Contents as bytes

The content of a file as it is kept on a disk. A text is kept in its UTF-8 form, and a database as
the JSON text of its rows behind a line by which it is recognized.
-/

namespace CodeAtlas.Content

/-- The line by which a database is recognized. -/
def databaseMark : String := "code atlas database\n"

/-- The bytes of a content. -/
def toBytes : Content → ByteArray
  | .text s => s.toUTF8
  | .binary bytes => ⟨bytes.toArray⟩
  | .database rows => (databaseMark ++ rows.toJson.compact).toUTF8

/-- The database of a text that begins with the mark. -/
def database? (s : String) : Option Database :=
  (Text.afterStart? databaseMark s).bind fun rows => (Json.parse? rows).bind Database.ofJson?

/-- The content that is kept as some bytes. -/
def ofStored (bytes : ByteArray) : Content :=
  match ofBytes bytes with
  | .text s =>
    match database? s with
    | some rows => .database rows
    | none => .text s
  | content => content

end CodeAtlas.Content
