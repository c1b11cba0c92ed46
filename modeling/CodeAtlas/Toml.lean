/-!
# TOML documents

Values of the configuration format TOML, and the rules by which the lines of a document build up its
tables. A table remembers how it came about, because that decides who may still add to it: a table
that was opened by its own header is complete, one that exists only because a longer header or a
dotted key passed through it is not, and an inline table is closed from the start.
-/

namespace CodeAtlas

/-- How a table came about. -/
inductive TableOrigin where
  /-- The table has a header of its own. -/
  | header
  /-- The table lies on the way to another table's header. -/
  | implied
  /-- The table lies on the way of a dotted key. -/
  | dotted
  /-- The table is written between braces. -/
  | inline
deriving DecidableEq, Repr, Inhabited

/-- A TOML value. Numbers with a fraction and dates are kept as they are written. -/
inductive Toml where
  | string (text : String)
  | integer (value : Int)
  | float (literal : String)
  | boolean (value : Bool)
  | datetime (literal : String)
  | array (items : List Toml)
  | table (origin : TableOrigin) (entries : List (String × Toml))
  /-- A list of tables that were opened by repeated headers. -/
  | tables (elements : List (List (String × Toml)))
deriving Repr, Inhabited

namespace Toml

/-- The entries of a table in the order in which they were added. -/
abbrev Entries := List (String × Toml)

/-! ## Changing a table in place -/

/-- Give the value of a key to `change`, and put its result in the same place. A key that is absent
is added at the end. -/
def alter (key : String) (change : Option Toml → Option Toml) : Entries → Option Entries
  | [] => (change none).map fun value => [(key, value)]
  | (k, value) :: rest =>
    if k = key then
      (change (some value)).map fun value => (k, value) :: rest
    else
      (alter key change rest).map ((k, value) :: ·)

/-- Change the last element of a list. -/
def alterLast {α : Type} (change : α → Option α) : List α → Option (List α)
  | [] => none
  | [last] => (change last).map fun last => [last]
  | element :: rest => (alterLast change rest).map (element :: ·)

/-! ## Following a path -/

/-- Follow the path of a header down from some entries and change the table it leads to. Tables on
the way are created where they are missing; a list of tables stands for its last element. -/
def followHeader (change : Entries → Option Entries) : List String → Entries → Option Entries
  | [], entries => change entries
  | key :: path, entries =>
    alter key (fun
      | none => (followHeader change path []).map (.table .implied)
      | some (.table .inline _) => none
      | some (.table origin inner) => (followHeader change path inner).map (.table origin)
      | some (.tables elements) => (alterLast (followHeader change path) elements).map .tables
      | some _ => none) entries

/-- Follow the path of a dotted key down from a table and change the table it leads to, of which the
origin is given too. A dotted key passes through no table that is complete. -/
def followDotted (change : TableOrigin → Entries → Option Entries) :
    List String → TableOrigin → Entries → Option Entries
  | [], origin, entries => change origin entries
  | key :: path, _, entries =>
    alter key (fun
      | none => (followDotted change path .dotted []).map (.table .dotted)
      | some (.table .implied inner) =>
        (followDotted change path .implied inner).map (.table .implied)
      | some (.table .dotted inner) =>
        (followDotted change path .dotted inner).map (.table .dotted)
      | some (.tables elements) =>
        (alterLast (followDotted change path .header) elements).map .tables
      | some _ => none) entries

/-! ## The lines of a document -/

/-- Add a key that must be new. -/
def addNew (key : String) (value : Toml) : Entries → Option Entries :=
  alter key fun
    | none => some value
    | some _ => none

/-- Add the value of a key, which may be dotted, to a table. The table that a dotted key leads to
must have come about by dotted keys. -/
def addKey (path : List String) (key : String) (value : Toml) (entries : Entries) :
    Option Entries :=
  if path.isEmpty then
    addNew key value entries
  else
    followDotted (fun origin inner => if origin = .dotted then addNew key value inner else none)
      path .header entries

/-- Open a table by its header. Only a table that was implied so far may be opened again. -/
def openTable (path : List String) (key : String) : Entries → Option Entries :=
  followHeader (alter key fun
    | none => some (.table .header [])
    | some (.table .implied inner) => some (.table .header inner)
    | some _ => none) path

/-- Open one more element of a list of tables. -/
def openElement (path : List String) (key : String) : Entries → Option Entries :=
  followHeader (alter key fun
    | none => some (.tables [[]])
    | some (.tables elements) => some (.tables (elements ++ [[]]))
    | some _ => none) path

/-- A character of a key without quotes. -/
def isKeyChar (c : Char) : Bool :=
  c.isAlphanum || c == '_' || c == '-'

end Toml

end CodeAtlas
