/-!
# JSON values

Values of the data format JSON. Numbers are kept as they are written and objects as lists of their
members in order, so that it is up to the reader of a value what a repeated member means.
-/

namespace CodeAtlas

/-- A JSON value. -/
inductive Json where
  | null
  | bool (value : Bool)
  /-- A number, as it is written. -/
  | number (literal : String)
  | string (text : String)
  /-- A string with an unpaired surrogate escape, which stands for no text. -/
  | unpairedString
  | array (items : List Json)
  | object (members : List (String × Json))
deriving Repr, Inhabited, BEq

namespace Json

/-! ## Building values -/

/-- A natural number. -/
def nat (n : Nat) : Json :=
  .number (toString n)

/-- An integer. -/
def int (n : Int) : Json :=
  .number (toString n)

/-- An array of texts. -/
def texts (items : List String) : Json :=
  .array (items.map .string)

/-- A text, or null. -/
def text? : Option String → Json
  | some s => .string s
  | none => .null

/-! ## Reading values -/

/-- The text of a string. -/
def asText? : Json → Option String
  | .string s => some s
  | _ => none

/-- The truth value. -/
def asBool? : Json → Option Bool
  | .bool b => some b
  | _ => none

/-- The value of a list of decimal digits. -/
def digitsValue (digits : List Char) : Nat :=
  digits.foldl (fun n c => 10 * n + (c.toNat - 48)) 0

/-- How many natural numbers have 64 bits. -/
def wordCount : Nat := 0x10000000000000000

/-- A natural number of 64 bits, written without sign, fraction or exponent. -/
def asNat? : Json → Option Nat
  | .number literal =>
    let digits := literal.toList
    if !digits.isEmpty && digits.all Char.isDigit then
      let n := digitsValue digits
      if n < wordCount then some n else none
    else
      none
  | _ => none

/-- An integer, written without fraction or exponent. -/
def asInt? : Json → Option Int
  | .number literal =>
    match literal.toList with
    | '-' :: digits => (asNat? (.number (String.ofList digits))).map fun n => -(n : Int)
    | _ => (asNat? (.number literal)).map Int.ofNat
  | _ => none

/-- A list of items, each read in the same way. -/
def asList? {α : Type} (item : Json → Option α) : Json → Option (List α)
  | .array items => items.mapM item
  | _ => none

/-- The members of an object, each value read in the same way. -/
def asMembers? {α : Type} (item : Json → Option α) : Json → Option (List (String × α))
  | .object members => members.mapM fun (name, value) => (item value).map (name, ·)
  | _ => none

/-- A value, or nothing for null. -/
def asOption? {α : Type} (item : Json → Option α) : Json → Option (Option α)
  | .null => some none
  | value => (item value).map some

/-- The first member of an object with the given name. -/
def member? (value : Json) (name : String) : Option Json :=
  match value with
  | .object members => members.lookup name
  | _ => none

/-! ## Records

A record is written as an object with its fields as members, or as an array of its fields in order.
Unknown members are passed over; a known one must not be repeated. -/

/-- The fields of a record with the given names, in order; a field may be absent. -/
def fields? (names : List String) : Json → Option (List (Option Json))
  | .object members =>
    if names.all fun name => decide ((members.filter (·.1 == name)).length ≤ 1) then
      some (names.map fun name => members.lookup name)
    else
      none
  | .array items =>
    if items.length ≤ names.length then
      some (names.zipIdx.map fun (_, index) => items[index]?)
    else
      none
  | _ => none

/-- A field that must be there. -/
def required? {α : Type} (item : Json → Option α) (field : Option Json) : Option α :=
  field.bind item

/-- A field with a value for its absence. -/
def optional? {α : Type} (default : α) (item : Json → Option α) : Option Json → Option α
  | none => some default
  | some value => item value

/-- One of several named alternatives: its name as a string, or as the only member of an object with
the value null. -/
def variant? {α : Type} (ofName? : String → Option α) : Json → Option α
  | .string s => ofName? s
  | .object [(name, .null)] => ofName? name
  | _ => none

end Json

end CodeAtlas
