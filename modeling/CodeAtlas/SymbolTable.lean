import CodeAtlas.Component
import CodeAtlas.Digest.Sha256

/-!
# The table of external symbols

Names that no component of the repository has are external. The table gives each of them an
identifier once and for all: it only grows, and a name keeps the identifier it was first given.
New identifiers come from a supply, which never hands out the same one twice.
-/

namespace CodeAtlas

/-! ## Fresh identifiers -/

/-- A source of identifiers, given by the number of the next one. -/
structure IdSupply where
  next : Nat
deriving DecidableEq, Repr, Inhabited

namespace IdSupply

/-- The hexadecimal digits of a number, at least twelve. -/
def digits (n : Nat) : List Char :=
  let ds := Nat.toDigits 16 n
  List.replicate (12 - ds.length) '0' ++ ds

/-- The identifier with the given number, in the usual grouping of a universally unique one. -/
def ident (n : Nat) : ExternalId :=
  "00000000-0000-4000-8000-" ++ String.ofList (digits n)

/-- Take the next identifier. -/
def mint (supply : IdSupply) : ExternalId × IdSupply :=
  (ident supply.next, ⟨supply.next + 1⟩)

end IdSupply

/-! ## The table -/

/-- The names increase along the list. -/
def NamesIncrease (entries : List (String × ExternalId)) : Prop :=
  entries.Pairwise fun a b => a.1 < b.1

/-- External names and their identifiers, by increasing name. -/
structure SymbolTable where
  entries : List (String × ExternalId)
  sorted : NamesIncrease entries

instance : DecidableEq SymbolTable := fun t u =>
  if h : t.entries = u.entries then
    .isTrue (by cases t; cases u; simp_all)
  else
    .isFalse (by intro e; exact h (by rw [e]))

namespace SymbolTable

/-- The table without names. -/
def empty : SymbolTable :=
  ⟨[], .nil⟩

instance : Inhabited SymbolTable := ⟨empty⟩

/-- The identifier of a name. -/
def get? (table : SymbolTable) (name : String) : Option ExternalId :=
  table.entries.lookup name

/-- The name has an identifier. -/
def contains (table : SymbolTable) (name : String) : Bool :=
  (table.get? name).isSome

/-- Number of names. -/
def size (table : SymbolTable) : Nat :=
  table.entries.length

/-- No name has an identifier. -/
def isEmpty (table : SymbolTable) : Bool :=
  table.entries.isEmpty

/-- The first name with the given identifier. -/
def nameOf? (table : SymbolTable) (id : ExternalId) : Option String :=
  (table.entries.find? fun entry => entry.2 == id).map (·.1)

/-- Insert an entry at its place; a name already present keeps its identifier. -/
def insertEntry (name : String) (id : ExternalId) :
    List (String × ExternalId) → List (String × ExternalId)
  | [] => [(name, id)]
  | entry :: rest =>
    if name < entry.1 then (name, id) :: entry :: rest
    else if name = entry.1 then entry :: rest
    else entry :: insertEntry name id rest

/-- An inserted list holds its entries and possibly the new one. -/
theorem mem_insertEntry {name : String} {id : ExternalId} {e : String × ExternalId}
    {entries : List (String × ExternalId)} (h : e ∈ insertEntry name id entries) :
    e = (name, id) ∨ e ∈ entries := by
  induction entries with
  | nil => simpa [insertEntry] using h
  | cons entry rest ih =>
    simp only [insertEntry] at h
    split at h
    · simpa using h
    · split at h
      · exact Or.inr h
      · rcases List.mem_cons.mp h with h | h
        · exact Or.inr (by simp [h])
        · rcases ih h with h | h
          · exact Or.inl h
          · exact Or.inr (by simp [h])

/-- Insertion keeps the names increasing. -/
theorem namesIncrease_insertEntry (name : String) (id : ExternalId)
    {entries : List (String × ExternalId)} (h : NamesIncrease entries) :
    NamesIncrease (insertEntry name id entries) := by
  induction entries with
  | nil => simp [insertEntry, NamesIncrease]
  | cons entry rest ih =>
    have hrest := List.pairwise_cons.mp h
    simp only [insertEntry]
    split
    · rename_i hlt
      refine List.pairwise_cons.mpr ⟨?_, h⟩
      intro e he
      rcases List.mem_cons.mp he with he | he
      · rw [he]; exact hlt
      · exact String.lt_trans hlt (hrest.1 e he)
    · split
      · exact h
      · rename_i hnlt hne
        refine List.pairwise_cons.mpr ⟨?_, ih hrest.2⟩
        intro e he
        have hgt : entry.1 < name := by
          rcases Decidable.em (entry.1 < name) with hlt | hge
          · exact hlt
          · exact absurd (String.le_antisymm hge hnlt) hne
        rcases mem_insertEntry he with he | he
        · rw [he]; exact hgt
        · exact hrest.1 e he

/-- Give a name an identifier, unless it has one. -/
def insert (table : SymbolTable) (name : String) (id : ExternalId) : SymbolTable :=
  ⟨insertEntry name id table.entries, namesIncrease_insertEntry name id table.sorted⟩

/-- The table of a list of entries; of entries with the same name the first one counts. -/
def ofList (entries : List (String × ExternalId)) : SymbolTable :=
  entries.foldl (fun table entry => table.insert entry.1 entry.2) empty

/-- Add the entries of another table; names already present keep their identifiers. -/
def extend (table other : SymbolTable) : SymbolTable :=
  other.entries.foldl (fun table entry => table.insert entry.1 entry.2) table

/-- The identifier of a name, taking a new one from the supply if it has none. -/
def getOrMint (table : SymbolTable) (supply : IdSupply) (name : String) :
    ExternalId × SymbolTable × IdSupply :=
  match table.get? name with
  | some id => (id, table, supply)
  | none =>
    let (id, supply) := supply.mint
    (id, table.insert name id, supply)

end SymbolTable

end CodeAtlas
