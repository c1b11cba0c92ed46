import CodeAtlas.ChangeSet
import CodeAtlas.CodeGraph
import CodeAtlas.Json

/-!
# Attributes

What the stages of a pipeline hand to each other: values under keys. A key has the sort of value it
holds, except for extra keys, which hold anything. Keys have a fixed order, in which the extra keys
come last, by name.
-/

namespace CodeAtlas

/-- The name of an attribute. -/
inductive AttributeKey where
  | components
  | files
  | externalSymbols
  | changes
  /-- The last commit of the working tree. -/
  | commitHash
  /-- The commit the stored graph was built at. -/
  | previousCommitHash
  | author
  /-- The working tree was fetched by this run. -/
  | isDownloaded
  | persistedPath
  /-- An attribute of someone else's stage. -/
  | extra (name : String)
deriving DecidableEq, Repr, Inhabited

/-- The sorts of values. -/
inductive ValueSort where
  | components
  | files
  | externalSymbols
  | changes
  | text
  | optionalText
  | flag
  | path
  | json
deriving DecidableEq, Repr, Inhabited

/-- A value. -/
inductive AttributeValue where
  | components (components : List Component)
  | files (files : List SourceFile)
  | externalSymbols (table : SymbolTable)
  | changes (changes : ChangeSet)
  | text (text : String)
  | optionalText (text : Option String)
  | flag (flag : Bool)
  | path (path : String)
  | json (value : Json)
deriving Inhabited

/-- The name of a sort. -/
def ValueSort.name : ValueSort → String
  | .components => "components"
  | .files => "files"
  | .externalSymbols => "external symbols"
  | .changes => "changes"
  | .text => "text"
  | .optionalText => "optional text"
  | .flag => "flag"
  | .path => "path"
  | .json => "json"

/-- The sort of a value. -/
def AttributeValue.sort : AttributeValue → ValueSort
  | .components _ => .components
  | .files _ => .files
  | .externalSymbols _ => .externalSymbols
  | .changes _ => .changes
  | .text _ => .text
  | .optionalText _ => .optionalText
  | .flag _ => .flag
  | .path _ => .path
  | .json _ => .json

namespace AttributeKey

/-- The keys that are not extra, in order. -/
def standard : List AttributeKey :=
  [.components, .files, .externalSymbols, .changes, .commitHash, .previousCommitHash, .author,
    .isDownloaded, .persistedPath]

/-- The name of a key. -/
def name : AttributeKey → String
  | components => "components"
  | files => "files"
  | externalSymbols => "external_symbols"
  | changes => "changes"
  | commitHash => "commit_hash"
  | previousCommitHash => "previous_commit_hash"
  | author => "author"
  | isDownloaded => "is_downloaded"
  | persistedPath => "persisted_path"
  | extra name => name

/-- The place of a key's constructor in the order of keys. -/
def rank : AttributeKey → Nat
  | components => 0
  | files => 1
  | externalSymbols => 2
  | changes => 3
  | commitHash => 4
  | previousCommitHash => 5
  | author => 6
  | isDownloaded => 7
  | persistedPath => 8
  | extra _ => 9

/-- The order of keys. -/
def precedes (a b : AttributeKey) : Bool :=
  decide (a.rank < b.rank) || (a.rank == b.rank && decide (a.name < b.name))

/-- The key with a given name; a name of no other key is that of an extra one. -/
def ofName (s : String) : AttributeKey :=
  (standard.find? (·.name == s)).getD (.extra s)

/-- The sort of value a key holds, if it is fixed. -/
def sort? : AttributeKey → Option ValueSort
  | components => some .components
  | files => some .files
  | externalSymbols => some .externalSymbols
  | changes => some .changes
  | commitHash | previousCommitHash | author => some .optionalText
  | isDownloaded => some .flag
  | persistedPath => some .path
  | extra _ => none

/-- The value can stand under the key. -/
def accepts (key : AttributeKey) (value : AttributeValue) : Bool :=
  match key.sort? with
  | some sort => sort == value.sort
  | none => true

end AttributeKey

/-! ## Values by key -/

namespace AttributeKey

theorem precedes_iff {a b : AttributeKey} :
    a.precedes b = true ↔ a.rank < b.rank ∨ a.rank = b.rank ∧ a.name < b.name := by
  simp [precedes]

theorem precedes_trans {a b c : AttributeKey} (hab : a.precedes b = true)
    (hbc : b.precedes c = true) : a.precedes c = true := by
  rw [precedes_iff] at hab hbc ⊢
  rcases hab with hab | ⟨hab, hnames⟩
  · exact Or.inl (by omega)
  · rcases hbc with hbc | ⟨hbc, hnames'⟩
    · exact Or.inl (by omega)
    · exact Or.inr ⟨hab.trans hbc, String.lt_trans hnames hnames'⟩

/-- The place in the order and the name determine a key. -/
theorem eq_of_rank_of_name {a b : AttributeKey} (hrank : a.rank = b.rank)
    (hname : a.name = b.name) : a = b := by
  cases a <;> cases b <;> simp_all [rank, name]

/-- Of two keys one comes first. -/
theorem precedes_of_not_precedes {a b : AttributeKey} (hne : a ≠ b)
    (h : ¬ a.precedes b = true) : b.precedes a = true := by
  rw [precedes_iff] at h ⊢
  by_cases hrank : a.rank = b.rank
  · refine Or.inr ⟨hrank.symm, ?_⟩
    by_cases hname : b.name < a.name
    · exact hname
    · have hle : ¬ a.name < b.name := fun hlt => h (Or.inr ⟨hrank, hlt⟩)
      exact absurd (eq_of_rank_of_name hrank (String.le_antisymm hname hle)) hne
  · exact Or.inl (by omega)

end AttributeKey

/-- The keys increase along the list. -/
def KeysIncrease (entries : List (AttributeKey × AttributeValue)) : Prop :=
  entries.Pairwise fun a b => a.1.precedes b.1 = true

/-- Values by key, in the order of the keys. -/
structure Attributes where
  entries : List (AttributeKey × AttributeValue)
  sorted : KeysIncrease entries

namespace Attributes

/-- No values. -/
def empty : Attributes :=
  ⟨[], .nil⟩

instance : Inhabited Attributes := ⟨empty⟩

/-- Put an entry at its place, in place of one with the same key. -/
def insertEntry (key : AttributeKey) (value : AttributeValue) :
    List (AttributeKey × AttributeValue) → List (AttributeKey × AttributeValue)
  | [] => [(key, value)]
  | entry :: rest =>
    if key = entry.1 then (key, value) :: rest
    else if key.precedes entry.1 then (key, value) :: entry :: rest
    else entry :: insertEntry key value rest

/-- An inserted list holds the new entry and no others but its own. -/
theorem mem_insertEntry {key : AttributeKey} {value : AttributeValue}
    {e : AttributeKey × AttributeValue} {entries : List (AttributeKey × AttributeValue)}
    (h : e ∈ insertEntry key value entries) : e = (key, value) ∨ e ∈ entries := by
  induction entries with
  | nil => simpa [insertEntry] using h
  | cons entry rest ih =>
    simp only [insertEntry] at h
    split at h
    · exact (List.mem_cons.mp h).imp_right (List.mem_cons_of_mem _)
    · split at h
      · exact List.mem_cons.mp h
      · rcases List.mem_cons.mp h with h | h
        · exact Or.inr (by simp [h])
        · exact (ih h).imp_right (List.mem_cons_of_mem _)

/-- Insertion keeps the keys increasing. -/
theorem keysIncrease_insertEntry (key : AttributeKey) (value : AttributeValue)
    {entries : List (AttributeKey × AttributeValue)} (h : KeysIncrease entries) :
    KeysIncrease (insertEntry key value entries) := by
  induction entries with
  | nil => simp [insertEntry, KeysIncrease]
  | cons entry rest ih =>
    obtain ⟨hlater, hrest⟩ := List.pairwise_cons.mp h
    simp only [insertEntry]
    split
    · rename_i heq
      exact List.pairwise_cons.mpr ⟨fun e he => heq ▸ hlater e he, hrest⟩
    · rename_i hne
      split
      · rename_i hfirst
        refine List.pairwise_cons.mpr ⟨fun e he => ?_, h⟩
        rcases List.mem_cons.mp he with rfl | he
        · exact hfirst
        · exact AttributeKey.precedes_trans hfirst (hlater e he)
      · rename_i hnot
        refine List.pairwise_cons.mpr ⟨fun e he => ?_, ih hrest⟩
        rcases mem_insertEntry he with rfl | he
        · exact AttributeKey.precedes_of_not_precedes hne hnot
        · exact hlater e he

/-- Set a value. -/
def insert (attributes : Attributes) (key : AttributeKey) (value : AttributeValue) : Attributes :=
  ⟨insertEntry key value attributes.entries, keysIncrease_insertEntry key value attributes.sorted⟩

/-- The values of a list; a later one replaces an earlier one. -/
def ofList (entries : List (AttributeKey × AttributeValue)) : Attributes :=
  entries.foldl (fun attributes entry => attributes.insert entry.1 entry.2) empty

/-- The value under a key. -/
def get? (attributes : Attributes) (key : AttributeKey) : Option AttributeValue :=
  attributes.entries.lookup key

/-- There is a value under the key. -/
def contains (attributes : Attributes) (key : AttributeKey) : Bool :=
  (attributes.get? key).isSome

/-- The keys, in order. -/
def keys (attributes : Attributes) : List AttributeKey :=
  attributes.entries.map (·.1)

/-- Set the values of another list. -/
def apply (attributes updates : Attributes) : Attributes :=
  updates.entries.foldl (fun attributes entry => attributes.insert entry.1 entry.2) attributes

/-- The three values of a graph. -/
def ofGraph (graph : CodeGraph) : Attributes :=
  .ofList [(.components, .components graph.components), (.files, .files graph.files),
    (.externalSymbols, .externalSymbols graph.externalSymbols)]

end Attributes

end CodeAtlas
