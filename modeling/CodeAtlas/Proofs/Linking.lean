import CodeAtlas.Proofs.KeyedLists
import CodeAtlas.Proofs.SymbolTable

/-!
# What linking gives

The links of a component are the known identifiers of its references other than its own, each once
and in the order of the references. Its external edges are the identifiers that the table holds, in
the end, for the references nobody knows. Both depend on nothing but the references, the known names
and the table, so earlier links have no influence.

## Main results

* `link_fst`, `linkAll_fst`: the linked components, from the table after linking.
* `link_externals`, `linkAll_externals`: the table after linking, by the names interned.
-/

namespace CodeAtlas

open Text (firstOccurrences mem_firstOccurrences nodup_firstOccurrences)

/-- The known targets of some references, without the component itself, each once. -/
def internalTargets (known : NameTable) (self : ComponentId) (references : List String) :
    List ComponentId :=
  firstOccurrences (references.filterMap fun symbol =>
    (known.find? symbol).filter (· != self))

/-- The references that no known name answers. -/
def unknownNames (known : NameTable) (references : List String) : List String :=
  references.filter fun symbol => (known.find? symbol).isNone

/-- The identifier of a name in a table that holds it. -/
def SymbolTable.idOf (table : SymbolTable) (name : String) : ExternalId :=
  (table.get? name).getD ""

/-- The identifiers of the unknown references in a table, each once. -/
def externalTargets (known : NameTable) (table : SymbolTable) (references : List String) :
    List ExternalId :=
  firstOccurrences ((unknownNames known references).map table.idOf)

/-- The component with its links looked up. -/
def Component.linkedBy (known : NameTable) (table : SymbolTable) (c : Component) : Component :=
  { c with
    linkedIds := internalTargets known c.id c.referencedSymbols
    externalIds := externalTargets known table c.referencedSymbols }

/-! ### Known names -/

namespace NameTable

theorem find?_override (older newer : NameTable) (name : String) :
    (older.override newer).find? name = (newer.find? name).or (older.find? name) :=
  List.lookup_append

/-- A name in the table of some components stands for one of them. -/
theorem exists_of_find?_ofPairs {components : List Component} {name : String}
    {target : ComponentId}
    (h : find? (ofPairs (components.map fun c => (c.qualifiedName, c.id))) name = some target) :
    ∃ c ∈ components, c.qualifiedName = name ∧ c.id = target := by
  obtain ⟨c, hc, heq⟩ := List.mem_map.mp (List.mem_reverse.mp (mem_of_lookup_eq_some h))
  exact ⟨c, hc, congrArg Prod.fst heq, congrArg Prod.snd heq⟩

end NameTable

/-! ### Targets -/

theorem mem_internalTargets {known : NameTable} {self target : ComponentId}
    {references : List String} :
    target ∈ internalTargets known self references ↔
      target ≠ self ∧ ∃ symbol ∈ references, known.find? symbol = some target := by
  simp only [internalTargets, mem_firstOccurrences, List.mem_filterMap, Option.filter_eq_some_iff,
    bne_iff_ne]
  constructor
  · rintro ⟨symbol, hsymbol, hknown, hne⟩
    exact ⟨hne, symbol, hsymbol, hknown⟩
  · rintro ⟨hne, symbol, hsymbol, hknown⟩
    exact ⟨symbol, hsymbol, hknown, hne⟩

theorem nodup_internalTargets (known : NameTable) (self : ComponentId) (references : List String) :
    (internalTargets known self references).Nodup :=
  nodup_firstOccurrences _

/-- Tables that agree on the names give the same targets. -/
theorem internalTargets_congr {known known' : NameTable} (h : ∀ n, known.find? n = known'.find? n)
    (self : ComponentId) (references : List String) :
    internalTargets known self references = internalTargets known' self references := by
  simp only [internalTargets, h]

/-- The targets with a property are those of the names whose identifiers have it. -/
theorem filter_internalTargets (known : NameTable) (p : ComponentId → Bool) (self : ComponentId)
    (references : List String) :
    (internalTargets known self references).filter p =
      firstOccurrences (references.filterMap fun symbol =>
        ((known.find? symbol).filter p).filter (· != self)) := by
  rw [internalTargets, Text.filter_firstOccurrences, List.filter_filterMap]
  congr 2
  funext symbol
  rw [Option.filter_filter, Option.filter_filter]
  simp only [Bool.and_comm]

/-- Tables that agree on the names of some identifiers give the same targets among these. -/
theorem filter_internalTargets_congr {known known' : NameTable} {p : ComponentId → Bool}
    (h : ∀ n, (known.find? n).filter p = (known'.find? n).filter p) (self : ComponentId)
    (references : List String) :
    (internalTargets known self references).filter p =
      (internalTargets known' self references).filter p := by
  rw [filter_internalTargets, filter_internalTargets]
  simp only [h]

theorem unknownNames_congr {known known' : NameTable} (h : ∀ n, known.find? n = known'.find? n)
    (references : List String) : unknownNames known references = unknownNames known' references := by
  simp only [unknownNames, h]

/-- A later table gives the same external targets, when the earlier one holds all the names. -/
theorem externalTargets_of_grows {known : NameTable} {table table' : SymbolTable}
    (h : SymbolTable.Grows table table') {references : List String}
    (hnames : ∀ name ∈ unknownNames known references, table.contains name = true) :
    externalTargets known table' references = externalTargets known table references := by
  unfold externalTargets
  congr 1
  refine List.map_congr_left fun name hname => ?_
  obtain ⟨id, hid⟩ := Option.isSome_iff_exists.mp (hnames name hname)
  rw [SymbolTable.idOf, SymbolTable.idOf, h name id hid, hid]

/-! ### One reference after the other -/

/-- Append an entry unless it is there. -/
private def addOnce (kept : List String) (x : String) : List String :=
  if kept.contains x then kept else kept ++ [x]

namespace Linking

private theorem linkedIds_addReference (known : NameTable) (self : ComponentId) (state : Linking)
    (symbol : String) :
    (addReference known self state symbol).linkedIds =
      (((known.find? symbol).filter (· != self)).toList).foldl addOnce state.linkedIds := by
  unfold addReference
  cases known.find? symbol with
  | none =>
    simp only [addExternal]
    split <;> rfl
  | some target =>
    by_cases hself : target = self
    · subst hself
      simp [Option.filter]
    · simp only [hself, ↓reduceIte, addInternal, Option.filter_some, bne_iff_ne, ne_eq,
        not_false_eq_true, Option.toList_some, List.foldl_cons, List.foldl_nil, addOnce]
      split <;> rfl

private theorem externals_addReference (known : NameTable) (self : ComponentId) (state : Linking)
    (symbol : String) :
    (addReference known self state symbol).externals =
      state.externals.internAll (unknownNames known [symbol]) := by
  unfold addReference
  cases hknown : known.find? symbol with
  | none =>
    simp only [addExternal, unknownNames, List.filter_cons, hknown, Option.isNone_none, ↓reduceIte,
      List.filter_nil, Externals.internAll_cons, Externals.internAll_nil]
    split <;> rfl
  | some target =>
    simp only [unknownNames, List.filter_cons, hknown, Option.isNone_some, Bool.false_eq_true,
      ↓reduceIte, List.filter_nil, Externals.internAll_nil]
    split
    · rfl
    · rw [addInternal]
      split <;> rfl

private theorem externalIds_addReference (known : NameTable) (self : ComponentId) (state : Linking)
    (symbol : String) :
    (addReference known self state symbol).externalIds =
      ((unknownNames known [symbol]).map
        (addReference known self state symbol).externals.table.idOf).foldl
          addOnce state.externalIds := by
  cases hknown : known.find? symbol with
  | none =>
    have hid : (addReference known self state symbol).externals.table.idOf symbol =
        (state.externals.intern symbol).1 := by
      rw [externals_addReference, unknownNames, List.filter_cons, hknown]
      exact congrArg (Option.getD · "") (Externals.get?_intern state.externals symbol)
    simp only [unknownNames, List.filter_cons, hknown, Option.isNone_none, ↓reduceIte,
      List.filter_nil, List.map_cons, List.map_nil, List.foldl_cons, List.foldl_nil, hid]
    simp only [addReference, hknown, addExternal, addOnce]
    split <;> rfl
  | some target =>
    simp only [unknownNames, List.filter_cons, hknown, Option.isNone_some, Bool.false_eq_true,
      ↓reduceIte, List.filter_nil, List.map_nil, List.foldl_nil, addReference]
    split
    · rfl
    · rw [addInternal]
      split <;> rfl

private theorem linkedIds_foldl (known : NameTable) (self : ComponentId) (state : Linking)
    (references : List String) :
    (references.foldl (addReference known self) state).linkedIds =
      (references.filterMap fun symbol => (known.find? symbol).filter (· != self)).foldl
        addOnce state.linkedIds := by
  induction references generalizing state with
  | nil => rfl
  | cons symbol rest ih =>
    rw [List.foldl_cons, ih, linkedIds_addReference, List.filterMap_cons]
    cases (known.find? symbol).filter (· != self) <;> rfl

private theorem externals_foldl (known : NameTable) (self : ComponentId) (state : Linking)
    (references : List String) :
    (references.foldl (addReference known self) state).externals =
      state.externals.internAll (unknownNames known references) := by
  induction references generalizing state with
  | nil => rfl
  | cons symbol rest ih =>
    rw [List.foldl_cons, ih, externals_addReference, ← Externals.internAll_append]
    simp only [unknownNames, ← List.filter_append, List.singleton_append]

private theorem externalIds_foldl (known : NameTable) (self : ComponentId) (state : Linking)
    (references : List String) :
    (references.foldl (addReference known self) state).externalIds =
      ((unknownNames known references).map
        (references.foldl (addReference known self) state).externals.table.idOf).foldl
          addOnce state.externalIds := by
  induction references generalizing state with
  | nil => rfl
  | cons symbol rest ih =>
    have hnames : unknownNames known (symbol :: rest) =
        unknownNames known [symbol] ++ unknownNames known rest := by
      simp only [unknownNames, ← List.filter_append, List.singleton_append]
    rw [List.foldl_cons, ih, externalIds_addReference, hnames, List.map_append, List.foldl_append]
    congr 2
    -- The identifier given at this step is still in the last table.
    refine List.map_congr_left fun name hname => ?_
    have hcontains : (addReference known self state symbol).externals.table.contains name = true := by
      rw [externals_addReference, Externals.contains_internAll]
      exact Or.inr hname
    obtain ⟨id, hid⟩ := Option.isSome_iff_exists.mp hcontains
    have hlast := Externals.grows_internAll (addReference known self state symbol).externals
      (unknownNames known rest) name id hid
    rw [← externals_foldl known self] at hlast
    rw [SymbolTable.idOf, SymbolTable.idOf, hid, hlast]

end Linking

/-! ### Components -/

theorem link_externals (known : NameTable) (externals : Externals) (c : Component) :
    (link known externals c).2.1 =
      externals.internAll (unknownNames known c.referencedSymbols) :=
  Linking.externals_foldl known c.id (.start externals) c.referencedSymbols

/-- A linked component has the targets of its references, and the identifiers that the table holds
after linking. -/
theorem link_fst (known : NameTable) (externals : Externals) (c : Component) :
    (link known externals c).1 = c.linkedBy known (link known externals c).2.1.table := by
  have hlinked := Linking.linkedIds_foldl known c.id (.start externals) c.referencedSymbols
  have hexternal := Linking.externalIds_foldl known c.id (.start externals) c.referencedSymbols
  simp only [link, Component.linkedBy, hlinked, hexternal]
  rfl

theorem linkAll_externals (known : NameTable) (externals : Externals) (components : List Component) :
    (linkAll known externals components).2.1 =
      externals.internAll
        (components.flatMap fun c => unknownNames known c.referencedSymbols) := by
  induction components generalizing externals with
  | nil => rfl
  | cons c rest ih =>
    rw [List.flatMap_cons, Externals.internAll_append, ← link_externals, ← ih]
    rfl

/-- Linked components have the targets of their references, and the identifiers that the table
holds after all of them are linked. -/
theorem linkAll_fst (known : NameTable) (externals : Externals) (components : List Component) :
    (linkAll known externals components).1 =
      components.map (Component.linkedBy known (linkAll known externals components).2.1.table) := by
  induction components generalizing externals with
  | nil => rfl
  | cons c rest ih =>
    have hsplit : linkAll known externals (c :: rest) =
        ((link known externals c).1 :: (linkAll known (link known externals c).2.1 rest).1,
          (linkAll known (link known externals c).2.1 rest).2.1,
          (link known externals c).2.2.add (linkAll known (link known externals c).2.1 rest).2.2) :=
      rfl
    rw [hsplit, List.map_cons, ih, link_fst]
    have hgrows := Externals.grows_internAll (link known externals c).2.1
      (rest.flatMap fun c => unknownNames known c.referencedSymbols)
    rw [← linkAll_externals] at hgrows
    simp only [Component.linkedBy]
    rw [externalTargets_of_grows hgrows]
    intro name hname
    rw [link_externals, Externals.contains_internAll]
    exact Or.inr hname

end CodeAtlas
