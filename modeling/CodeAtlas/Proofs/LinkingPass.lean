import CodeAtlas.Proofs.ExternalIds
import Mathlib.Algebra.GroupWithZero.Nat

/-!
# What a pass of linking does, counted

A pass goes through the references of many components with one table of external symbols. The table
at its end is that of its beginning, with one identifier from the supply for each name that was
missing, in the order in which the names are met. The counts of a pass are taken while the lists
grow, each on a branch of its own; they are the lengths of the lists and the growth of the table. A
second pass finds every name in the table, so it changes nothing.

## Main definitions

* `Externals.newNames`: the names that get an identifier when names are interned.
* `Linking.Counted`: the counts describe the lists and the table.

## Main results

* `Externals.get?_internAll`: the table after names were interned, name by name.
* `Linking.counted_addReference`, `Linking.counted_foldl`: the counts after each reference.
* `linkAll_exact`: a pass gives what the references say, and a second one changes nothing.
-/

namespace CodeAtlas

open Text (firstOccurrences mem_firstOccurrences)

theorem Text.firstOccurrences_cons {α : Type} [BEq α] [LawfulBEq α] (x : α) (xs : List α) :
    firstOccurrences (x :: xs) = x :: firstOccurrences (xs.filter fun y => !(y == x)) := by
  rw [firstOccurrences_eq_firsts, Keyed.firsts_cons, ← filter_firstOccurrences,
    firstOccurrences_eq_firsts]
  rfl

/-! ### The names that are entered -/

private theorem length_insertEntry {entries : List (String × ExternalId)} {name : String}
    (id : ExternalId) (h : entries.lookup name = none) :
    (SymbolTable.insertEntry name id entries).length = entries.length + 1 := by
  induction entries with
  | nil => rfl
  | cons entry rest ih =>
    have hne : name ≠ entry.1 := by
      rintro rfl
      simp at h
    have hbeq : (name == entry.1) = false := by simpa using hne
    rw [List.lookup_cons, hbeq] at h
    simp only [SymbolTable.insertEntry, if_neg hne]
    split
    · rfl
    · rw [List.length_cons, List.length_cons, ih h]

/-- A name that is missing makes the table longer by one. -/
theorem SymbolTable.size_insert {table : SymbolTable} {name : String} (id : ExternalId)
    (h : table.get? name = none) : (table.insert name id).size = table.size + 1 :=
  length_insertEntry id h

namespace Externals

/-- The names among some that the table lacks, each once and in order. -/
def newNames (ext : Externals) (names : List String) : List String :=
  firstOccurrences (names.filter fun name => !ext.table.contains name)

theorem mem_newNames {ext : Externals} {names : List String} {name : String} :
    name ∈ ext.newNames names ↔ name ∈ names ∧ ext.table.get? name = none := by
  simp [newNames, mem_firstOccurrences, SymbolTable.contains]

/-- A name that the table has is not new. -/
theorem newNames_cons_of_some {ext : Externals} {name : String} {id : ExternalId}
    (h : ext.table.get? name = some id) (names : List String) :
    ext.newNames (name :: names) = ext.newNames names := by
  simp [newNames, SymbolTable.contains, h]

/-- A name that the table lacks is new, and those after it are new to the table that has it. -/
theorem newNames_cons_of_none {ext : Externals} {name : String} (h : ext.table.get? name = none)
    (names : List String) :
    ext.newNames (name :: names) = name :: (ext.intern name).2.newNames names := by
  have hlacks : (!ext.table.contains name) = true := by simp [SymbolTable.contains, h]
  rw [newNames, List.filter_cons, if_pos hlacks, Text.firstOccurrences_cons, List.filter_filter,
    newNames]
  congr 2
  refine List.filter_congr fun other _ => ?_
  rw [Bool.eq_iff_iff]
  simp only [Bool.and_eq_true, Bool.not_eq_true', ← Bool.not_eq_true, contains_intern, not_or,
    beq_iff_eq]
  exact and_comm

/-- The table grows by the new names. -/
theorem size_internAll (ext : Externals) (names : List String) :
    (ext.internAll names).table.size = ext.table.size + (ext.newNames names).length := by
  induction names generalizing ext with
  | nil => rfl
  | cons name names ih =>
    rw [internAll_cons, ih]
    cases h : ext.table.get? name with
    | some id => rw [newNames_cons_of_some h, intern_of_some h]
    | none =>
      have hsize := SymbolTable.size_insert ext.supply.mint.1 h
      rw [newNames_cons_of_none h, List.length_cons, intern_of_none h, hsize]
      omega

/-- Each name keeps its identifier, or gets the one of its place among the new names. -/
theorem get?_internAll (ext : Externals) (names : List String) (n : String) :
    (ext.internAll names).table.get? n =
      (ext.table.get? n).or (((ext.newNames names).idxOf? n).map fun place =>
        IdSupply.ident (ext.supply.next + place)) := by
  induction names generalizing ext with
  | nil => simp [newNames, firstOccurrences]
  | cons name names ih =>
    rw [internAll_cons, ih]
    cases h : ext.table.get? name with
    | some id => rw [newNames_cons_of_some h, intern_of_some h]
    | none =>
      rw [newNames_cons_of_none h, List.idxOf?_cons, intern_of_none h]
      simp only [SymbolTable.get?_insert, h, and_true, IdSupply.mint]
      by_cases hn : n = name
      · simp [hn, h]
      · have hne : (name == n) = false := by simpa using fun heq : name = n => hn heq.symm
        simp only [if_neg hn, hne, Bool.false_eq_true, ↓reduceIte, Option.map_map]
        congr 2
        funext place
        simp only [Function.comp_apply]
        congr 1
        omega

/-- A new name has an identifier of its own, if the table has none that the supply has still to
give. -/
theorem eq_of_get?_internAll_eq {ext : Externals} {names : List String}
    (hspared : ∀ n, ext.supply.next ≤ n → ∀ name, ext.table.get? name ≠ some (IdSupply.ident n))
    {name other : String} (hname : name ∈ ext.newNames names)
    (h : (ext.internAll names).table.get? other = (ext.internAll names).table.get? name) :
    other = name := by
  obtain ⟨place, hplace⟩ :=
    Option.isSome_iff_exists.mp (List.isSome_idxOf?.mpr hname)
  rw [get?_internAll, get?_internAll, (mem_newNames.mp hname).2, hplace, Option.none_or,
    Option.map_some] at h
  cases hother : ext.table.get? other with
  | some id =>
    rw [hother, Option.some_or] at h
    exact absurd (hother.trans h) (hspared _ (Nat.le_add_right _ _) other)
  | none =>
    rw [hother, Option.none_or] at h
    obtain ⟨place', hplace', hident⟩ := Option.map_eq_some_iff.mp h
    have hsame : place' = place := by
      have := IdSupply.ident_injective hident
      omega
    rw [hsame] at hplace'
    obtain ⟨_, hat', -⟩ := List.idxOf?_eq_some_iff.mp hplace'
    obtain ⟨_, hat, -⟩ := List.idxOf?_eq_some_iff.mp hplace
    exact hat'.symm.trans hat

end Externals

/-! ### Counting -/

namespace Linking

/-- The counts are the lengths of the lists, and the growth of the table from the given one. -/
structure Counted (first : SymbolTable) (state : Linking) : Prop where
  internal : state.stats.internalLinks = state.linkedIds.length
  external : state.stats.externalLinks = state.externalIds.length
  grown : state.externals.table.size = first.size + state.stats.newExternalSymbols

theorem counted_start (externals : Externals) : Counted externals.table (.start externals) where
  internal := rfl
  external := rfl
  grown := rfl

variable {first : SymbolTable} {state : Linking}

theorem counted_addInternal (h : Counted first state) (target : ComponentId) :
    Counted first (state.addInternal target) := by
  unfold addInternal
  split
  · exact h
  · exact ⟨by simp [h.internal], h.external, h.grown⟩

/-- The table grows when the name is counted as new. -/
private theorem size_intern (externals : Externals) (symbol : String) :
    (externals.intern symbol).2.table.size =
      externals.table.size + if externals.table.contains symbol then 0 else 1 := by
  cases h : externals.table.get? symbol with
  | some id => simp [Externals.intern_of_some h, SymbolTable.contains, h]
  | none => simp [Externals.intern_of_none h, SymbolTable.contains, h, SymbolTable.size_insert _ h]

theorem counted_addExternal (h : Counted first state) (symbol : String) :
    Counted first (state.addExternal symbol) := by
  have hsize := size_intern state.externals symbol
  have hgrown := h.grown
  unfold addExternal
  cases hcontains : state.externals.table.contains symbol with
  | true =>
    simp only [hcontains, ↓reduceIte, Bool.not_true, Bool.false_eq_true] at hsize ⊢
    split
    · exact ⟨h.internal, h.external, by simp only; omega⟩
    · exact ⟨h.internal, by simp [h.external], by simp only; omega⟩
  | false =>
    simp only [hcontains, ↓reduceIte, Bool.not_false, Bool.false_eq_true] at hsize ⊢
    split
    · exact ⟨h.internal, h.external, by simp only; omega⟩
    · exact ⟨h.internal, by simp [h.external], by simp only; omega⟩

theorem counted_addReference (h : Counted first state) (known : NameTable) (self : ComponentId)
    (symbol : String) : Counted first (addReference known self state symbol) := by
  unfold addReference
  split
  · split
    · exact h
    · exact counted_addInternal h _
  · exact counted_addExternal h symbol

theorem counted_foldl (h : Counted first state) (known : NameTable) (self : ComponentId)
    (references : List String) :
    Counted first (references.foldl (addReference known self) state) := by
  induction references generalizing state with
  | nil => exact h
  | cons symbol rest ih => exact ih (counted_addReference h known self symbol)

end Linking

/-- The counts describe components that were linked while one table became another. -/
structure LinkStats.Describes (stats : LinkStats) (linked : List Component)
    (first last : SymbolTable) : Prop where
  internal : stats.internalLinks = (linked.map (·.linkedIds.length)).sum
  external : stats.externalLinks = (linked.map (·.externalIds.length)).sum
  grown : last.size = first.size + stats.newExternalSymbols

/-- The counts of components that are linked one after the other add up. -/
theorem LinkStats.Describes.add {stats more : LinkStats} {linked others : List Component}
    {first middle last : SymbolTable} (h : stats.Describes linked first middle)
    (h' : more.Describes others middle last) :
    (stats.add more).Describes (linked ++ others) first last where
  internal := by simp [LinkStats.add, h.internal, h'.internal]
  external := by simp [LinkStats.add, h.external, h'.external]
  grown := by
    have := h.grown
    have := h'.grown
    simp only [LinkStats.add]
    omega

theorem describes_link (known : NameTable) (externals : Externals) (c : Component) :
    (link known externals c).2.2.Describes [(link known externals c).1] externals.table
      (link known externals c).2.1.table := by
  have h := Linking.counted_foldl (Linking.counted_start externals) known c.id c.referencedSymbols
  exact ⟨h.internal, h.external, h.grown⟩

/-- The counts of a pass. -/
theorem describes_linkAll (known : NameTable) (externals : Externals)
    (components : List Component) :
    (linkAll known externals components).2.2.Describes (linkAll known externals components).1
      externals.table (linkAll known externals components).2.1.table := by
  induction components generalizing externals with
  | nil => exact ⟨rfl, rfl, rfl⟩
  | cons c rest ih => exact (describes_link known externals c).add (ih _)

/-! ### The pass -/

/-- Linking a second time finds all names in the table, so it changes nothing and counts no name as
new. -/
theorem linkAll_again {known : NameTable} {externals after : Externals}
    {components linked : List Component} {stats : LinkStats}
    (h : linkAll known externals components = (linked, after, stats)) :
    linkAll known after linked = (linked, after, { stats with newExternalSymbols := 0 }) := by
  have hlinked : linked = components.map (Component.linkedBy known after.table) := by
    simpa only [h] using linkAll_fst known externals components
  have hafter : after =
      externals.internAll (components.flatMap fun c => unknownNames known c.referencedSymbols) := by
    simpa only [h] using linkAll_externals known externals components
  have hnames : (linked.flatMap fun c => unknownNames known c.referencedSymbols) =
      components.flatMap fun c => unknownNames known c.referencedSymbols := by
    rw [hlinked, List.flatMap_map]
    rfl
  have hexternals : (linkAll known after linked).2.1 = after := by
    rw [linkAll_externals, hnames]
    refine Externals.internAll_of_contains fun name hname => ?_
    rw [hafter, Externals.contains_internAll]
    exact Or.inr hname
  have hcomponents : (linkAll known after linked).1 = linked := by
    rw [linkAll_fst, hexternals]
    conv_lhs => rw [hlinked, List.map_map]
    exact hlinked.symm
  have hstats : stats.Describes linked externals.table after.table := by
    simpa only [h] using describes_linkAll known externals components
  have hagain := describes_linkAll known after linked
  rw [hcomponents, hexternals] at hagain
  refine Prod.ext hcomponents (Prod.ext hexternals ?_)
  have hnone : (linkAll known after linked).2.2.newExternalSymbols = 0 := by
    have := hagain.grown
    omega
  have hinternal := hagain.internal.trans hstats.internal.symm
  have hexternal := hagain.external.trans hstats.external.symm
  cases hcounts : (linkAll known after linked).2.2 with
  | mk internalLinks externalLinks newExternalSymbols =>
    rw [hcounts] at hnone hinternal hexternal
    simp only at hnone hinternal hexternal
    rw [hnone, hinternal, hexternal]

/-- What a pass does, whatever the components were linked to before. The links of a component are
the known identifiers of its references other than its own, its external edges are the identifiers
that the table has at the end for the references nobody knows, each once and in order, and the rest
of it is the same. The table has each name it had, and one identifier from the supply for each name
that is referred to, not known and not in the table; no other name has that identifier, if the table
had none that the supply has still to give. The counts are the lengths of the lists and the growth
of the table, and a second pass changes nothing and counts no name as new. -/
theorem linkAll_exact (known : NameTable) (externals : Externals) (components : List Component) :
    let pass := linkAll known externals components
    let linked := pass.1
    let after := pass.2.1
    let stats := pass.2.2
    let added := externals.newNames
      (components.flatMap fun c => unknownNames known c.referencedSymbols)
    linked = components.map (Component.linkedBy known after.table) ∧
    (∀ name, name ∈ added ↔ (∃ c ∈ components, name ∈ c.referencedSymbols) ∧
      known.find? name = none ∧ externals.table.get? name = none) ∧
    (∀ name, after.table.get? name = (externals.table.get? name).or
      ((added.idxOf? name).map fun place => IdSupply.ident (externals.supply.next + place))) ∧
    ((∀ n, externals.supply.next ≤ n →
        ∀ name, externals.table.get? name ≠ some (IdSupply.ident n)) →
      ∀ name ∈ added, ∀ other, after.table.get? other = after.table.get? name → other = name) ∧
    stats.internalLinks = (linked.map (·.linkedIds.length)).sum ∧
    stats.externalLinks = (linked.map (·.externalIds.length)).sum ∧
    after.table.size = externals.table.size + stats.newExternalSymbols ∧
    stats.newExternalSymbols = added.length ∧
    linkAll known after linked = (linked, after, { stats with newExternalSymbols := 0 }) := by
  intro pass linked after stats added
  have hafter : after =
      externals.internAll (components.flatMap fun c => unknownNames known c.referencedSymbols) :=
    linkAll_externals known externals components
  have hcounts : stats.Describes linked externals.table after.table :=
    describes_linkAll known externals components
  have hsize : after.table.size = externals.table.size + added.length := by
    rw [hafter]
    exact Externals.size_internAll _ _
  refine ⟨linkAll_fst known externals components, fun name => ?_, fun name => ?_, fun hspared => ?_,
    hcounts.internal, hcounts.external, hcounts.grown, ?_, linkAll_again rfl⟩
  · simp only [added, Externals.mem_newNames, List.mem_flatMap, unknownNames, List.mem_filter,
      Option.isNone_iff_eq_none]
    constructor
    · rintro ⟨⟨c, hc, hname, hunknown⟩, hlacks⟩
      exact ⟨⟨c, hc, hname⟩, hunknown, hlacks⟩
    · rintro ⟨⟨c, hc, hname⟩, hunknown, hlacks⟩
      exact ⟨⟨c, hc, hname, hunknown⟩, hlacks⟩
  · rw [hafter]
    exact Externals.get?_internAll _ _ _
  · intro name hname other hsame
    rw [hafter] at hsame
    exact Externals.eq_of_get?_internAll_eq hspared hname hsame
  · have := hcounts.grown
    omega

/-! ### Components that share names -/

namespace LinkingSample

/-- Two names for one component. -/
def known : NameTable :=
  [("m.f", "f"), ("m.g", "g"), ("n.g", "g")]

/-- Two external names with one identifier, and a supply that has given seven. -/
def externals : Externals :=
  ⟨.ofList [("close", "old"), ("open", "old")], ⟨7⟩⟩

/-- A component that refers to itself, twice to another one and twice to a new name, and has a link
from before. -/
def caller : Component :=
  ⟨"f", "m.f", "", .function, "file", none, [], ["gone"], [],
    ["n.g", "m.f", "m.g", "print", "open", "print", "close"]⟩

/-- A component that refers to the first one. -/
def callee : Component :=
  ⟨"g", "m.g", "", .function, "file", none, [], [], ["gone"], ["open", "m.f", "print"]⟩

/-- No number gives the identifier that the table has. -/
private theorem ident_ne_old (n : Nat) : IdSupply.ident n ≠ "old" := by
  intro h
  have hident : IdSupply.ident n =
      "00000000-0000-4000-8000-" ++ String.ofList (IdSupply.digits n) := rfl
  have hlead : "00000000-0000-4000-8000-".utf8ByteSize = 24 := by decide +kernel
  have hold : "old".utf8ByteSize = 3 := by decide +kernel
  have hsize := congrArg String.utf8ByteSize (hident.symm.trans h)
  rw [String.utf8ByteSize_append, hlead] at hsize
  omega

theorem linkAll_exact_sample :
    let pass := linkAll known externals [caller, callee]
    pass.2.2 = ⟨2, 4, 1⟩ ∧
    pass.1.map (·.linkedIds) = [["g"], ["f"]] ∧
    pass.1.map (·.externalIds) =
      [[IdSupply.ident 7, "old"], ["old", IdSupply.ident 7]] ∧
    (∀ other, pass.2.1.table.get? other = pass.2.1.table.get? "print" → other = "print") ∧
    linkAll known pass.2.1 pass.1 = (pass.1, pass.2.1, ⟨2, 4, 0⟩) := by
  obtain ⟨-, hadded, -, hfresh, -, -, -, -, hagain⟩ :=
    linkAll_exact known externals [caller, callee]
  have hstats : (linkAll known externals [caller, callee]).2.2 = ⟨2, 4, 1⟩ := by decide +kernel
  rw [hstats] at hagain
  refine ⟨hstats, by decide +kernel, by decide +kernel, ?_, hagain⟩
  refine hfresh (fun n _ name hname => ?_) "print" ((hadded "print").mpr (by decide +kernel))
  have hids : ∀ entry ∈ externals.table.entries, entry.2 = "old" := by decide +kernel
  exact ident_ne_old n (hids _ (mem_of_lookup_eq_some hname))

end LinkingSample

end CodeAtlas
