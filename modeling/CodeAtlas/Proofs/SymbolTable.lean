import CodeAtlas.Link
import Mathlib.Data.List.Basic

/-!
# The table of external symbols grows

Inserting a name changes the identifier of no other name, and none at all if the name is there
already. So interning names one after the other only adds entries, and an identifier that was read
once can be read from every later table.

## Main results

* `SymbolTable.get?_insert`: what is found after an insertion.
* `Externals.internAll`: the table after some names were interned; `Externals.grows_internAll` and
  `Externals.contains_internAll` say what it holds.
-/

namespace CodeAtlas

namespace SymbolTable

theorem lookup_insertEntry {entries : List (String × ExternalId)} (h : NamesIncrease entries)
    (name : String) (id : ExternalId) (n : String) :
    (insertEntry name id entries).lookup n =
      if n = name ∧ entries.lookup name = none then some id else entries.lookup n := by
  induction entries with
  | nil =>
    by_cases hn : n = name
    · simp [insertEntry, hn]
    · have hne : (n == name) = false := by simpa using hn
      simp [insertEntry, List.lookup_cons, hne, hn]
  | cons entry rest ih =>
    obtain ⟨first, value⟩ := entry
    obtain ⟨hlater, hrest⟩ := List.pairwise_cons.mp h
    simp only [insertEntry]
    split
    · -- All names of the list are greater than the new one.
      rename_i hlt
      have hfirst : (name == first) = false := by
        simpa using fun heq : name = first => String.lt_irrefl _ (heq ▸ hlt)
      have hnone : ((first, value) :: rest).lookup name = none := by
        rw [List.lookup_cons, hfirst]
        refine List.lookup_eq_none_iff.mpr fun other hother => ?_
        have hgt := String.lt_trans hlt (hlater other hother)
        simpa using fun heq : name = other.1 => String.lt_irrefl _ (heq ▸ hgt)
      by_cases hn : n = name
      · rw [if_pos ⟨hn, hnone⟩, hn, List.lookup_cons_self]
      · have hne : (n == name) = false := by simpa using hn
        rw [if_neg (fun hand => hn hand.1), List.lookup_cons, hne]
    · split
      · rename_i heq
        rw [if_neg]
        rintro ⟨rfl, hnone⟩
        simp [heq] at hnone
      · rename_i hne
        have hfirst : (name == first) = false := by simpa using hne
        by_cases hn : n = first
        · have hnname : n ≠ name := fun heq => hne (heq ▸ hn)
          rw [if_neg (not_and_of_not_left _ hnname), hn, List.lookup_cons_self,
            List.lookup_cons_self]
        · have hbeq : (n == first) = false := by simpa using hn
          simp only [List.lookup_cons, hbeq, hfirst, ih hrest]

/-- An insertion gives a new name its identifier and changes nothing else. -/
theorem get?_insert (table : SymbolTable) (name : String) (id : ExternalId) (n : String) :
    (table.insert name id).get? n =
      if n = name ∧ table.get? name = none then some id else table.get? n :=
  lookup_insertEntry table.sorted name id n

/-- Every name keeps its identifier. -/
def Grows (table table' : SymbolTable) : Prop :=
  ∀ name id, table.get? name = some id → table'.get? name = some id

theorem Grows.refl (table : SymbolTable) : Grows table table :=
  fun _ _ h => h

theorem Grows.trans {a b c : SymbolTable} (hab : Grows a b) (hbc : Grows b c) : Grows a c :=
  fun name id h => hbc name id (hab name id h)

theorem grows_insert (table : SymbolTable) (name : String) (id : ExternalId) :
    Grows table (table.insert name id) := by
  intro n found hfound
  rw [get?_insert, if_neg, hfound]
  rintro ⟨rfl, hnone⟩
  exact absurd (hnone.symm.trans hfound) (by simp)

end SymbolTable

namespace Externals

open SymbolTable (Grows)

theorem intern_of_some {ext : Externals} {name : String} {id : ExternalId}
    (h : ext.table.get? name = some id) : ext.intern name = (id, ext) := by
  simp only [intern, SymbolTable.getOrMint, h]

theorem intern_of_none {ext : Externals} {name : String} (h : ext.table.get? name = none) :
    ext.intern name = (ext.supply.mint.1, ⟨ext.table.insert name ext.supply.mint.1,
      ext.supply.mint.2⟩) := by
  simp only [intern, SymbolTable.getOrMint, h]

/-- The identifier given is the one the table holds from then on. -/
theorem get?_intern (ext : Externals) (name : String) :
    (ext.intern name).2.table.get? name = some (ext.intern name).1 := by
  cases h : ext.table.get? name with
  | some id => rw [intern_of_some h, h]
  | none => rw [intern_of_none h, SymbolTable.get?_insert, if_pos ⟨rfl, h⟩]

theorem grows_intern (ext : Externals) (name : String) :
    Grows ext.table (ext.intern name).2.table := by
  cases h : ext.table.get? name with
  | some id =>
    rw [intern_of_some h]
    exact Grows.refl _
  | none =>
    rw [intern_of_none h]
    exact SymbolTable.grows_insert _ _ _

/-- Interning adds the name and no other. -/
theorem contains_intern (ext : Externals) (name n : String) :
    (ext.intern name).2.table.contains n = true ↔ ext.table.contains n = true ∨ n = name := by
  cases h : ext.table.get? name with
  | some id =>
    rw [intern_of_some h]
    refine ⟨Or.inl, ?_⟩
    rintro (hn | rfl)
    · exact hn
    · simp [SymbolTable.contains, h]
  | none =>
    rw [intern_of_none h, SymbolTable.contains, SymbolTable.get?_insert]
    by_cases hn : n = name
    · simp [hn, h]
    · simp [hn, SymbolTable.contains]

/-- Intern names one after the other. -/
def internAll (ext : Externals) (names : List String) : Externals :=
  names.foldl (fun ext name => (ext.intern name).2) ext

@[simp] theorem internAll_nil (ext : Externals) : ext.internAll [] = ext := rfl

@[simp] theorem internAll_cons (ext : Externals) (name : String) (names : List String) :
    ext.internAll (name :: names) = (ext.intern name).2.internAll names := rfl

theorem internAll_append (ext : Externals) (names names' : List String) :
    ext.internAll (names ++ names') = (ext.internAll names).internAll names' :=
  List.foldl_append

theorem grows_internAll (ext : Externals) (names : List String) :
    Grows ext.table (ext.internAll names).table := by
  induction names generalizing ext with
  | nil => exact Grows.refl _
  | cons name names ih => exact (grows_intern ext name).trans (ih _)

/-- The table holds the old names and the interned ones. -/
theorem contains_internAll (ext : Externals) (names : List String) (n : String) :
    (ext.internAll names).table.contains n = true ↔ ext.table.contains n = true ∨ n ∈ names := by
  induction names generalizing ext with
  | nil => simp
  | cons name names ih => rw [internAll_cons, ih, contains_intern, List.mem_cons, or_assoc]

/-- Names that the table has leave it as it is. -/
theorem internAll_of_contains {ext : Externals} {names : List String}
    (h : ∀ name ∈ names, ext.table.contains name = true) : ext.internAll names = ext := by
  induction names with
  | nil => rfl
  | cons name rest ih =>
    obtain ⟨hname, hrest⟩ := List.forall_mem_cons.mp h
    obtain ⟨id, hid⟩ := Option.isSome_iff_exists.mp hname
    rw [internAll_cons, intern_of_some hid]
    exact ih hrest

end Externals

end CodeAtlas
