import CodeAtlas.Proofs.Linking

/-!
# External identifiers stand for names

New identifiers come from a supply and spell its numbers, so that no two of them are equal. A table
whose identifiers were all taken from the supply it is kept with therefore never gives one identifier
to two names, and the external edges of a component can be read back as the names they stand for.

## Main results

* `IdSupply.ident_injective`: different numbers give different identifiers.
* `Externals.Fresh.internAll`: interning keeps the identifiers of a table apart.
* `Externals.Fresh.map_nameOf?_externalTargets`: the names that external edges stand for.
-/

namespace CodeAtlas

open Text (firstOccurrences)

/-! ### Numbers and digits -/

namespace IdSupply

private def digitValue (c : Char) : Nat :=
  if c.toNat < 58 then c.toNat - 48 else c.toNat - 87

/-- The number that hexadecimal digits spell. -/
private def digitsValue (ds : List Char) : Nat :=
  ds.foldl (fun value c => 16 * value + digitValue c) 0

private theorem digitValue_digitChar : ∀ n < 16, digitValue (Nat.digitChar n) = n := by
  decide

private theorem digitsValue_append_singleton (ds : List Char) (c : Char) :
    digitsValue (ds ++ [c]) = 16 * digitsValue ds + digitValue c := by
  rw [digitsValue, List.foldl_append]
  rfl

private theorem digitsValue_toDigits (n : Nat) : digitsValue (Nat.toDigits 16 n) = n := by
  induction n using Nat.strongRecOn with
  | ind n ih =>
    rw [Nat.toDigits_eq_if (by decide)]
    split
    · rename_i hlt
      have hdigit := digitValue_digitChar n hlt
      simpa [digitsValue] using hdigit
    · rename_i hle
      rw [digitsValue_append_singleton, ih (n / 16) (by omega),
        digitValue_digitChar (n % 16) (Nat.mod_lt n (by decide))]
      omega

private theorem digitsValue_replicate_append (k : Nat) (ds : List Char) :
    digitsValue (List.replicate k '0' ++ ds) = digitsValue ds := by
  induction k with
  | zero => rfl
  | succ k ih => exact ih

private theorem append_ofList_inj {lead : String} {cs ds : List Char}
    (h : lead ++ String.ofList cs = lead ++ String.ofList ds) : cs = ds := by
  have hchars := congrArg String.toList h
  rw [String.toList_append, String.toList_append, String.toList_ofList, String.toList_ofList]
    at hchars
  exact List.append_cancel_left hchars

/-- Different numbers give different identifiers. -/
theorem ident_injective {m n : Nat} (h : ident m = ident n) : m = n := by
  have hdigits : digits m = digits n := append_ofList_inj h
  have hvalue := congrArg digitsValue hdigits
  simpa only [digits, digitsValue_replicate_append, digitsValue_toDigits] using hvalue

end IdSupply

/-! ### Tables with distinct identifiers -/

theorem SymbolTable.nodup_names (table : SymbolTable) : (table.entries.map Prod.fst).Nodup := by
  refine List.pairwise_map.mpr (table.sorted.imp ?_)
  intro a b hlt heq
  exact String.lt_irrefl _ (heq ▸ hlt)

/-- The entries of a table are what it finds. -/
theorem SymbolTable.get?_of_mem {table : SymbolTable} {name : String} {id : ExternalId}
    (h : (name, id) ∈ table.entries) : table.get? name = some id := by
  refine lookup_eq_some_of_mem h fun id' h' => ?_
  exact congrArg Prod.snd (List.inj_on_of_nodup_map table.nodup_names h' h rfl)

/-- No identifier is that of two names. -/
def SymbolTable.Apart (table : SymbolTable) : Prop :=
  ∀ name name' id, table.get? name = some id → table.get? name' = some id → name = name'

/-- A new identifier keeps the names apart. -/
theorem SymbolTable.Apart.insert {table : SymbolTable} (h : table.Apart) (name : String)
    {id : ExternalId} (hnew : ∀ other, table.get? other ≠ some id) :
    (table.insert name id).Apart := by
  intro n n' found hn hn'
  rw [get?_insert] at hn hn'
  split_ifs at hn hn' with hat hat' hat'
  · rw [hat.1, hat'.1]
  · rw [← Option.some.inj hn] at hn'
    exact absurd hn' (hnew n')
  · rw [← Option.some.inj hn'] at hn
    exact absurd hn (hnew n)
  · exact h n n' found hn hn'

namespace Externals

/-- The identifiers of the table come from the supply, and no two names share one. -/
structure Fresh (ext : Externals) : Prop where
  minted : ∀ name id, ext.table.get? name = some id → ∃ n < ext.supply.next, id = IdSupply.ident n
  injective : ext.table.Apart

theorem fresh_empty (supply : IdSupply) : Fresh ⟨.empty, supply⟩ where
  minted := fun _ _ h => absurd h (by simp [SymbolTable.get?, SymbolTable.empty])
  injective := fun _ _ _ h => absurd h (by simp [SymbolTable.get?, SymbolTable.empty])

/-- A later supply serves as well. -/
theorem Fresh.mono {table : SymbolTable} {supply later : IdSupply}
    (h : Fresh ⟨table, supply⟩) (hle : supply.next ≤ later.next) : Fresh ⟨table, later⟩ where
  minted := fun name id hfound => by
    obtain ⟨n, hn, hid⟩ := h.minted name id hfound
    exact ⟨n, Nat.lt_of_lt_of_le hn hle, hid⟩
  injective := h.injective

theorem Fresh.intern {ext : Externals} (h : ext.Fresh) (name : String) :
    (ext.intern name).2.Fresh := by
  cases hname : ext.table.get? name with
  | some id =>
    rw [intern_of_some hname]
    exact h
  | none =>
    -- The new identifier has a number that the supply has not given out before.
    have hnew : ∀ other, ext.table.get? other ≠ some (IdSupply.ident ext.supply.next) := by
      intro other hother
      obtain ⟨n, hn, heq⟩ := h.minted other _ hother
      exact absurd (IdSupply.ident_injective heq) (by omega)
    rw [intern_of_none hname]
    refine ⟨fun n id hid => ?_, h.injective.insert name hnew⟩
    rw [SymbolTable.get?_insert] at hid
    split_ifs at hid
    · exact ⟨ext.supply.next, Nat.lt_succ_self _, (Option.some.inj hid).symm⟩
    · obtain ⟨number, hlt, heq⟩ := h.minted n id hid
      exact ⟨number, Nat.lt_succ_of_lt hlt, heq⟩

/-- Interning keeps the identifiers apart. -/
theorem Fresh.internAll {ext : Externals} (h : ext.Fresh) (names : List String) :
    (ext.internAll names).Fresh := by
  induction names generalizing ext with
  | nil => exact h
  | cons name names ih => exact ih (h.intern name)

/-- A name is read back from its identifier. -/
theorem Fresh.nameOf?_idOf {ext : Externals} (h : ext.Fresh) {name : String}
    (hname : ext.table.contains name = true) :
    ext.table.nameOf? (ext.table.idOf name) = some name := by
  obtain ⟨id, hid⟩ := Option.isSome_iff_exists.mp hname
  have hidOf : ext.table.idOf name = id := by rw [SymbolTable.idOf, hid, Option.getD_some]
  have hfound : (ext.table.entries.find? fun entry => entry.2 == id).isSome = true :=
    List.find?_isSome.mpr ⟨(name, id), mem_of_lookup_eq_some hid, beq_self_eq_true id⟩
  obtain ⟨⟨other, id'⟩, hother⟩ := Option.isSome_iff_exists.mp hfound
  have hsame := List.find?_some hother
  obtain rfl : id' = id := beq_iff_eq.mp hsame
  have hget : ext.table.get? other = some id' :=
    SymbolTable.get?_of_mem (List.mem_of_find?_eq_some hother)
  rw [SymbolTable.nameOf?, hidOf, hother, Option.map_some, h.injective other name id' hget hid]

end Externals

/-! ### Reading external edges back -/

/-- The first occurrences of images under a map that keeps the entries apart. -/
theorem Text.firstOccurrences_map {α β : Type} [BEq α] [LawfulBEq α] [BEq β] [LawfulBEq β]
    {f : α → β} {xs : List α} (h : ∀ x ∈ xs, ∀ y ∈ xs, f x = f y → x = y) :
    firstOccurrences (xs.map f) = (firstOccurrences xs).map f := by
  induction xs using List.reverseRecOn with
  | nil => rfl
  | append_singleton xs x ih =>
    have hxs := ih fun y hy z hz => h y (List.mem_append_left _ hy) z (List.mem_append_left _ hz)
    simp only [firstOccurrences_eq_firsts, List.map_append, List.map_singleton,
      Keyed.firsts_append_singleton] at hxs ⊢
    rw [hxs, List.any_map]
    have hany : (Keyed.firsts id xs).any ((fun y => id y == id (f x)) ∘ f) =
        (Keyed.firsts id xs).any fun y => id y == id x := by
      rw [Bool.eq_iff_iff, List.any_eq_true, List.any_eq_true]
      refine exists_congr fun y => and_congr_right fun hy => ?_
      have hmem := List.mem_append_left [x] ((Keyed.firsts_sublist id xs).subset hy)
      simp only [Function.comp_apply, id, beq_iff_eq]
      exact ⟨h y hmem x (by simp), congrArg f⟩
    rw [hany]
    split
    · rfl
    · rw [List.map_append, List.map_singleton]

/-- The external edges of a component stand for the references that nobody knows, each once. -/
theorem Externals.Fresh.map_nameOf?_externalTargets {ext : Externals} (h : ext.Fresh)
    {known : NameTable} {references : List String}
    (hnames : ∀ name ∈ unknownNames known references, ext.table.contains name = true) :
    (externalTargets known ext.table references).map ext.table.nameOf? =
      (firstOccurrences (unknownNames known references)).map some := by
  have hinj : ∀ x ∈ unknownNames known references, ∀ y ∈ unknownNames known references,
      ext.table.idOf x = ext.table.idOf y → x = y := by
    intro x hx y hy heq
    have hname := h.nameOf?_idOf (hnames x hx)
    rw [heq, h.nameOf?_idOf (hnames y hy)] at hname
    exact (Option.some.inj hname).symm
  rw [externalTargets, Text.firstOccurrences_map hinj, List.map_map]
  refine List.map_congr_left fun name hname => ?_
  exact h.nameOf?_idOf (hnames name (Text.mem_firstOccurrences.mp hname))

end CodeAtlas
