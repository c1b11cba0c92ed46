import CodeAtlas.Proofs.SymbolStability

/-!
# The same graph with other minted identifiers

The identifiers of external symbols come from a supply, and which numbers it has given out before is
of no account: a build or an update from another supply gives the same graph, in which the
identifiers that the first one minted are exchanged, one by one, for those of the other supply. The
graph that is updated must not hold identifiers that either supply has still to give.

## Main definitions

* `IdSupply.exchange`: the identifiers of one supply in place of those of another.
* `IdSupply.Spares`: the supply has given the identifier before, or never will.
* `CodeGraph.rename`: a graph with other identifiers of external symbols.

## Main results

* `Externals.internAll_reissue`: interning names from another supply.
* `Builder.assemble_reissue`, `Update.apply_reissue`: builds and updates from another supply.
-/

namespace CodeAtlas

/-! ### Exchanged identifiers -/

namespace IdSupply

/-- The first `count` identifiers of a supply become those of another; all others are left. -/
def exchange (supply supply' : IdSupply) (count : Nat) (id : ExternalId) : ExternalId :=
  match (List.range count).find? fun k => ident (supply.next + k) == id with
  | some k => ident (supply'.next + k)
  | none => id

/-- The supply will not give the identifier. -/
def Spares (supply : IdSupply) (id : ExternalId) : Prop :=
  ∀ n, supply.next ≤ n → id ≠ ident n

variable {supply supply' : IdSupply} {count : Nat}

theorem exchange_ident (supply supply' : IdSupply) {k : Nat} (hk : k < count) :
    supply.exchange supply' count (ident (supply.next + k)) = ident (supply'.next + k) := by
  have hfound : ((List.range count).find? fun j =>
      ident (supply.next + j) == ident (supply.next + k)).isSome = true :=
    List.find?_isSome.mpr ⟨k, List.mem_range.mpr hk, beq_self_eq_true _⟩
  obtain ⟨j, hj⟩ := Option.isSome_iff_exists.mp hfound
  have hsame := List.find?_some hj
  have hjk : j = k := by
    have := ident_injective (beq_iff_eq.mp hsame)
    omega
  rw [exchange, hj, hjk]

theorem exchange_of_spares {id : ExternalId} (h : supply.Spares id) :
    supply.exchange supply' count id = id := by
  have hnone : (List.range count).find? (fun k => ident (supply.next + k) == id) = none := by
    refine List.find?_eq_none.mpr fun k _ heq => ?_
    exact h (supply.next + k) (Nat.le_add_right _ _) (beq_iff_eq.mp heq).symm
  rw [exchange, hnone]

/-- Where nothing is minted, nothing is exchanged. -/
@[simp] theorem exchange_zero (supply supply' : IdSupply) : supply.exchange supply' 0 = id :=
  rfl

/-- The identifier was there before, and neither supply will give it, or it is one of the first that
the supply gives. -/
def Drawn (supply supply' : IdSupply) (count : Nat) (id : ExternalId) : Prop :=
  (supply.Spares id ∧ supply'.Spares id) ∨ ∃ k < count, id = ident (supply.next + k)

/-- Identifiers that are different stay so. -/
theorem Drawn.exchange_injective {id id' : ExternalId} (h : Drawn supply supply' count id)
    (h' : Drawn supply supply' count id')
    (heq : supply.exchange supply' count id = supply.exchange supply' count id') : id = id' := by
  rcases h with ⟨hspares, hother⟩ | ⟨k, hk, rfl⟩ <;>
    rcases h' with ⟨hspares', hother'⟩ | ⟨k', hk', rfl⟩
  · rwa [exchange_of_spares hspares, exchange_of_spares hspares'] at heq
  · rw [exchange_of_spares hspares, exchange_ident _ _ hk'] at heq
    exact absurd heq (hother _ (Nat.le_add_right _ _))
  · rw [exchange_of_spares hspares', exchange_ident _ _ hk] at heq
    exact absurd heq.symm (hother' _ (Nat.le_add_right _ _))
  · rw [exchange_ident _ _ hk, exchange_ident _ _ hk'] at heq
    have := ident_injective heq
    rw [show k = k' by omega]

end IdSupply

/-! ### Renamed tables, components and graphs -/

/-- The table with other identifiers. -/
def SymbolTable.rename (f : ExternalId → ExternalId) (table : SymbolTable) : SymbolTable where
  entries := table.entries.map fun entry => (entry.1, f entry.2)
  sorted := by
    rw [NamesIncrease, List.pairwise_map]
    exact table.sorted

/-- The component with other identifiers of external symbols. -/
def Component.rename (f : ExternalId → ExternalId) (c : Component) : Component :=
  { c with externalIds := c.externalIds.map f }

/-- The graph with other identifiers of external symbols. -/
def CodeGraph.rename (f : ExternalId → ExternalId) (graph : CodeGraph) : CodeGraph where
  components := graph.components.map (Component.rename f)
  files := graph.files
  externalSymbols := graph.externalSymbols.rename f

namespace SymbolTable

variable {f : ExternalId → ExternalId}

theorem get?_rename (f : ExternalId → ExternalId) (table : SymbolTable) (name : String) :
    (table.rename f).get? name = (table.get? name).map f := by
  simp only [get?, rename]
  induction table.entries with
  | nil => rfl
  | cons entry rest ih =>
    rw [List.map_cons, List.lookup_cons, List.lookup_cons, ih]
    cases name == entry.1 <;> rfl

private theorem map_insertEntry (f : ExternalId → ExternalId) (name : String) (id : ExternalId)
    (entries : List (String × ExternalId)) :
    (insertEntry name id entries).map (fun entry => (entry.1, f entry.2)) =
      insertEntry name (f id) (entries.map fun entry => (entry.1, f entry.2)) := by
  induction entries with
  | nil => rfl
  | cons entry rest ih =>
    simp only [insertEntry, List.map_cons]
    split
    · rfl
    · split
      · rfl
      · rw [List.map_cons, ih]

theorem rename_insert (f : ExternalId → ExternalId) (table : SymbolTable) (name : String)
    (id : ExternalId) : (table.insert name id).rename f = (table.rename f).insert name (f id) := by
  unfold rename insert
  simp only [map_insertEntry]

theorem rename_eq_self {table : SymbolTable} (h : ∀ entry ∈ table.entries, f entry.2 = entry.2) :
    table.rename f = table := by
  obtain ⟨entries, sorted⟩ := table
  have hentries : entries.map (fun entry => (entry.1, f entry.2)) = entries := by
    conv_rhs => rw [← List.map_id entries]
    exact List.map_congr_left fun entry hentry => Prod.ext rfl (h entry hentry)
  simp only [rename, hentries]

/-- The identifiers of a table that is renamed. -/
theorem idOf_rename {table : SymbolTable} {name : String} (h : table.contains name = true) :
    (table.rename f).idOf name = f (table.idOf name) := by
  obtain ⟨id, hid⟩ := Option.isSome_iff_exists.mp h
  rw [idOf, idOf, get?_rename, hid]
  rfl

end SymbolTable

theorem Component.rename_eq_self {f : ExternalId → ExternalId} {c : Component}
    (h : ∀ id ∈ c.externalIds, f id = id) : c.rename f = c := by
  have hids : c.externalIds.map f = c.externalIds := by
    conv_rhs => rw [← List.map_id c.externalIds]
    exact List.map_congr_left h
  rw [rename, hids]

theorem CodeGraph.rename_id (graph : CodeGraph) : graph.rename id = graph := by
  have hcomponents : graph.components.map (Component.rename id) = graph.components := by
    conv_rhs => rw [← List.map_id graph.components]
    exact List.map_congr_left fun c _ => Component.rename_eq_self fun _ _ => rfl
  rw [rename, hcomponents, SymbolTable.rename_eq_self fun _ _ => rfl]

/-! ### Interning from another supply -/

namespace Externals

open IdSupply (Drawn Spares)

variable (supply supply' : IdSupply) (count : Nat)

/-- The table and the supply that come about from the other supply. -/
def reissue (ext : Externals) : Externals where
  table := ext.table.rename (supply.exchange supply' count)
  supply := ⟨supply'.next + (ext.supply.next - supply.next)⟩

/-- The identifiers of the table were there before, or come from the supply. -/
structure DrawnFrom (ext : Externals) : Prop where
  next_le : supply.next ≤ ext.supply.next
  drawn : ∀ name id, ext.table.get? name = some id → Drawn supply supply' count id

variable {supply supply' count}

/-- At the beginning the table holds only what neither supply will give. -/
theorem drawnFrom_of_spares {table : SymbolTable}
    (h : ∀ entry ∈ table.entries, supply.Spares entry.2 ∧ supply'.Spares entry.2) :
    DrawnFrom supply supply' count ⟨table, supply⟩ where
  next_le := Nat.le_refl _
  drawn := fun _ _ hget => Or.inl (h _ (mem_of_lookup_eq_some hget))

/-- So the other supply begins with the same table. -/
theorem reissue_of_spares {table : SymbolTable}
    (h : ∀ entry ∈ table.entries, supply.Spares entry.2) :
    reissue supply supply' count ⟨table, supply⟩ = ⟨table, supply'⟩ := by
  unfold reissue
  rw [SymbolTable.rename_eq_self fun entry hentry => IdSupply.exchange_of_spares (h entry hentry)]
  simp

variable {ext : Externals}

theorem intern_reissue (h : ext.DrawnFrom supply supply' count) {name : String}
    (hbound : (ext.intern name).2.supply.next ≤ supply.next + count) :
    ((ext.reissue supply supply' count).intern name).2 =
        (ext.intern name).2.reissue supply supply' count ∧
      (ext.intern name).2.DrawnFrom supply supply' count := by
  have hrenamed := SymbolTable.get?_rename (supply.exchange supply' count) ext.table name
  cases hname : ext.table.get? name with
  | some id =>
    rw [hname] at hrenamed
    rw [intern_of_some hname, intern_of_some hrenamed]
    exact ⟨rfl, h⟩
  | none =>
    rw [hname] at hrenamed
    have hle := h.next_le
    rw [intern_of_none hname] at hbound
    have hk : ext.supply.next - supply.next < count := by
      have : ext.supply.next + 1 ≤ supply.next + count := hbound
      omega
    have hnumber : supply.next + (ext.supply.next - supply.next) = ext.supply.next := by omega
    have hident := IdSupply.exchange_ident supply supply' hk
    rw [hnumber] at hident
    rw [intern_of_none hname, intern_of_none hrenamed]
    refine ⟨?_, Nat.le_succ_of_le hle, fun n id hid => ?_⟩
    · simp only [reissue, SymbolTable.rename_insert, IdSupply.mint, hident, mk.injEq, true_and,
        IdSupply.mk.injEq]
      omega
    · rw [SymbolTable.get?_insert] at hid
      split_ifs at hid
      · obtain rfl := Option.some.inj hid
        exact Or.inr ⟨_, hk, by rw [hnumber]; rfl⟩
      · exact h.drawn n id hid

/-- Interning the same names from another supply gives the same table with exchanged
identifiers. -/
theorem internAll_reissue (h : ext.DrawnFrom supply supply' count) {names : List String}
    (hbound : (ext.internAll names).supply.next ≤ supply.next + count) :
    (ext.reissue supply supply' count).internAll names =
        (ext.internAll names).reissue supply supply' count ∧
      (ext.internAll names).DrawnFrom supply supply' count := by
  induction names generalizing ext with
  | nil => exact ⟨rfl, h⟩
  | cons name names ih =>
    rw [internAll_cons] at hbound ⊢
    obtain ⟨heq, hdrawn⟩ :=
      intern_reissue h ((next_le_internAll (ext.intern name).2 names).trans hbound)
    rw [internAll_cons, heq]
    exact ih hdrawn hbound

/-- External edges are exchanged with the identifiers of the table. -/
theorem DrawnFrom.externalTargets_rename (h : ext.DrawnFrom supply supply' count)
    {known : NameTable} {references : List String}
    (hnames : ∀ name ∈ unknownNames known references, ext.table.contains name = true) :
    externalTargets known (ext.table.rename (supply.exchange supply' count)) references =
      (externalTargets known ext.table references).map (supply.exchange supply' count) := by
  have hdrawn : ∀ id ∈ (unknownNames known references).map ext.table.idOf,
      Drawn supply supply' count id := by
    intro id hid
    obtain ⟨name, hname, rfl⟩ := List.mem_map.mp hid
    obtain ⟨id, hget⟩ := Option.isSome_iff_exists.mp (hnames name hname)
    rw [SymbolTable.idOf, hget]
    exact h.drawn name id hget
  rw [externalTargets, externalTargets, ← Text.firstOccurrences_map fun x hx y hy heq =>
    (hdrawn x hx).exchange_injective (hdrawn y hy) heq, List.map_map]
  congr 1
  exact List.map_congr_left fun name hname => SymbolTable.idOf_rename (hnames name hname)

/-- A component that is linked against the other table has exchanged edges. -/
theorem DrawnFrom.linkedBy_rename (h : ext.DrawnFrom supply supply' count) {known : NameTable}
    {c : Component}
    (hnames : ∀ name ∈ unknownNames known c.referencedSymbols, ext.table.contains name = true) :
    c.linkedBy known (ext.table.rename (supply.exchange supply' count)) =
      (c.linkedBy known ext.table).rename (supply.exchange supply' count) := by
  simp only [Component.linkedBy, Component.rename, h.externalTargets_rename hnames]

/-- Linking components against the table that has all their unknown names. -/
theorem DrawnFrom.map_linkedBy_rename {names : List String}
    (h : (ext.internAll names).DrawnFrom supply supply' count) (known : NameTable)
    {components : List Component}
    (hnames : names = components.flatMap fun c => unknownNames known c.referencedSymbols) :
    components.map (Component.linkedBy known
        ((ext.internAll names).table.rename (supply.exchange supply' count))) =
      (components.map (Component.linkedBy known (ext.internAll names).table)).map
        (Component.rename (supply.exchange supply' count)) := by
  rw [List.map_map]
  refine List.map_congr_left fun c hc => h.linkedBy_rename fun name hname => ?_
  rw [contains_internAll, hnames]
  exact Or.inr (List.mem_flatMap.mpr ⟨c, hc, hname⟩)

end Externals

/-! ### Builds -/

/-- The external symbols of a build, with the supply that is left. -/
def BuildOutput.externals (output : BuildOutput) : Externals :=
  ⟨output.graph.externalSymbols, output.supply⟩

namespace Builder

variable {supply supply' : IdSupply} {count : Nat}

/-- A build from another supply gives the same graph with exchanged identifiers. -/
theorem assemble_reissue (builder : Builder) (files : List ParsedFile) {seed : LinkSeed}
    (hseed : seed.externals.DrawnFrom supply supply' count)
    (hbound : (builder.assemble files seed).externals.supply.next ≤ supply.next + count) :
    let output := builder.assemble files seed
    let other := builder.assemble files
      ⟨seed.known, seed.externals.reissue supply supply' count⟩
    other.nameTable = output.nameTable ∧
    other.graph = output.graph.rename (supply.exchange supply' count) ∧
    other.externals = output.externals.reissue supply supply' count ∧
    output.externals.DrawnFrom supply supply' count := by
  intro output other
  let names := (Identity.keepFirst (builder.unlinked files)).flatMap fun c =>
    unknownNames output.nameTable c.referencedSymbols
  have htable : other.nameTable = output.nameTable := by
    rw [nameTable_assemble, nameTable_assemble]
  have houtput : output.externals = seed.externals.internAll names :=
    externals_assemble builder files seed
  have hother : other.externals =
      (seed.externals.reissue supply supply' count).internAll names := by
    simp only [names, ← htable]
    exact externals_assemble builder files ⟨seed.known, seed.externals.reissue supply supply' count⟩
  rw [houtput] at hbound
  obtain ⟨hreissue, hdrawn⟩ := Externals.internAll_reissue hseed hbound
  rw [hreissue, ← houtput] at hother
  have hsymbols : other.graph.externalSymbols =
      output.graph.externalSymbols.rename (supply.exchange supply' count) :=
    congrArg Externals.table hother
  have hcomponents : other.graph.components =
      output.graph.components.map (Component.rename (supply.exchange supply' count)) := by
    have hlinked := hdrawn.map_linkedBy_rename output.nameTable rfl
    rw [← houtput] at hlinked
    calc other.graph.components
        = (Identity.keepFirst (builder.unlinked files)).map
            (Component.linkedBy other.nameTable other.graph.externalSymbols) :=
          components_assemble builder files _
      _ = (Identity.keepFirst (builder.unlinked files)).map (Component.linkedBy output.nameTable
            (output.graph.externalSymbols.rename (supply.exchange supply' count))) := by
          rw [htable, hsymbols]
      _ = output.graph.components.map (Component.rename (supply.exchange supply' count)) :=
          hlinked.trans (congrArg _ (components_assemble builder files seed).symm)
  refine ⟨htable, ?_, hother, houtput ▸ hdrawn⟩
  rw [CodeGraph.rename, ← hcomponents, ← hsymbols]
  rfl

/-- Whether there is something to build does not depend on the supply. -/
theorem buildDirectory_supply {builder : Builder} {fs : FileSystem} {home directory : String}
    {output : BuildOutput} (h : builder.buildDirectory fs home directory supply = some (.ok output))
    (supply' : IdSupply) :
    ∃ collected, output = builder.buildFiles fs directory collected ⟨[], ⟨.empty, supply⟩⟩ ∧
      builder.buildDirectory fs home directory supply' =
        some (.ok (builder.buildFiles fs directory collected ⟨[], ⟨.empty, supply'⟩⟩)) := by
  obtain ⟨collected, hcollected, rfl⟩ := buildDirectory_eq_ok h
  refine ⟨collected, rfl, ?_⟩
  unfold buildDirectory at h ⊢
  split_ifs at h ⊢
  · simp at h
  · rw [hcollected] at h ⊢
    cases collected with
    | nil => simp at h
    | cons path rest => rfl

/-- The build of a directory that succeeds does so from another supply as well. -/
theorem buildDirectory_reissue {builder : Builder} {fs : FileSystem} {home directory : String}
    {output : BuildOutput} (supply' : IdSupply)
    (houtput : builder.buildDirectory fs home directory supply = some (.ok output)) :
    ∃ other, builder.buildDirectory fs home directory supply' = some (.ok other) ∧
      other.graph = output.graph.rename
        (supply.exchange supply' (output.supply.next - supply.next)) ∧
      other.supply = ⟨supply'.next + (output.supply.next - supply.next)⟩ := by
  obtain ⟨collected, rfl, hother⟩ := buildDirectory_supply houtput supply'
  refine ⟨_, hother, ?_⟩
  let files := builder.extractFiles fs directory collected
  let seed : LinkSeed := ⟨[], ⟨.empty, supply⟩⟩
  let count := (builder.assemble files seed).supply.next - supply.next
  have hdrawn : seed.externals.DrawnFrom supply supply' count :=
    Externals.drawnFrom_of_spares fun entry hentry => absurd hentry List.not_mem_nil
  have hbound : (builder.assemble files seed).externals.supply.next ≤ supply.next + count := by
    have hcount : count = (builder.assemble files seed).externals.supply.next - supply.next := rfl
    omega
  obtain ⟨-, hgraph, hexternals, -⟩ := builder.assemble_reissue files hdrawn hbound
  have hseed : seed.externals.reissue supply supply' count = ⟨.empty, supply'⟩ :=
    Externals.reissue_of_spares fun entry hentry => absurd hentry List.not_mem_nil
  rw [hseed] at hgraph hexternals
  exact ⟨hgraph, congrArg Externals.supply hexternals⟩

/-- A build that does not succeed ends in the same way from every supply. -/
theorem buildDirectory_congr {builder : Builder} {fs : FileSystem} {home directory : String}
    (supply' : IdSupply)
    (h : ∀ output, builder.buildDirectory fs home directory supply ≠ some (.ok output)) :
    builder.buildDirectory fs home directory supply' =
      builder.buildDirectory fs home directory supply := by
  unfold buildDirectory at h ⊢
  split_ifs at h ⊢
  · rfl
  · cases hcollected : builder.collectFiles fs home directory with
    | none => rfl
    | some collected =>
      rw [hcollected] at h
      cases collected with
      | nil => rfl
      | cons path rest => exact absurd rfl (h _)

end Builder

/-! ### Updates -/

/-- The external identifiers of the graph are none that the supply will give. -/
structure CodeGraph.SparedBy (graph : CodeGraph) (supply : IdSupply) : Prop where
  components : ∀ c ∈ graph.components, ∀ id ∈ c.externalIds, supply.Spares id
  symbols : ∀ entry ∈ graph.externalSymbols.entries, supply.Spares entry.2

namespace Update

open Externals (DrawnFrom)

variable {builder : Builder} {relinkRetained : Bool} {fs : FileSystem} {directory : String}
  {previous : CodeGraph} {changes : ChangeSet} {supply supply' : IdSupply} {count : Nat}

theorem additions_rename (f : ExternalId → ExternalId) (retained rebuilt : List Component) :
    additions (retained.map (Component.rename f)) (rebuilt.map (Component.rename f)) =
      (additions retained rebuilt).map (Component.rename f) := by
  simp only [additions, List.filter_map, List.any_map]
  rfl

/-- The components that are kept keep their external edges. -/
theorem retained_rename (h : previous.SparedBy supply) :
    (retained previous changes).map (Component.rename (supply.exchange supply' count)) =
      retained previous changes := by
  conv_rhs => rw [← List.map_id (retained previous changes)]
  refine List.map_congr_left fun c hc => Component.rename_eq_self fun id hid => ?_
  obtain ⟨d, hd, rfl⟩ := List.mem_map.mp hc
  exact IdSupply.exchange_of_spares (h.components d (mem_untouched.mp hd).1 id hid)

/-- The build of the changed files from another supply. -/
theorem built_reissue (builder : Builder) (fs : FileSystem) (directory : String)
    (changes : ChangeSet) (h : previous.SparedBy supply) (h' : previous.SparedBy supply')
    (hbound : (built builder fs directory previous changes supply).externals.supply.next ≤
      supply.next + count) :
    let output := built builder fs directory previous changes supply
    let other := built builder fs directory previous changes supply'
    other.nameTable = output.nameTable ∧
    other.graph = output.graph.rename (supply.exchange supply' count) ∧
    other.externals = output.externals.reissue supply supply' count ∧
    output.externals.DrawnFrom supply supply' count := by
  have hseed : seedOf previous changes supply' = ⟨(seedOf previous changes supply).known,
      (seedOf previous changes supply).externals.reissue supply supply' count⟩ := by
    rw [seedOf, seedOf, Externals.reissue_of_spares h.symbols]
  have hdrawn : (seedOf previous changes supply).externals.DrawnFrom supply supply' count :=
    Externals.drawnFrom_of_spares fun entry hentry => ⟨h.symbols entry hentry, h'.symbols entry hentry⟩
  simp only [built, hseed]
  exact builder.assemble_reissue _ hdrawn hbound

/-- Linking what is kept again takes more from the supply, if anything. -/
theorem next_built_le_relinked (builder : Builder) (relinkRetained : Bool) (fs : FileSystem)
    (directory : String) (previous : CodeGraph) (changes : ChangeSet) (supply : IdSupply) :
    (built builder fs directory previous changes supply).externals.supply.next ≤
      (relinked builder relinkRetained fs directory previous changes supply).2.supply.next := by
  obtain ⟨names, hnames⟩ :=
    exists_relinked_snd builder relinkRetained fs directory previous changes supply
  rw [hnames]
  exact Externals.next_le_internAll _ names

/-- Linking what is kept again, from another supply. -/
theorem relinked_reissue (relinkRetained : Bool) (h : previous.SparedBy supply)
    (h' : previous.SparedBy supply')
    (hbound : (relinked builder relinkRetained fs directory previous changes supply).2.supply.next ≤
      supply.next + count) :
    (relinked builder relinkRetained fs directory previous changes supply').1 =
      (relinked builder relinkRetained fs directory previous changes supply).1.map
        (Component.rename (supply.exchange supply' count)) ∧
    (relinked builder relinkRetained fs directory previous changes supply').2 =
      (relinked builder relinkRetained fs directory previous changes supply).2.reissue
        supply supply' count := by
  have hle := next_built_le_relinked builder relinkRetained fs directory previous changes supply
  obtain ⟨hnames, -, hexternals, hdrawn⟩ :=
    built_reissue builder fs directory changes h h' (hle.trans hbound)
  cases relinkRetained with
  | false => exact ⟨(retained_rename h).symm, hexternals⟩
  | true =>
    let output := built builder fs directory previous changes supply
    let names := (retained previous changes).flatMap fun c =>
      unknownNames output.nameTable c.referencedSymbols
    have hsnd : (relinked builder true fs directory previous changes supply).2 =
        output.externals.internAll names := relinked_snd
    have hsnd' : (relinked builder true fs directory previous changes supply').2 =
        (output.externals.reissue supply supply' count).internAll names := by
      simp only [names, output, ← hexternals, ← hnames]
      exact relinked_snd
    rw [hsnd] at hbound
    obtain ⟨hreissue, hdrawn'⟩ := Externals.internAll_reissue hdrawn hbound
    refine ⟨?_, ?_⟩
    · have hlinked := hdrawn'.map_linkedBy_rename output.nameTable rfl
      rw [relinked_fst, relinked_fst, hsnd', hsnd, hnames, hreissue]
      exact hlinked
    · rw [hsnd', hsnd, hreissue]

/-- An update from another supply gives the same graph with exchanged identifiers, and takes as many
from the supply. -/
theorem apply_reissue (builder : Builder) (relinkRetained : Bool) (fs : FileSystem)
    (directory : String) (changes : ChangeSet) (h : previous.SparedBy supply)
    (h' : previous.SparedBy supply') :
    let result := apply builder relinkRetained fs directory previous changes supply
    let other := apply builder relinkRetained fs directory previous changes supply'
    let count := result.supply.next - supply.next
    other.graph = result.graph.rename (supply.exchange supply' count) ∧
      other.supply = ⟨supply'.next + count⟩ := by
  intro result other count
  have hsupply : result.supply =
      (relinked builder relinkRetained fs directory previous changes supply).2.supply :=
    supply_apply builder relinkRetained fs directory previous changes supply
  have hbound : (relinked builder relinkRetained fs directory previous changes supply).2.supply.next ≤
      supply.next + count := by
    rw [← hsupply]
    omega
  have hle := next_built_le_relinked builder relinkRetained fs directory previous changes supply
  obtain ⟨hfst, hsnd⟩ := relinked_reissue relinkRetained h h' hbound
  obtain ⟨-, hgraph, -, -⟩ := built_reissue builder fs directory changes h h' (hle.trans hbound)
  constructor
  · simp only [other, result, graph_apply, hfst, hsnd, hgraph, CodeGraph.rename, List.map_append,
      ← additions_rename]
    rfl
  · rw [show other.supply = _ from supply_apply builder relinkRetained fs directory previous changes
      supply', hsnd, Externals.reissue, ← hsupply]

/-- An update that succeeds does so from another supply as well. -/
theorem update_reissue (h : previous.SparedBy supply) (h' : previous.SparedBy supply')
    {result : UpdateResult}
    (hresult : update builder relinkRetained fs directory previous changes supply = .ok result) :
    ∃ other, update builder relinkRetained fs directory previous changes supply' = .ok other ∧
      other.graph = result.graph.rename
        (supply.exchange supply' (result.supply.next - supply.next)) ∧
      other.supply = ⟨supply'.next + (result.supply.next - supply.next)⟩ := by
  unfold update at hresult ⊢
  split_ifs at hresult ⊢
  · obtain rfl := Except.ok.inj hresult
    refine ⟨_, rfl, ?_, ?_⟩
    · simp [CodeGraph.rename_id]
    · simp
  · obtain rfl := Except.ok.inj hresult
    obtain ⟨hgraph, hsupply⟩ :=
      apply_reissue builder relinkRetained fs directory changes h h'
    exact ⟨_, rfl, hgraph, hsupply⟩

/-- An update fails for want of a directory, whatever the supply. -/
theorem update_error_congr {error : UpdateError} (supply' : IdSupply)
    (h : update builder relinkRetained fs directory previous changes supply = .error error) :
    update builder relinkRetained fs directory previous changes supply' = .error error := by
  unfold update at h ⊢
  split_ifs at h ⊢
  exact h

end Update

end CodeAtlas
