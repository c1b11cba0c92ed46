import CodeAtlas.Proofs.Document.Codec
import CodeAtlas.Proofs.LinkSoundness
import CodeAtlas.Proofs.Mirror
import CodeAtlas.Proofs.StoreSafety
import Mathlib.Logic.Relation

/-!
# External identifiers are stable

An identifier is taken from the supply when a name is met that the table does not hold, and then
stays. Every path that an update can take hands the table on with some more names interned: the
build of the changed files, also when there are none, and the linking of what was retained. So
whatever is done with a graph, all pairs of a name and an identifier are still there later, also for
components that were linked long before.

Two things are needed for it. The identifiers that are minted must be new, and the first table must
not give one identifier to two names: a database has one row for each identifier and loses one of
the names.

## Main definitions

* `Externals.MintsNew`: the identifiers taken from the supply are not in the table.
* `CodeGraph.SymbolsSound`: the identifiers of a graph's table, and of its external edges.
* `SymbolRun.Begun`, `SymbolRun.Advances`: the builds and the steps of a run.

## Main results

* `Externals.apart_internAll`: interning with new identifiers keeps the names apart.
* `Update.exists_externals_apply`: the symbols after an update are those before, and interned ones.
* `SymbolRun.symbolsSound_begun`, `SymbolRun.symbolsSound_advances`: the invariant of a run.
* `SymbolRun.external_ids_stable`: the table of every later point holds that of every earlier one.
-/

namespace CodeAtlas

open SymbolTable (Grows)

/-! ### Tables -/

theorem SymbolTable.apart_empty : Apart empty :=
  fun _ _ _ h => absurd h (by simp [get?, empty])

/-- A table keeps its names apart when its identifiers are distinct. -/
theorem SymbolTable.apart_iff {table : SymbolTable} :
    table.Apart ↔ (table.entries.map (·.2)).Nodup := by
  constructor
  · intro h
    refine table.nodup_names.of_map.map_on fun a ha b hb heq => Prod.ext ?_ heq
    exact h a.1 b.1 a.2 (get?_of_mem ha) (heq ▸ get?_of_mem hb)
  · intro h name name' id hname hname'
    exact congrArg Prod.fst (List.inj_on_of_nodup_map h (mem_of_lookup_eq_some hname)
      (mem_of_lookup_eq_some hname') rfl)

instance (table : SymbolTable) : Decidable table.Apart :=
  decidable_of_iff _ SymbolTable.apart_iff.symm

namespace Externals

/-- The identifiers that are taken from the supply until it is the given one are not in the
table. -/
def MintsNew (ext : Externals) (after : IdSupply) : Prop :=
  ∀ n, ext.supply.next ≤ n → n < after.next → ∀ name, ext.table.get? name ≠ some (IdSupply.ident n)

theorem mintsNew_iff {ext : Externals} {after : IdSupply} :
    ext.MintsNew after ↔
      ∀ n ∈ List.range' ext.supply.next (after.next - ext.supply.next),
        IdSupply.ident n ∉ ext.table.entries.map (·.2) := by
  simp only [MintsNew, List.mem_range'_1, List.mem_map, not_exists, not_and]
  refine ⟨fun h n hn entry hentry heq => ?_, fun h n hle hlt name hname => ?_⟩
  · exact h n hn.1 (by omega) entry.1 (heq ▸ SymbolTable.get?_of_mem hentry)
  · exact h n ⟨hle, by omega⟩ _ (mem_of_lookup_eq_some hname) rfl

instance (ext : Externals) (after : IdSupply) : Decidable (ext.MintsNew after) :=
  decidable_of_iff _ mintsNew_iff.symm

theorem next_le_intern (ext : Externals) (name : String) :
    ext.supply.next ≤ (ext.intern name).2.supply.next := by
  cases h : ext.table.get? name with
  | some id => rw [intern_of_some h]
  | none =>
    rw [intern_of_none h]
    exact Nat.le_succ _

theorem next_le_internAll (ext : Externals) (names : List String) :
    ext.supply.next ≤ (ext.internAll names).supply.next := by
  induction names generalizing ext with
  | nil => exact Nat.le_refl _
  | cons name names ih => exact (next_le_intern ext name).trans (ih _)

/-- Interning with new identifiers keeps the names apart. -/
theorem apart_internAll {ext : Externals} (h : ext.table.Apart) {names : List String}
    (hnew : ext.MintsNew (ext.internAll names).supply) : (ext.internAll names).table.Apart := by
  induction names generalizing ext with
  | nil => exact h
  | cons name names ih =>
    rw [internAll_cons] at hnew ⊢
    cases hname : ext.table.get? name with
    | some id =>
      rw [intern_of_some hname] at hnew ⊢
      exact ih h hnew
    | none =>
      have hnext := next_le_internAll (ext.intern name).2 names
      rw [intern_of_none hname] at hnew hnext ⊢
      refine ih (h.insert name (hnew ext.supply.next (Nat.le_refl _) hnext)) ?_
      -- What is minted later has a greater number than the one that has come into the table.
      intro n hle hlt other
      have hgt : ext.supply.next < n := hle
      rw [SymbolTable.get?_insert]
      split_ifs
      · intro heq
        exact hgt.ne (IdSupply.ident_injective (Option.some.inj heq))
      · exact hnew n hgt.le hlt other

/-- The same of a table and a supply that interning has led to. -/
theorem apart_of_eq_internAll {ext after : Externals} {names : List String}
    (hafter : after = ext.internAll names) (h : ext.table.Apart) (hnew : ext.MintsNew after.supply) :
    after.table.Apart := by
  subst hafter
  exact apart_internAll h hnew

end Externals

/-! ### External edges -/

/-- Every external edge of the component leads to the identifier of a name it refers to. -/
def Component.NamedIn (table : SymbolTable) (c : Component) : Prop :=
  ∀ id ∈ c.externalIds, ∃ name ∈ c.referencedSymbols, table.get? name = some id

theorem Component.NamedIn.mono {table table' : SymbolTable} {c : Component} (h : c.NamedIn table)
    (hgrows : Grows table table') : c.NamedIn table' := by
  intro id hid
  obtain ⟨name, hname, hfound⟩ := h id hid
  exact ⟨name, hname, hgrows name id hfound⟩

/-- The external edge of a reference that nobody knows. -/
theorem Component.mem_externalIds_linkedBy {known : NameTable} {table : SymbolTable} {c : Component}
    {name : String} {id : ExternalId} (hname : name ∈ unknownNames known c.referencedSymbols)
    (hid : table.get? name = some id) : id ∈ (c.linkedBy known table).externalIds := by
  refine Text.mem_firstOccurrences.mpr (List.mem_map.mpr ⟨name, hname, ?_⟩)
  rw [SymbolTable.idOf, hid, Option.getD_some]

/-- What is linked has external edges to names in the table. -/
theorem Component.namedIn_linkedBy {known : NameTable} {table : SymbolTable} {c : Component}
    (hnames : ∀ name ∈ unknownNames known c.referencedSymbols, table.contains name = true) :
    (c.linkedBy known table).NamedIn table := by
  intro id hid
  obtain ⟨name, hname, rfl⟩ := List.mem_map.mp (Text.mem_firstOccurrences.mp hid)
  obtain ⟨found, hfound⟩ := Option.isSome_iff_exists.mp (hnames name hname)
  refine ⟨name, (List.mem_filter.mp hname).1, ?_⟩
  rw [SymbolTable.idOf, hfound, Option.getD_some]

/-- In one pass, all components get the same identifier for a name that nobody knows. -/
theorem exists_shared_externalId (known : NameTable) (externals : Externals)
    (components : List Component) {name : String} (hunknown : known.find? name = none)
    {c d : Component} (hc : c ∈ (linkAll known externals components).1)
    (hd : d ∈ (linkAll known externals components).1) (hcname : name ∈ c.referencedSymbols)
    (hdname : name ∈ d.referencedSymbols) :
    ∃ id, (linkAll known externals components).2.1.table.get? name = some id ∧
      id ∈ c.externalIds ∧ id ∈ d.externalIds := by
  rw [linkAll_fst] at hc hd
  obtain ⟨c, hcmem, rfl⟩ := List.mem_map.mp hc
  obtain ⟨d, -, rfl⟩ := List.mem_map.mp hd
  have hmem : ∀ {e : Component}, name ∈ e.referencedSymbols →
      name ∈ unknownNames known e.referencedSymbols := fun hname =>
    List.mem_filter.mpr ⟨hname, by rw [hunknown]; rfl⟩
  have hcontains : (linkAll known externals components).2.1.table.contains name = true := by
    rw [linkAll_externals, Externals.contains_internAll]
    exact Or.inr (List.mem_flatMap.mpr ⟨c, hcmem, hmem hcname⟩)
  obtain ⟨id, hid⟩ := Option.isSome_iff_exists.mp hcontains
  exact ⟨id, hid, Component.mem_externalIds_linkedBy (hmem hcname) hid,
    Component.mem_externalIds_linkedBy (hmem hdname) hid⟩

/-! ### Graphs -/

/-- The components are distinct, no identifier of the table is that of two names, and all external
edges lead to identifiers of names that are referred to. -/
structure CodeGraph.SymbolsSound (graph : CodeGraph) : Prop where
  nodup : (graph.components.map (·.id)).Nodup
  apart : graph.externalSymbols.Apart
  named : ∀ c ∈ graph.components, c.NamedIn graph.externalSymbols

theorem Builder.symbolsSound_assemble {builder : Builder} {files : List ParsedFile}
    {seed : LinkSeed} (hseed : seed.externals.table.Apart)
    (hnew : seed.externals.MintsNew (builder.assemble files seed).supply) :
    (builder.assemble files seed).graph.SymbolsSound where
  nodup := nodup_ids_assemble builder files seed
  apart := Externals.apart_of_eq_internAll (builder.externals_assemble files seed) hseed hnew
  named := by
    intro c hc
    rw [components_assemble] at hc
    obtain ⟨d, hd, rfl⟩ := List.mem_map.mp hc
    exact Component.namedIn_linkedBy fun name hname => contains_assemble hd hname

namespace Update

section Externals

variable (builder : Builder) (relinkRetained : Bool) (fs : FileSystem) (directory : String)
  (previous : CodeGraph) (changes : ChangeSet) (supply : IdSupply)

/-- Linking the retained components again only interns names. -/
theorem exists_relinked_snd :
    ∃ names, (relinked builder relinkRetained fs directory previous changes supply).2 =
      Externals.internAll
        ⟨(built builder fs directory previous changes supply).graph.externalSymbols,
          (built builder fs directory previous changes supply).supply⟩ names := by
  cases relinkRetained with
  | false => exact ⟨[], rfl⟩
  | true => exact ⟨_, relinked_snd⟩

/-- The table grows from the build of the changed files to the end of the update. -/
theorem grows_built_apply :
    Grows (built builder fs directory previous changes supply).graph.externalSymbols
      (apply builder relinkRetained fs directory previous changes supply).graph.externalSymbols := by
  obtain ⟨names, hrelinked⟩ :=
    exists_relinked_snd builder relinkRetained fs directory previous changes supply
  rw [graph_apply, hrelinked]
  exact Externals.grows_internAll _ _

/-- The symbols after an update are those before, and interned ones. -/
theorem exists_externals_apply :
    ∃ names, Externals.mk
        (apply builder relinkRetained fs directory previous changes supply).graph.externalSymbols
        (apply builder relinkRetained fs directory previous changes supply).supply =
      Externals.internAll ⟨previous.externalSymbols, supply⟩ names := by
  obtain ⟨more, hrelinked⟩ :=
    exists_relinked_snd builder relinkRetained fs directory previous changes supply
  rw [built, Builder.externals_assemble, ← Externals.internAll_append] at hrelinked
  rw [supply_apply, graph_apply]
  exact ⟨_, hrelinked⟩

theorem grows_apply :
    Grows previous.externalSymbols
      (apply builder relinkRetained fs directory previous changes supply).graph.externalSymbols := by
  obtain ⟨names, hexternals⟩ :=
    exists_externals_apply builder relinkRetained fs directory previous changes supply
  have htable := congrArg Externals.table hexternals
  simp only at htable
  rw [htable]
  exact Externals.grows_internAll ⟨previous.externalSymbols, supply⟩ names

end Externals

variable {builder : Builder} {relinkRetained : Bool} {fs : FileSystem} {directory : String}
  {previous : CodeGraph} {changes : ChangeSet} {supply : IdSupply}

/-- The retained components are linked again or keep their external edges. -/
theorem namedIn_of_mem_relinked (h : previous.SymbolsSound) {c : Component}
    (hc : c ∈ (relinked builder relinkRetained fs directory previous changes supply).1) :
    c.NamedIn
      (apply builder relinkRetained fs directory previous changes supply).graph.externalSymbols := by
  cases relinkRetained with
  | false =>
    obtain ⟨d, hd, rfl⟩ := List.mem_map.mp hc
    have hnamed : (pruneLinks (classify previous changes).dropped d).NamedIn
        previous.externalSymbols := h.named d (mem_untouched.mp hd).1
    exact hnamed.mono (grows_apply builder false fs directory previous changes supply)
  | true =>
    rw [relinked_fst] at hc
    obtain ⟨d, hd, rfl⟩ := List.mem_map.mp hc
    rw [graph_apply]
    refine Component.namedIn_linkedBy fun name hname => ?_
    rw [relinked_snd, Externals.contains_internAll]
    exact Or.inr (List.mem_flatMap.mpr ⟨d, hd, hname⟩)

/-- An update with new identifiers keeps the symbols sound. -/
theorem symbolsSound_apply (h : previous.SymbolsSound)
    (hnew : Externals.MintsNew ⟨previous.externalSymbols, supply⟩
      (apply builder relinkRetained fs directory previous changes supply).supply) :
    (apply builder relinkRetained fs directory previous changes supply).graph.SymbolsSound where
  nodup := nodup_ids_apply relinkRetained h.nodup
  apart := by
    obtain ⟨names, hexternals⟩ :=
      exists_externals_apply builder relinkRetained fs directory previous changes supply
    exact Externals.apart_of_eq_internAll hexternals h.apart hnew
  named := by
    intro c hc
    have hparts := hc
    rw [graph_apply] at hparts
    rcases List.mem_append.mp hparts with hretained | hadded
    · exact namedIn_of_mem_relinked h hretained
    · have hbuilt := (additions_sublist _ _).subset hadded
      rw [built, Builder.components_assemble] at hbuilt
      obtain ⟨d, hd, rfl⟩ := List.mem_map.mp hbuilt
      -- The table has grown since these were linked.
      exact (Component.namedIn_linkedBy fun name hname => Builder.contains_assemble hd hname).mono
        (grows_built_apply builder relinkRetained fs directory previous changes supply)

end Update

namespace CodeGraph.SymbolsSound

theorem filter {graph : CodeGraph} (h : graph.SymbolsSound) (keep : String → Bool) :
    (graph.filter keep).SymbolsSound where
  nodup := by
    have hids : (graph.filter keep).components.map (·.id) =
        (graph.components.filter fun c => keep c.qualifiedName).map (·.id) := List.map_map ..
    rw [hids]
    exact h.nodup.sublist (List.filter_sublist.map _)
  apart := h.apart
  named := by
    intro c hc
    obtain ⟨d, hd, rfl⟩ := List.mem_map.mp hc
    exact h.named d (List.mem_filter.mp hd).1

/-- A database keeps the whole table. -/
theorem externalSymbols_kept {document : Document} (h : document.graph.SymbolsSound) :
    document.kept.graph.externalSymbols = document.graph.externalSymbols := by
  simp only [Document.kept]
  rw [Keyed.lasts_eq_self _ (SymbolTable.apart_iff.mp h.apart), SymbolTable.ofList_entries]

/-- What is loaded after a save has the components and the symbols that were saved. -/
theorem of_load {graph : CodeGraph} (h : graph.SymbolsSound) {store : GraphStore}
    {fs fs' : FileSystem} {repository commitHash : Option String} {document : Document}
    (hsaved : store.save (.ofGraph graph repository commitHash) fs = (.ok (), fs'))
    (hloaded : (store.load fs').1 = .ok document) :
    document.graph.components = graph.components ∧
      document.graph.externalSymbols = graph.externalSymbols := by
  have hcurrent : (Document.ofGraph graph repository commitHash).isCurrent = true :=
    beq_self_eq_true currentSchema
  have hsound : (Document.ofGraph graph repository commitHash).graph.SymbolsSound := h
  rcases GraphStore.eq_of_load hsaved hloaded h.nodup hcurrent with rfl | rfl
  · exact ⟨rfl, rfl⟩
  · exact ⟨rfl, externalSymbols_kept hsound⟩

end CodeGraph.SymbolsSound

/-! ### Runs -/

namespace SymbolRun

/-- The graph is built, and the identifiers minted for it are new. A build of given files starts
from a table of an allowed sort, that of a directory from the empty one. -/
inductive Begun (Seeded : SymbolTable → Prop) : CodeGraph → Prop
  | files {builder : Builder} {fs : FileSystem} {directory : String} {paths : List String}
      {seed : LinkSeed} (seeded : Seeded seed.externals.table)
      (new : seed.externals.MintsNew (builder.buildFiles fs directory paths seed).supply) :
      Begun Seeded (builder.buildFiles fs directory paths seed).graph
  | directory {builder : Builder} {fs : FileSystem} {home directory : String} {supply : IdSupply}
      {output : BuildOutput}
      (built : builder.buildDirectory fs home directory supply = some (.ok output)) :
      Begun Seeded output.graph

/-- One graph becomes another: it is updated, where the identifiers minted are new, or filtered, or
saved and loaded again. -/
inductive Advances : CodeGraph → CodeGraph → Prop
  | update {builder : Builder} {relinkRetained : Bool} {fs : FileSystem} {directory : String}
      {graph : CodeGraph} {changes : ChangeSet} {supply : IdSupply} {result : UpdateResult}
      (updated : update builder relinkRetained fs directory graph changes supply = .ok result)
      (new : Externals.MintsNew ⟨graph.externalSymbols, supply⟩ result.supply) :
      Advances graph result.graph
  | filter (graph : CodeGraph) (keep : String → Bool) : Advances graph (graph.filter keep)
  | reload {store : GraphStore} {fs fs' : FileSystem} {graph : CodeGraph}
      {repository commitHash : Option String} {document : Document}
      (saved : store.save (.ofGraph graph repository commitHash) fs = (.ok (), fs'))
      (loaded : (store.load fs').1 = .ok document) : Advances graph document.graph

variable {graph graph' earlier later : CodeGraph}

/-- What is built has sound symbols, if the first table keeps its names apart. -/
theorem symbolsSound_begun (h : Begun SymbolTable.Apart graph) : graph.SymbolsSound := by
  cases h with
  | files seeded new => exact Builder.symbolsSound_assemble seeded new
  | directory built =>
    obtain ⟨collected, -, rfl⟩ := Builder.buildDirectory_eq_ok built
    refine Builder.symbolsSound_assemble SymbolTable.apart_empty fun n _ _ name hname => ?_
    simp [SymbolTable.get?, SymbolTable.empty] at hname

/-- Every step keeps the symbols sound, and loses no name. -/
theorem symbolsSound_advances (h : graph.SymbolsSound) (hstep : Advances graph graph') :
    graph'.SymbolsSound ∧ Grows graph.externalSymbols graph'.externalSymbols := by
  cases hstep with
  | update updated new =>
    rcases Update.update_eq_ok updated with ⟨-, hsame, -⟩ | ⟨-, rfl⟩
    · rw [hsame]
      exact ⟨h, Grows.refl _⟩
    · exact ⟨Update.symbolsSound_apply h new, Update.grows_apply _ _ _ _ _ _ _⟩
  | filter _ keep => exact ⟨h.filter keep, Grows.refl _⟩
  | reload saved loaded =>
    obtain ⟨hcomponents, hsymbols⟩ := h.of_load saved loaded
    refine ⟨⟨?_, ?_, ?_⟩, ?_⟩
    · rw [hcomponents]
      exact h.nodup
    · rw [hsymbols]
      exact h.apart
    · rw [hcomponents, hsymbols]
      exact h.named
    · rw [hsymbols]
      exact Grows.refl _

/-- Any number of steps keeps the symbols sound, and loses no name. -/
theorem symbolsSound_steps (h : earlier.SymbolsSound)
    (hsteps : Relation.ReflTransGen Advances earlier later) :
    later.SymbolsSound ∧ Grows earlier.externalSymbols later.externalSymbols := by
  induction hsteps with
  | refl => exact ⟨h, Grows.refl _⟩
  | tail _ hstep ih =>
    obtain ⟨hsound, hgrows⟩ := symbolsSound_advances ih.1 hstep
    exact ⟨hsound, ih.2.trans hgrows⟩

/-- In a run that starts from a table without shared identifiers, the table of a later point holds
every pair of an earlier one, no two names share an identifier, and each external edge leads to the
identifier of a name that its component refers to. Components that are linked in one pass have
an edge to the same identifier for each name that both refer to and nobody knows. -/
theorem external_ids_stable :
    (∀ first earlier later, Begun SymbolTable.Apart first →
      Relation.ReflTransGen Advances first earlier → Relation.ReflTransGen Advances earlier later →
      Grows earlier.externalSymbols later.externalSymbols ∧ later.externalSymbols.Apart ∧
      ∀ c ∈ later.components, ∀ id ∈ c.externalIds,
        ∃ name ∈ c.referencedSymbols, later.externalSymbols.get? name = some id) ∧
    ∀ (known : NameTable) (externals : Externals) (components : List Component) (name : String),
      known.find? name = none →
      ∀ c ∈ (linkAll known externals components).1, ∀ d ∈ (linkAll known externals components).1,
        name ∈ c.referencedSymbols → name ∈ d.referencedSymbols →
        ∃ id, (linkAll known externals components).2.1.table.get? name = some id ∧
          id ∈ c.externalIds ∧ id ∈ d.externalIds := by
  refine ⟨fun first earlier later hbegun hearlier hlater => ?_, ?_⟩
  · obtain ⟨hsound, -⟩ := symbolsSound_steps (symbolsSound_begun hbegun) hearlier
    obtain ⟨hlast, hgrows⟩ := symbolsSound_steps hsound hlater
    exact ⟨hgrows, hlast.apart, hlast.named⟩
  · intro known externals components name hunknown c hc d hd hcname hdname
    exact exists_shared_externalId known externals components hunknown hc hd hcname hdname

/-! ### Runs from two seeds -/

/-- The place of the sample's database. -/
def sampleStore : GraphStore :=
  ⟨"/repo/graph.db", .sqlite⟩

/-- The sample of `Run`, built against a table. -/
def sampleBuild (table : SymbolTable) : CodeGraph :=
  (Run.sampleBuilder.buildFiles Run.sampleTree "/repo" ["m.mk"] ⟨[], ⟨table, ⟨7⟩⟩⟩).graph

/-- What is loaded when the sample is saved. -/
def sampleReload (table : SymbolTable) : CodeGraph :=
  (Document.ofGraph (sampleBuild table) none none).kept.graph

/-- The sample is loaded as its database keeps it. -/
theorem advances_sample {table : SymbolTable}
    (hsave : (sampleStore.save (.ofGraph (sampleBuild table) none none) Run.sampleTree).1 = .ok ())
    (hids : ((sampleBuild table).components.map (·.id)).Nodup)
    (hfits : (Document.ofGraph (sampleBuild table) none none).fits = true) :
    Advances (sampleBuild table) (sampleReload table) := by
  have hrows := (Document.ofGraph (sampleBuild table) none none).ofRows_toRows
    (beq_self_eq_true currentSchema) hids
  rw [if_pos hfits] at hrows
  have hplace : Run.sampleTree.locate sampleStore.path = .ok ["repo", "graph.db"] := by
    decide +kernel
  have hopen := GraphStore.isBlocked_save hplace (.ofGraph (sampleBuild table) none none)
  have hfree : sampleStore.isBlocked Run.sampleTree = false := by decide +kernel
  rcases hsaved : sampleStore.save (.ofGraph (sampleBuild table) none none) Run.sampleTree with
    ⟨result, saved⟩
  rw [hsaved] at hsave hopen
  obtain rfl : result = .ok () := hsave
  refine .reload hsaved ?_
  rw [GraphStore.load_of_save hsaved, hopen, hfree]
  simp only [sampleStore, GraphStore.contentOf, GraphStore.read, hrows, Except.mapError,
    Bool.false_eq_true, ↓reduceIte]

/-- One name with an identifier that is not of the supply. -/
def oldSeed : SymbolTable :=
  .ofList [("open", "old")]

/-- The sample is brought up to date after it was loaded, and filtered. -/
def sampleLast : CodeGraph :=
  (Update.apply Run.sampleBuilder true Run.sampleTree "/repo" (sampleReload oldSeed)
    Run.sampleChanges ⟨8⟩).graph.filter fun name => name != "m.f"

theorem external_ids_stable_sample :
    (∃ c ∈ sampleLast.components, c.externalIds = [IdSupply.ident 7]) ∧
      sampleLast.externalSymbols.get? "open" = some "old" ∧
      sampleLast.externalSymbols.get? "helper" = some (IdSupply.ident 7) ∧
      sampleLast.externalSymbols.Apart := by
  have hbegun : Begun SymbolTable.Apart (sampleBuild oldSeed) :=
    .files (by decide +kernel) (by decide +kernel)
  have hreload : Advances (sampleBuild oldSeed) (sampleReload oldSeed) :=
    advances_sample (by decide +kernel) (by decide +kernel) (by decide +kernel)
  have hupdated := Update.update_eq_apply Run.sampleBuilder true (sampleReload oldSeed) ⟨8⟩
    (by decide +kernel : Run.sampleTree.isDirectory "/repo" = true)
    (by decide +kernel : Run.sampleChanges.hasChanges = true)
  have hlater : Relation.ReflTransGen Advances (sampleReload oldSeed) sampleLast :=
    (Relation.ReflTransGen.single (.update hupdated (by decide +kernel))).tail (.filter _ _)
  obtain ⟨hgrows, hapart, -⟩ := external_ids_stable.1 _ _ _ hbegun (.single hreload) hlater
  exact ⟨by decide +kernel, hgrows _ _ (by decide +kernel), hgrows _ _ (by decide +kernel), hapart⟩

/-- Two names with one identifier. -/
def sharedSeed : SymbolTable :=
  .ofList [("open", "shared"), ("print", "shared")]

/-- A build can be given one identifier for two names, and a database then loses one of them. -/
theorem shared_seed_loses_name :
    ∃ first later, Begun (fun _ => True) first ∧ Advances first later ∧
      ¬ first.externalSymbols.Apart ∧ ¬ Grows first.externalSymbols later.externalSymbols := by
  refine ⟨sampleBuild sharedSeed, sampleReload sharedSeed, .files trivial (by decide +kernel),
    advances_sample (by decide +kernel) (by decide +kernel) (by decide +kernel), by decide +kernel,
    fun hgrows => ?_⟩
  have hkept := hgrows "open" "shared" (by decide +kernel)
  revert hkept
  decide +kernel

end SymbolRun

end CodeAtlas
