import CodeAtlas.Proofs.ExternalIds
import CodeAtlas.Proofs.Portrait
import Mathlib.Data.List.Pairwise

/-!
# Graphs that mirror their files

When no name is given by two files, the files determine a graph up to the order of its parts and the
choice of external identifiers. Each name stands for one component, so that the order in which names
were entered into a table does not matter, and every component of every file is in the graph, linked
to what its references stand for. Builds give such graphs, and updates that link the retained
components again keep them.

## Main definitions

* `DistinctNames`: no name is given by two of the files.
* `Answers`: a table of names finds the components of the files, and nothing else.
* `Depicts`: a graph has the files and their components, linked or not.
* `Mirrors`: a graph is what the files determine.
* `CodeGraph.Agrees`: two graphs differ in nothing but order and external identifiers.

## Main results

* `Builder.mirrors_assemble`, `Update.mirrors_apply`: builds and updates mirror their files.
* `Mirrors.agrees_assemble`: a graph that mirrors the files of a build agrees with it.
-/

namespace CodeAtlas

open Text (firstOccurrences)

/-! ### Names of files -/

/-- No name is given by two of the files. -/
def DistinctNames (files : List ParsedFile) : Prop :=
  files.Pairwise fun file other =>
    ∀ c ∈ file.components, ∀ d ∈ other.components, c.qualifiedName ≠ d.qualifiedName

instance (files : List ParsedFile) : Decidable (DistinctNames files) :=
  inferInstanceAs (Decidable (files.Pairwise fun file other =>
    ∀ c ∈ file.components, ∀ d ∈ other.components, c.qualifiedName ≠ d.qualifiedName))

theorem DistinctNames.perm {files files' : List ParsedFile} (h : DistinctNames files)
    (hperm : files.Perm files') : DistinctNames files' :=
  hperm.pairwise h fun hne c hc d hd heq => hne d hd c hc heq.symm

/-- A name leads to one file. -/
theorem DistinctNames.file_eq {files : List ParsedFile} (h : DistinctNames files)
    {fingerprint : Fingerprint} {file other : ParsedFile} (hfile : file ∈ files)
    (hother : other ∈ files) {d e : Component} (hd : d ∈ file.unlinked fingerprint)
    (he : e ∈ other.unlinked fingerprint) (hname : d.qualifiedName = e.qualifiedName) :
    file = other := by
  obtain ⟨parsed, code, hparsed, -, rfl⟩ := (file.mem_unlinked fingerprint).mp hd
  obtain ⟨parsed', code', hparsed', -, rfl⟩ := (other.mem_unlinked fingerprint).mp he
  have hsymm : Std.Symm fun file other : ParsedFile =>
      ∀ c ∈ file.components, ∀ d ∈ other.components, c.qualifiedName ≠ d.qualifiedName :=
    ⟨fun _ _ hne c hc d hd heq => hne d hd c hc heq.symm⟩
  by_contra hne
  exact List.Pairwise.forall h hfile hother hne parsed (file.component?_mem hparsed).1 parsed'
    (other.component?_mem hparsed').1 hname

/-- A name leads to one component. -/
theorem DistinctNames.component_eq {files : List ParsedFile} (h : DistinctNames files)
    {fingerprint : Fingerprint} {d e : Component}
    (hd : d ∈ files.flatMap (ParsedFile.unlinked fingerprint))
    (he : e ∈ files.flatMap (ParsedFile.unlinked fingerprint))
    (hname : d.qualifiedName = e.qualifiedName) : d = e := by
  obtain ⟨file, hfile, hd⟩ := List.mem_flatMap.mp hd
  obtain ⟨other, hother, he⟩ := List.mem_flatMap.mp he
  obtain rfl := h.file_eq hfile hother hd he hname
  exact file.eq_of_mem_unlinked fingerprint hd he hname

/-- The table finds the components of the files under their names, and nothing else. -/
def Answers (fingerprint : Fingerprint) (files : List ParsedFile) (known : NameTable) : Prop :=
  ∀ name id, known.find? name = some id ↔
    ∃ d ∈ files.flatMap (ParsedFile.unlinked fingerprint), d.qualifiedName = name ∧ d.id = id

/-- Tables for the same files find the same. -/
theorem Answers.find?_eq {fingerprint : Fingerprint} {files files' : List ParsedFile}
    {known known' : NameTable} (h : Answers fingerprint files known)
    (h' : Answers fingerprint files' known') (hperm : files.Perm files') (name : String) :
    known.find? name = known'.find? name := by
  refine Option.ext fun id => ?_
  rw [h name id, h' name id]
  simp only [(hperm.flatMap_right (ParsedFile.unlinked fingerprint)).mem_iff]

/-- A component is found under its name, when no other component has it. -/
theorem NameTable.find?_ofPairs_of_mem {components : List Component} {c : Component}
    (hc : c ∈ components)
    (huniq : ∀ d ∈ components, d.qualifiedName = c.qualifiedName → d.id = c.id) :
    find? (ofPairs (components.map fun c => (c.qualifiedName, c.id))) c.qualifiedName =
      some c.id := by
  refine lookup_eq_some_of_mem (List.mem_reverse.mpr (List.mem_map_of_mem hc)) fun id hid => ?_
  obtain ⟨d, hd, heq⟩ := List.mem_map.mp (List.mem_reverse.mp hid)
  obtain ⟨hname, rfl⟩ := Prod.mk.inj heq
  exact huniq d hd hname

/-! ### Mirrors -/

/-- The component is linked as its references are answered, and its external edges stand, in the
table, for the references that are not. -/
structure LinkedIn (known : NameTable) (table : SymbolTable) (c : Component) : Prop where
  linkedIds_eq : c.linkedIds = internalTargets known c.id c.referencedSymbols
  names_eq : c.externalIds.map table.nameOf? =
    (firstOccurrences (unknownNames known c.referencedSymbols)).map some

/-- The graph has the files, all of their components and nothing else, whatever its links are. -/
structure Depicts (fingerprint : Fingerprint) (contents : Contents) (files : List ParsedFile)
    (graph : CodeGraph) : Prop where
  portrays : Portrays fingerprint contents files graph
  complete : ∀ file ∈ files, ∀ d ∈ file.unlinked fingerprint, ∃ c ∈ graph.components, c.unlink = d

/-- The graph has the files, all of their components and nothing else, linked. -/
structure Mirrors (fingerprint : Fingerprint) (contents : Contents) (files : List ParsedFile)
    (graph : CodeGraph) : Prop where
  portrays : Portrays fingerprint contents files graph
  complete : ∀ file ∈ files, ∀ d ∈ file.unlinked fingerprint, ∃ c ∈ graph.components, c.unlink = d
  linked : ∃ known, Answers fingerprint files known ∧
    ∀ c ∈ graph.components, LinkedIn known graph.externalSymbols c

theorem Mirrors.depicts {fingerprint : Fingerprint} {contents : Contents} {files : List ParsedFile}
    {graph : CodeGraph} (h : Mirrors fingerprint contents files graph) :
    Depicts fingerprint contents files graph :=
  ⟨h.portrays, h.complete⟩

/-- Linking against a table with distinct identifiers that holds all the names. -/
theorem Externals.Fresh.linkedIn {ext : Externals} (h : ext.Fresh) {known : NameTable}
    {table : SymbolTable} (hgrows : SymbolTable.Grows table ext.table) (c : Component)
    (hnames : ∀ name ∈ unknownNames known c.referencedSymbols, table.contains name = true) :
    LinkedIn known ext.table (c.linkedBy known table) where
  linkedIds_eq := rfl
  names_eq := by
    have hall : ∀ name ∈ unknownNames known c.referencedSymbols,
        ext.table.contains name = true := by
      intro name hname
      obtain ⟨id, hid⟩ := Option.isSome_iff_exists.mp (hnames name hname)
      exact Option.isSome_iff_exists.mpr ⟨id, hgrows name id hid⟩
    have htargets := externalTargets_of_grows hgrows hnames
    simp only [Component.linkedBy, ← htargets]
    exact h.map_nameOf?_externalTargets hall

/-! ### Builds -/

namespace Builder

variable {builder : Builder} {contents : Contents} {files : List ParsedFile}

theorem answers_assemble (hdistinct : DistinctNames files) (externals : Externals) :
    Answers builder.fingerprint files (builder.assemble files ⟨[], externals⟩).nameTable := by
  intro name id
  have hseed : NameTable.find? [] name = none := rfl
  rw [nameTable_assemble, NameTable.find?_override, hseed, Option.or_none]
  constructor
  · exact NameTable.exists_of_find?_ofPairs
  · rintro ⟨d, hd, rfl, rfl⟩
    exact NameTable.find?_ofPairs_of_mem hd fun e he hname =>
      congrArg Component.id (hdistinct.component_eq he hd hname)

theorem alone_of_distinctNames {fingerprint : Fingerprint} (hdistinct : DistinctNames files)
    {file : ParsedFile} (hfile : file ∈ files) {d : Component} (hd : d ∈ file.unlinked fingerprint) :
    Alone fingerprint files file d :=
  fun _ hother _ he hname _ => hdistinct.file_eq hother hfile he hd hname

/-- The table of a build holds the names that its components refer to and nobody knows. -/
theorem contains_assemble {seed : LinkSeed} {c : Component}
    (hc : c ∈ Identity.keepFirst (builder.unlinked files)) {name : String}
    (hname : name ∈ unknownNames (builder.assemble files seed).nameTable c.referencedSymbols) :
    (builder.assemble files seed).graph.externalSymbols.contains name = true := by
  have hall := (seed.externals.contains_internAll
    ((Identity.keepFirst (builder.unlinked files)).flatMap fun c =>
      unknownNames (builder.assemble files seed).nameTable c.referencedSymbols) name).mpr
    (Or.inr (List.mem_flatMap.mpr ⟨c, hc, hname⟩))
  rwa [← externals_assemble] at hall

/-- The external symbols of a build are kept apart when those of its seed are. -/
theorem fresh_assemble {seed : LinkSeed} (hfresh : seed.externals.Fresh) :
    Externals.Fresh ⟨(builder.assemble files seed).graph.externalSymbols,
      (builder.assemble files seed).supply⟩ := by
  rw [externals_assemble]
  exact hfresh.internAll _

/-- The components of a build are linked against one table of names. -/
theorem linkedIn_assemble {seed : LinkSeed} (hfresh : seed.externals.Fresh) {c : Component}
    (hc : c ∈ (builder.assemble files seed).graph.components) :
    LinkedIn (builder.assemble files seed).nameTable
      (builder.assemble files seed).graph.externalSymbols c := by
  rw [components_assemble] at hc
  obtain ⟨d, hd, rfl⟩ := List.mem_map.mp hc
  have hlast : Externals.Fresh ⟨(builder.assemble files seed).graph.externalSymbols,
      (builder.assemble files seed).supply⟩ := fresh_assemble hfresh
  exact hlast.linkedIn (SymbolTable.Grows.refl _) d fun name hname => contains_assemble hd hname

/-- A build of files with distinct names mirrors them. -/
theorem mirrors_assemble (hfree : builder.fingerprint.CollisionFree contents)
    (hcodes : ∀ file ∈ files, file.CodesIn contents)
    (hdistinct : DistinctNames files) {externals : Externals} (hfresh : externals.Fresh) :
    Mirrors builder.fingerprint contents files (builder.assemble files ⟨[], externals⟩).graph where
  portrays := portrays_assemble hcodes _
  complete := fun _ hfile _ hd => exists_unlink_eq_of_alone hfree hcodes _ hfile hd
    (alone_of_distinctNames hdistinct hfile hd)
  linked := ⟨_, answers_assemble hdistinct externals, fun _ hc => linkedIn_assemble hfresh hc⟩

/-- The external symbols of a build without a seed are those its components have edges to. -/
theorem exists_external_of_contains (supply : IdSupply) {name : String}
    (h : (builder.assemble files ⟨[], ⟨.empty, supply⟩⟩).graph.externalSymbols.contains name =
      true) :
    ∃ c ∈ (builder.assemble files ⟨[], ⟨.empty, supply⟩⟩).graph.components,
      some name ∈ c.externalIds.map
        (builder.assemble files ⟨[], ⟨.empty, supply⟩⟩).graph.externalSymbols.nameOf? := by
  have htable := congrArg Externals.table
    (externals_assemble builder files ⟨[], ⟨.empty, supply⟩⟩)
  simp only at htable
  rw [htable, Externals.contains_internAll] at h
  rcases h with hempty | hmem
  · exact absurd hempty (by simp [SymbolTable.contains, SymbolTable.get?, SymbolTable.empty])
  · obtain ⟨d, hd, hname⟩ := List.mem_flatMap.mp hmem
    obtain ⟨c, hc, hrefs⟩ : ∃ c ∈ (builder.assemble files ⟨[], ⟨.empty, supply⟩⟩).graph.components,
        c.referencedSymbols = d.referencedSymbols := by
      rw [components_assemble]
      exact ⟨_, List.mem_map_of_mem hd, rfl⟩
    refine ⟨c, hc, ?_⟩
    rw [(linkedIn_assemble (Externals.fresh_empty supply) hc).names_eq, hrefs]
    exact List.mem_map_of_mem (Text.mem_firstOccurrences.mpr hname)

end Builder

/-! ### Updates -/

namespace Update

variable {parser : SyntaxParser} {fingerprint : Fingerprint} {contents : Contents}
  {builder : Builder} {fs : FileSystem} {directory : String} {files : List ParsedFile}
  {previous : CodeGraph} {changes : ChangeSet}
  {supply : IdSupply}

/-- The retained components are those of the kept files. -/
theorem mem_retained_iff (hfree : fingerprint.CollisionFree contents)
    (hsourced : ∀ file ∈ files, file.Sourced parser contents)
    (h : Depicts fingerprint contents files previous)
    {name : String} {id : ComponentId} :
    (∃ c ∈ retained previous changes, c.qualifiedName = name ∧ c.id = id) ↔
      ∃ d ∈ (keptFiles changes files).flatMap (ParsedFile.unlinked fingerprint),
        d.qualifiedName = name ∧ d.id = id := by
  constructor
  · rintro ⟨c, hc, rfl, rfl⟩
    obtain ⟨e, he, rfl⟩ := List.mem_map.mp hc
    have hprevious := (mem_untouched.mp he).1
    obtain ⟨file, hfile, hmem⟩ := h.portrays.extracted e hprevious
    have hkept := (mem_untouched_iff hfree hsourced h.portrays hprevious hfile hmem).mp he
    exact ⟨e.unlink, List.mem_flatMap.mpr ⟨file, hkept, hmem⟩, rfl, rfl⟩
  · rintro ⟨d, hd, rfl, rfl⟩
    obtain ⟨file, hkept, hmem⟩ := List.mem_flatMap.mp hd
    have hfile := (mem_keptFiles.mp hkept).1
    obtain ⟨c, hc, rfl⟩ := h.complete file hfile d hmem
    have huntouched := (mem_untouched_iff hfree hsourced h.portrays hc hfile hmem).mpr hkept
    exact ⟨pruneLinks (classify previous changes).dropped c, List.mem_map_of_mem huntouched,
      rfl, rfl⟩

/-- The names an update links against are those of what is retained and of what is built, when no name
stands for two identifiers. -/
theorem find?_built {seeds : List Component}
    (hseeds : ∀ name id, (∃ c ∈ retained previous changes, c.qualifiedName = name ∧ c.id = id) ↔
      ∃ d ∈ seeds, d.qualifiedName = name ∧ d.id = id)
    (hunique : ∀ d ∈ seeds ++ builder.unlinked (rebuiltFiles builder fs directory changes),
      ∀ e ∈ seeds ++ builder.unlinked (rebuiltFiles builder fs directory changes),
        d.qualifiedName = e.qualifiedName → d.id = e.id) {name : String} {id : ComponentId} :
    (built builder fs directory previous changes supply).nameTable.find? name = some id ↔
      ∃ d ∈ seeds ++ builder.unlinked (rebuiltFiles builder fs directory changes),
        d.qualifiedName = name ∧ d.id = id := by
  rw [built, Builder.nameTable_assemble, NameTable.find?_override, Option.or_eq_some_iff]
  constructor
  · rintro (hrebuilt | ⟨-, hseed⟩)
    · obtain ⟨d, hd, hname, hid⟩ := NameTable.exists_of_find?_ofPairs hrebuilt
      exact ⟨d, List.mem_append_right _ hd, hname, hid⟩
    · obtain ⟨d, hd, hname, hid⟩ :=
        (hseeds name id).mp (NameTable.exists_of_find?_ofPairs hseed)
      exact ⟨d, List.mem_append_left _ hd, hname, hid⟩
  · rintro ⟨d, hd, rfl, rfl⟩
    rcases List.mem_append.mp hd with hkept | hrebuilt
    · cases hfound : NameTable.find? (.ofPairs ((builder.unlinked
          (rebuiltFiles builder fs directory changes)).map fun c => (c.qualifiedName, c.id)))
          d.qualifiedName with
      | some id =>
        obtain ⟨e, he, hname, rfl⟩ := NameTable.exists_of_find?_ofPairs hfound
        exact Or.inl (congrArg some (hunique e (List.mem_append_right _ he) d hd hname))
      | none =>
        refine Or.inr ⟨rfl, ?_⟩
        obtain ⟨c, hc, hname, hid⟩ := (hseeds _ _).mpr ⟨d, hkept, rfl, rfl⟩
        rw [← hname, ← hid]
        refine NameTable.find?_ofPairs_of_mem hc fun e he hsame => ?_
        obtain ⟨d', hd', hname', hid'⟩ := (hseeds _ _).mp ⟨e, he, rfl, rfl⟩
        rw [← hid', hid]
        exact hunique d' (List.mem_append_left _ hd') d hd (hname'.trans (hsame.trans hname))
    · exact Or.inl (NameTable.find?_ofPairs_of_mem hrebuilt fun e he hname =>
        hunique e (List.mem_append_right _ he) d hd hname)

/-- The names an update links against are those of the next files. -/
theorem answers_built (hfree : fingerprint.CollisionFree contents)
    (hstandard : builder.Standard parser fingerprint contents fs directory
      (rebuildPaths builder fs directory changes))
    (hsourced : ∀ file ∈ files, file.Sourced parser contents)
    (h : Depicts fingerprint contents files previous)
    (hdistinct : DistinctNames (nextFiles builder fs directory changes files)) :
    Answers fingerprint (nextFiles builder fs directory changes files)
      (built builder fs directory previous changes supply).nameTable := by
  obtain rfl := hstandard.fingerprint_eq
  have hnext : (nextFiles builder fs directory changes files).flatMap
      (ParsedFile.unlinked builder.fingerprint) =
        (keptFiles changes files).flatMap (ParsedFile.unlinked builder.fingerprint) ++
          builder.unlinked (rebuiltFiles builder fs directory changes) := by
    rw [nextFiles, List.flatMap_append, Builder.unlinked]
  intro name id
  rw [hnext]
  refine find?_built (fun _ _ => mem_retained_iff hfree hsourced h) fun d hd e he hname => ?_
  rw [← hnext] at hd he
  exact congrArg Component.id (hdistinct.component_eq hd he hname)

/-- The retained components are linked again. -/
theorem relinked_fst :
    (relinked builder true fs directory previous changes supply).1 =
      (retained previous changes).map (Component.linkedBy
        (built builder fs directory previous changes supply).nameTable
        (relinked builder true fs directory previous changes supply).2.table) :=
  linkAll_fst _ _ _

theorem relinked_snd :
    (relinked builder true fs directory previous changes supply).2 =
      Externals.internAll
        ⟨(built builder fs directory previous changes supply).graph.externalSymbols,
          (built builder fs directory previous changes supply).supply⟩
        ((retained previous changes).flatMap fun c => unknownNames
          (built builder fs directory previous changes supply).nameTable c.referencedSymbols) :=
  linkAll_externals _ _ _

/-- The external symbols after an update are kept apart when those before it are. -/
theorem fresh_relinked (hfresh : Externals.Fresh ⟨previous.externalSymbols, supply⟩) :
    (relinked builder true fs directory previous changes supply).2.Fresh := by
  have hbuilt : Externals.Fresh
      ⟨(built builder fs directory previous changes supply).graph.externalSymbols,
        (built builder fs directory previous changes supply).supply⟩ :=
    Builder.fresh_assemble hfresh
  rw [relinked_snd]
  exact hbuilt.internAll _

/-- After an update that links again, all components are linked against one table of names. -/
theorem linkedIn_apply (hfresh : Externals.Fresh ⟨previous.externalSymbols, supply⟩)
    {c : Component}
    (hc : c ∈ (apply builder true fs directory previous changes supply).graph.components) :
    LinkedIn (built builder fs directory previous changes supply).nameTable
      (apply builder true fs directory previous changes supply).graph.externalSymbols c := by
  have hlast : (relinked builder true fs directory previous changes supply).2.Fresh :=
    fresh_relinked hfresh
  rw [graph_apply] at hc ⊢
  rcases List.mem_append.mp hc with hretained | hadded
  · rw [relinked_fst] at hretained
    obtain ⟨d, hd, rfl⟩ := List.mem_map.mp hretained
    refine hlast.linkedIn (SymbolTable.Grows.refl _) d fun name hname => ?_
    rw [relinked_snd, Externals.contains_internAll]
    exact Or.inr (List.mem_flatMap.mpr ⟨d, hd, hname⟩)
  · have hbuilt := (additions_sublist _ _).subset hadded
    rw [built, Builder.components_assemble] at hbuilt
    obtain ⟨d, hd, rfl⟩ := List.mem_map.mp hbuilt
    -- The table has grown since these were linked, and reads their identifiers as before.
    refine hlast.linkedIn ?_ d fun name hname => Builder.contains_assemble hd hname
    rw [relinked_snd]
    exact Externals.grows_internAll _ _

/-- An update depicts the next files, whether it links again or not. -/
theorem depicts_apply (hfree : fingerprint.CollisionFree contents)
    (hstandard : builder.Standard parser fingerprint contents fs directory
      (rebuildPaths builder fs directory changes))
    (hsourced : ∀ file ∈ files, file.Sourced parser contents) (hnames : DistinctNames files)
    (h : Depicts fingerprint contents files previous)
    (hdistinct : DistinctNames (nextFiles builder fs directory changes files))
    (relinkRetained : Bool) :
    Depicts fingerprint contents (nextFiles builder fs directory changes files)
      (apply builder relinkRetained fs directory previous changes supply).graph where
  portrays := portrays_apply hfree hstandard hsourced h.portrays relinkRetained
  complete := by
    intro file hfile d hd
    have hcomplete : Complete fingerprint files [] previous :=
      fun file hfile d hd _ => h.complete file hfile d hd
    refine complete_apply hfree hstandard hsourced h.portrays hcomplete relinkRetained file hfile d
      hd fun pass hpass hin => ?_
    rcases List.mem_cons.mp hpass with rfl | hpass
    · exact Builder.alone_of_distinctNames hdistinct hin hd
    · obtain rfl := List.mem_singleton.mp hpass
      exact Builder.alone_of_distinctNames hnames hin hd

/-- An update that links again mirrors the next files. -/
theorem mirrors_apply (hfree : fingerprint.CollisionFree contents)
    (hstandard : builder.Standard parser fingerprint contents fs directory
      (rebuildPaths builder fs directory changes))
    (hsourced : ∀ file ∈ files, file.Sourced parser contents) (hnames : DistinctNames files)
    (h : Mirrors fingerprint contents files previous)
    (hfresh : Externals.Fresh ⟨previous.externalSymbols, supply⟩)
    (hdistinct : DistinctNames (nextFiles builder fs directory changes files)) :
    Mirrors fingerprint contents (nextFiles builder fs directory changes files)
      (apply builder true fs directory previous changes supply).graph := by
  obtain ⟨hportrays, hcomplete⟩ :=
    depicts_apply hfree hstandard hsourced hnames h.depicts hdistinct true
  exact ⟨hportrays, hcomplete, _, answers_built hfree hstandard hsourced h.depicts hdistinct,
    fun _ hc => linkedIn_apply hfresh hc⟩

end Update

/-! ### Agreement -/

namespace CodeGraph

/-- A component of the graph without its external identifiers, and the names these stand for. -/
def view (graph : CodeGraph) (c : Component) : Component × List (Option String) :=
  ({ c with externalIds := [] }, c.externalIds.map graph.externalSymbols.nameOf?)

/-- The graphs have, in some order, the same files and the same components, whose external edges
stand for the same names; the first knows at least the external names of the second. -/
structure Agrees (graph other : CodeGraph) : Prop where
  files_perm : graph.files.Perm other.files
  components_perm : (graph.components.map graph.view).Perm (other.components.map other.view)
  names_found : ∀ c ∈ graph.components, ∀ id ∈ c.externalIds,
    (graph.externalSymbols.nameOf? id).isSome = true
  externals_subset : ∀ name, other.externalSymbols.contains name = true →
    graph.externalSymbols.contains name = true

end CodeGraph

/-- A component that is linked as its references are answered is determined by the rest of it. -/
theorem LinkedIn.view_eq {graph graph' : CodeGraph} {known : NameTable} {c c' : Component}
    (h : LinkedIn known graph.externalSymbols c) (h' : LinkedIn known graph'.externalSymbols c')
    (hunlink : c.unlink = c'.unlink) : graph.view c = graph'.view c' := by
  obtain ⟨id, name, code, kind, fileId, parentId, spans, links, externals, references⟩ := c
  obtain ⟨id', name', code', kind', fileId', parentId', spans', links', externals', references'⟩ := c'
  simp only [Component.unlink, Component.mk.injEq] at hunlink
  obtain ⟨rfl, rfl, rfl, rfl, rfl, rfl, rfl, -, -, rfl⟩ := hunlink
  have hlinks : links = links' := h.linkedIds_eq.trans h'.linkedIds_eq.symm
  have hnames : externals.map graph.externalSymbols.nameOf? =
      externals'.map graph'.externalSymbols.nameOf? := h.names_eq.trans h'.names_eq.symm
  simp only [CodeGraph.view, hlinks, hnames]

/-- Tables that answer alike link alike. -/
theorem LinkedIn.congr {known known' : NameTable} {table : SymbolTable} {c : Component}
    (h : LinkedIn known table c) (hfind : ∀ name, known.find? name = known'.find? name) :
    LinkedIn known' table c := by
  refine ⟨h.linkedIds_eq.trans ?_, h.names_eq.trans ?_⟩
  · rw [internalTargets_congr hfind]
  · rw [unknownNames_congr hfind]

namespace Mirrors

variable {fingerprint : Fingerprint} {contents : Contents} {files files' : List ParsedFile}
  {graph graph' : CodeGraph}

private theorem nodup_map_view (h : Mirrors fingerprint contents files graph) :
    (graph.components.map graph.view).Nodup := by
  have hids : ((graph.components.map graph.view).map fun pair => pair.1.id).Nodup := by
    rw [List.map_map]
    exact h.portrays.identified.nodup
  exact hids.of_map

/-- What is linked as the names of the files answer is in every graph that mirrors them. -/
theorem view_mem (h' : Mirrors fingerprint contents files' graph')
    (h : Portrays fingerprint contents files graph)
    (hperm : files.Perm files') {known : NameTable} (hanswers : Answers fingerprint files known)
    {c : Component} (hc : c ∈ graph.components)
    (hlinked : LinkedIn known graph.externalSymbols c) :
    graph.view c ∈ graph'.components.map graph'.view := by
  obtain ⟨known', hanswers', hlinked'⟩ := h'.linked
  obtain ⟨file, hfile, hmem⟩ := h.extracted c hc
  obtain ⟨c', hc', hunlink⟩ := h'.complete file (hperm.mem_iff.mp hfile) c.unlink hmem
  have hsame : LinkedIn known graph'.externalSymbols c' :=
    (hlinked' c' hc').congr fun name => (hanswers.find?_eq hanswers' hperm name).symm
  exact List.mem_map.mpr ⟨c', hc', (hlinked.view_eq hsame hunlink.symm).symm⟩

private theorem mem_map_view (h : Mirrors fingerprint contents files graph)
    (h' : Mirrors fingerprint contents files' graph') (hperm : files.Perm files')
    {pair : Component × List (Option String)} (hpair : pair ∈ graph.components.map graph.view) :
    pair ∈ graph'.components.map graph'.view := by
  obtain ⟨known, hanswers, hlinked⟩ := h.linked
  obtain ⟨c, hc, rfl⟩ := List.mem_map.mp hpair
  exact h'.view_mem h.portrays hperm hanswers hc (hlinked c hc)

/-- Graphs that mirror the same files have the same components. -/
theorem components_perm (h : Mirrors fingerprint contents files graph)
    (h' : Mirrors fingerprint contents files' graph') (hperm : files.Perm files') :
    (graph.components.map graph.view).Perm (graph'.components.map graph'.view) :=
  (List.perm_ext_iff_of_nodup h.nodup_map_view h'.nodup_map_view).mpr fun _ =>
    ⟨h.mem_map_view h' hperm, h'.mem_map_view h hperm.symm⟩

/-- An external edge stands for an external name of the graph. -/
theorem exists_contains (h : Mirrors fingerprint contents files graph) {c : Component}
    (hc : c ∈ graph.components) {id : ExternalId} (hid : id ∈ c.externalIds) :
    ∃ name, graph.externalSymbols.nameOf? id = some name ∧
      graph.externalSymbols.contains name = true := by
  obtain ⟨known, -, hlinked⟩ := h.linked
  have hmem : graph.externalSymbols.nameOf? id ∈ c.externalIds.map graph.externalSymbols.nameOf? :=
    List.mem_map_of_mem hid
  rw [(hlinked c hc).names_eq] at hmem
  obtain ⟨name, -, heq⟩ := List.mem_map.mp hmem
  obtain ⟨entry, hentry, rfl⟩ := Option.map_eq_some_iff.mp heq.symm
  have hget := SymbolTable.get?_of_mem (List.mem_of_find?_eq_some hentry)
  exact ⟨_, heq.symm, Option.isSome_iff_exists.mpr ⟨_, hget⟩⟩

/-- A graph that mirrors the files of a build agrees with the build. -/
theorem agrees_assemble {builder : Builder} (hfree : builder.fingerprint.CollisionFree contents)
    (hcodes : ∀ file ∈ files', file.CodesIn contents)
    (hdistinct : DistinctNames files') (h : Mirrors builder.fingerprint contents files graph)
    (hperm : files.Perm files') (supply : IdSupply) :
    graph.Agrees (builder.assemble files' ⟨[], ⟨.empty, supply⟩⟩).graph := by
  have hfresh := Externals.fresh_empty supply
  have hbuild : Mirrors builder.fingerprint contents files'
      (builder.assemble files' ⟨[], ⟨.empty, supply⟩⟩).graph :=
    Builder.mirrors_assemble hfree hcodes hdistinct hfresh
  have hcomponents := h.components_perm hbuild hperm
  refine ⟨?_, hcomponents, fun c hc id hid => ?_, fun name hname => ?_⟩
  · rw [h.portrays.files_eq, hbuild.portrays.files_eq]
    exact hperm.map _
  · obtain ⟨name, hname, -⟩ := h.exists_contains hc hid
    exact Option.isSome_iff_exists.mpr ⟨name, hname⟩
  · -- The name is one that a component of the build refers to, and so does the same component here.
    obtain ⟨c, hc, hedge⟩ := Builder.exists_external_of_contains supply hname
    obtain ⟨c', hc', heq⟩ := List.mem_map.mp (hcomponents.mem_iff.mpr (List.mem_map_of_mem hc))
    have hnames : c'.externalIds.map graph.externalSymbols.nameOf? = c.externalIds.map
        (builder.assemble files' ⟨[], ⟨.empty, supply⟩⟩).graph.externalSymbols.nameOf? :=
      congrArg Prod.snd heq
    rw [← hnames] at hedge
    obtain ⟨id, hid, hfound⟩ := List.mem_map.mp hedge
    obtain ⟨name', hname', hcontains⟩ := h.exists_contains hc' hid
    rw [hfound, Option.some.injEq] at hname'
    rwa [hname']

end Mirrors

end CodeAtlas
